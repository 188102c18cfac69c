import Mathlib.Data.List.Nodup
import Mathlib.Data.List.Perm.Basic
import L0vi0x.Python.Threads

/-! Programs that write once. Where the write of each has the effect that the whole program
would have alone at that moment, every interleaving leaves what the programs leave one after
another, in the order of their writes. -/
namespace L0vi0x.Python

section Order

variable {Request ε σ ι κ α : Type} {Reply : Request → Type}
  (answer : ε → σ → (request : Request) → Reply request × σ)
  (committed : (request : Request) → Reply request → Option κ)

/-- The write of a move that commits: the position of its program, and what it was done with. -/
def Pool.commit? (pool : Pool σ ι Reply α) (move : Nat × ε) : Option (Nat × κ) :=
  match pool.threads[move.1]? with
  | some (_, .call request _) =>
      (committed request (answer move.2 pool.store request).1).map fun k => (move.1, k)
  | _ => none

/-- The writes of a run that commit, in their order. -/
def Pool.commits (pool : Pool σ ι Reply α) : List (Nat × ε) → List (Nat × κ)
  | [] => []
  | move :: rest =>
      (pool.commit? answer committed move).toList ++ (pool.step answer move).commits rest

/-- The service after whole programs in the order of their writes. -/
def serially (alone : ι → κ → σ → σ) (labels : List ι) (start : σ) (order : List (Nat × κ)) : σ :=
  order.foldl (fun s write => (labels[write.1]?.map fun label => alone label write.2 s).getD s) start

end Order

section Linear

variable {Request ε σ ι κ α : Type} {Reply : Request → Type}

/-- What makes the write of a program its only effect. A program is `before` its write, `after`
it, or has `failed`; a step of another keeps to `rely`; `same` compares the service with the
one on which the programs run one after another. -/
structure Linearizable (answer : ε → σ → (request : Request) → Reply request × σ)
    (committed : (request : Request) → Reply request → Option κ) (alone : ι → κ → σ → σ) where
  good : σ → Prop
  rely : σ → σ → Prop
  same : σ → σ → Prop
  before : ι → σ → Program Reply α → Prop
  after : Program Reply α → Prop
  failed : α → Prop
  stable : ∀ {label s t program}, before label s program → rely s t → before label t program
  before_calls : ∀ {label s a}, ¬ before label s (.done a)
  before_step : ∀ {label s request next} (env : ε), good s →
    before label s (.call request next) →
      good (answer env s request).2 ∧ rely s (answer env s request).2 ∧
      (committed request (answer env s request).1 = none →
        (∀ t, same s t → same (answer env s request).2 t) ∧
          (before label (answer env s request).2 (next (answer env s request).1) ∨
            ∃ a, failed a ∧ next (answer env s request).1 = .done a)) ∧
      ∀ k, committed request (answer env s request).1 = some k →
        (∀ t, same s t → same (answer env s request).2 (alone label k t)) ∧
          after (next (answer env s request).1)
  after_step : ∀ {s request next} (env : ε), good s → after (.call request next) →
    good (answer env s request).2 ∧ rely s (answer env s request).2 ∧
      committed request (answer env s request).1 = none ∧
      (∀ t, same s t → same (answer env s request).2 t) ∧
      (after (next (answer env s request).1) ∨
        ∃ a, failed a ∧ next (answer env s request).1 = .done a)

variable {answer : ε → σ → (request : Request) → Reply request × σ}
  {committed : (request : Request) → Reply request → Option κ} {alone : ι → κ → σ → σ}
  (L : Linearizable (α := α) answer committed alone)

/-- Where a program stands whose write is in the order or not. -/
def Linearizable.Stands (written : Prop) (label : ι) (s : σ) (program : Program Reply α) : Prop :=
  (∃ a, L.failed a ∧ program = .done a) ∨ (¬ written ∧ L.before label s program) ∨
    (written ∧ L.after program)

/-- The writes so far are those of `order`, each of another program, and the service is as if
these programs had run one after another. -/
structure Linearized (labels : List ι) (start : σ) (order : List (Nat × κ))
    (pool : Pool σ ι Reply α) : Prop where
  labelled : pool.threads.map (·.1) = labels
  good : L.good pool.store
  same : L.same pool.store (serially alone labels start order)
  once : (order.map (·.1)).Nodup
  bounded : ∀ i ∈ order.map (·.1), i < labels.length
  threads : ∀ (i : Nat) (t : ι × Program Reply α), pool.threads[i]? = some t →
    L.Stands (i ∈ order.map (·.1)) t.1 pool.store t.2

variable {L} {labels : List ι} {start : σ} {order order' : List (Nat × κ)}
  {pool : Pool σ ι Reply α} {i : Nat} {label : ι}

/-- What others do keeps a program where it stands. -/
theorem Linearizable.Stands.stable {written written' : Prop} {s t : σ} {program : Program Reply α}
    (h : L.Stands written label s program) (hRely : L.rely s t) (hWritten : written ↔ written') :
    L.Stands written' label t program := by
  rcases h with hFailed | ⟨hNot, hBefore⟩ | ⟨hDone, hAfter⟩
  · exact .inl hFailed
  · exact .inr (.inl ⟨fun h => hNot (hWritten.mpr h), L.stable hBefore hRely⟩)
  · exact .inr (.inr ⟨hWritten.mp hDone, hAfter⟩)

theorem serially_append (order more : List (Nat × κ)) :
    serially alone labels start (order ++ more) =
      serially alone labels (serially alone labels start order) more :=
  List.foldl_append

/-- One program has moved on, perhaps by its write. -/
theorem Linearized.advance (h : Linearized L labels start order pool) {program : Program Reply α}
    (hAt : pool.threads[i]? = some (label, program)) {s' : σ} {program' : Program Reply α}
    (hGood : L.good s') (hRely : L.rely pool.store s')
    (hSame : L.same s' (serially alone labels start order'))
    (hOrder : order' = order ∨ i ∉ order.map (·.1) ∧ ∃ k, order' = order ++ [(i, k)])
    (hStands : L.Stands (i ∈ order'.map (·.1)) label s' program') :
    Linearized L labels start order' ⟨s', pool.threads.set i (label, program')⟩ := by
  obtain ⟨hLt, -⟩ := List.getElem?_eq_some_iff.mp hAt
  have hLabelled : (pool.threads.set i (label, program')).map (·.1) = labels := by
    have hLabel : (pool.threads.map (·.1))[i]? = some label := by
      rw [List.getElem?_map, hAt]
      rfl
    obtain ⟨hLt', hSelf⟩ := List.getElem?_eq_some_iff.mp hLabel
    rw [← h.labelled, List.map_set, ← hSelf]
    exact List.set_getElem_self hLt'
  have hOthers : ∀ j, j ≠ i → (j ∈ order.map (·.1) ↔ j ∈ order'.map (·.1)) := by
    intro j hj
    rcases hOrder with rfl | ⟨_, k, rfl⟩
    · rfl
    · simp [hj]
  refine ⟨hLabelled, hGood, hSame, ?_, ?_, ?_⟩
  · rcases hOrder with rfl | ⟨hNew, k, rfl⟩
    · exact h.once
    · rw [List.map_append, List.nodup_append]
      refine ⟨h.once, List.nodup_singleton _, fun a ha b hb => ?_⟩
      rintro rfl
      have hSame : a = i := List.mem_singleton.mp hb
      exact hNew (hSame ▸ ha)
  · intro j hj
    by_cases hji : j = i
    · rw [hji, ← hLabelled, List.length_map, List.length_set]
      exact hLt
    · exact h.bounded j ((hOthers j hji).mpr hj)
  · intro j t ht
    by_cases hji : j = i
    · subst hji
      rw [List.getElem?_set_self hLt, Option.some.injEq] at ht
      rw [← ht]
      exact hStands
    · rw [List.getElem?_set_ne (Ne.symm hji)] at ht
      exact (h.threads j t ht).stable hRely (hOthers j hji)

theorem Linearized.label_at (h : Linearized L labels start order pool) {program : Program Reply α}
    (hAt : pool.threads[i]? = some (label, program)) : labels[i]? = some label := by
  rw [← h.labelled, List.getElem?_map, hAt]
  rfl

/-- A step of the pool keeps the service as if the writes had run one after another. -/
theorem Linearized.step (h : Linearized L labels start order pool) (move : Nat × ε) :
    Linearized L labels start (order ++ (pool.commit? answer committed move).toList)
      (pool.step answer move) := by
  unfold Pool.step Pool.commit?
  cases hAt : pool.threads[move.1]? with
  | none => simpa using h
  | some t =>
      obtain ⟨label, program⟩ := t
      have hStands := h.threads move.1 _ hAt
      cases program with
      | done a =>
          obtain ⟨hLt, hSelf⟩ := List.getElem?_eq_some_iff.mp hAt
          have hThreads : pool.threads.set move.1 (label, .done a) = pool.threads := by
            rw [← hSelf]
            exact List.set_getElem_self hLt
          simp only [Program.step, hThreads, Option.toList_none, List.append_nil]
          exact h
      | call request next =>
          simp only [Program.step]
          rcases hStands with ⟨_, _, hDone⟩ | ⟨hNew, hBefore⟩ | ⟨hOld, hAfter⟩
          · cases hDone
          · obtain ⟨hGood, hRely, hNone, hSome⟩ := L.before_step move.2 h.good hBefore
            cases hCommit : committed request (answer move.2 pool.store request).1 with
            | none =>
                obtain ⟨hSame, hNext⟩ := hNone hCommit
                refine h.advance hAt hGood hRely ?_ (.inl (List.append_nil _)) ?_
                · rw [Option.map_none, Option.toList_none, List.append_nil]
                  exact hSame _ h.same
                · rw [Option.map_none, Option.toList_none, List.append_nil]
                  rcases hNext with hNext | hFailed
                  · exact .inr (.inl ⟨hNew, hNext⟩)
                  · exact .inl hFailed
            | some k =>
                obtain ⟨hSame, hNext⟩ := hSome k hCommit
                refine h.advance hAt hGood hRely ?_ (.inr ⟨hNew, k, rfl⟩) (.inr (.inr ⟨?_, hNext⟩))
                · rw [serially_append]
                  simp only [Option.map_some, Option.toList_some, serially, List.foldl_cons,
                    List.foldl_nil, h.label_at hAt, Option.getD_some]
                  exact hSame _ h.same
                · simp
          · obtain ⟨hGood, hRely, hNone, hSame, hNext⟩ := L.after_step move.2 h.good hAfter
            rw [hNone]
            refine h.advance hAt hGood hRely ?_ (.inl (List.append_nil _)) ?_
            · rw [Option.map_none, Option.toList_none, List.append_nil]
              exact hSame _ h.same
            · rw [Option.map_none, Option.toList_none, List.append_nil]
              rcases hNext with hNext | hFailed
              · exact .inr (.inr ⟨hOld, hNext⟩)
              · exact .inl hFailed

/-- Every interleaving is linearized by its writes. -/
theorem Linearized.run (h : Linearized L labels start order pool) (moves : List (Nat × ε)) :
    Linearized L labels start (order ++ pool.commits answer committed moves)
      (pool.run answer moves) := by
  induction moves generalizing pool order with
  | nil => simpa [Pool.commits] using h
  | cons move rest ih =>
      rw [Pool.commits, ← List.append_assoc]
      exact ih (h.step move)

/-- Programs before their writes, on a service that is compared with itself. -/
theorem linearized_start {s : σ} {threads : List (ι × Program Reply α)} (hGood : L.good s)
    (hSame : L.same s s) (hThreads : ∀ t ∈ threads, L.before t.1 s t.2) :
    Linearized L (threads.map (·.1)) s [] ⟨s, threads⟩ where
  labelled := rfl
  good := hGood
  same := hSame
  once := List.nodup_nil
  bounded := by simp
  threads := fun i t ht => .inr (.inl ⟨by simp, hThreads t (List.mem_of_getElem? ht)⟩)

/-- When no program failed and all are done, each has written once. -/
theorem Linearized.complete (h : Linearized L labels start order pool)
    (hDone : ∀ t ∈ pool.threads, ∃ a, ¬ L.failed a ∧ t.2 = .done a) :
    (order.map (·.1)).Perm (List.range labels.length) := by
  refine (List.perm_ext_iff_of_nodup h.once List.nodup_range).mpr fun i => ?_
  rw [List.mem_range]
  refine ⟨h.bounded i, fun hi => ?_⟩
  rw [← h.labelled, List.length_map] at hi
  obtain ⟨t, hAt⟩ : ∃ t, pool.threads[i]? = some t := ⟨_, List.getElem?_eq_getElem hi⟩
  obtain ⟨a, hReturned, hProgram⟩ := hDone t (List.mem_of_getElem? hAt)
  rcases h.threads i t hAt with ⟨b, hFailed, hIs⟩ | ⟨_, hBefore⟩ | ⟨hOld, _⟩
  · rw [hProgram] at hIs
    cases hIs
    exact absurd hFailed hReturned
  · rw [hProgram] at hBefore
    exact absurd hBefore L.before_calls
  · exact hOld

end Linear
end L0vi0x.Python
