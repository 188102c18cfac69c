import Mathlib.Data.List.Basic

/-! Programs that call an atomic service, and every interleaving of their calls. -/
namespace L0vi0x.Python

/-- A program over atomic requests; each request has a type of replies. -/
inductive Program {Request : Type} (Reply : Request → Type) (α : Type) where
  | done (result : α)
  | call (request : Request) (next : Reply request → Program Reply α)

/-- The service and the programs under way. Each keeps the label that it started with. -/
structure Pool {Request : Type} (σ ι : Type) (Reply : Request → Type) (α : Type) where
  store : σ
  threads : List (ι × Program Reply α)

section Steps

variable {Request ε σ ι α : Type} {Reply : Request → Type}
  (answer : ε → σ → (request : Request) → Reply request × σ)

/-- One request of a program. -/
def Program.step (env : ε) (s : σ) : Program Reply α → Program Reply α × σ
  | .done a => (.done a, s)
  | .call request next => (next (answer env s request).1, (answer env s request).2)

/-- A program that runs to its end with no other in between. -/
def Program.alone : Program Reply α → (Nat → ε) → σ → α × σ
  | .done a, _, s => (a, s)
  | .call request next, envs, s =>
      (next (answer (envs 0) s request).1).alone (fun n => envs (n + 1))
        (answer (envs 0) s request).2

/-- The program at a position does its next request; `env` is what else the reply
depends on. -/
def Pool.step (pool : Pool σ ι Reply α) (move : Nat × ε) : Pool σ ι Reply α :=
  match pool.threads[move.1]? with
  | none => pool
  | some (label, program) =>
      ⟨(program.step answer move.2 pool.store).2,
        pool.threads.set move.1 (label, (program.step answer move.2 pool.store).1)⟩

def Pool.run (pool : Pool σ ι Reply α) (moves : List (Nat × ε)) : Pool σ ι Reply α :=
  moves.foldl (Pool.step answer) pool

@[simp] theorem Pool.run_nil (pool : Pool σ ι Reply α) : pool.run answer [] = pool := rfl

theorem Pool.run_append (pool : Pool σ ι Reply α) (moves more : List (Nat × ε)) :
    pool.run answer (moves ++ more) = (pool.run answer moves).run answer more :=
  List.foldl_append

/-- A program keeps its label. -/
theorem Pool.label_run (pool : Pool σ ι Reply α) (moves : List (Nat × ε)) :
    (pool.run answer moves).threads.map (·.1) = pool.threads.map (·.1) := by
  induction moves generalizing pool with
  | nil => rfl
  | cons move rest ih =>
      refine (ih (pool.step answer move)).trans ?_
      unfold Pool.step
      cases hAt : pool.threads[move.1]? with
      | none => rfl
      | some t =>
          have hLabel : (pool.threads.map (·.1))[move.1]? = some t.1 := by
            rw [List.getElem?_map, hAt]
            rfl
          obtain ⟨hLt, hSame⟩ := List.getElem?_eq_some_iff.mp hLabel
          rw [List.map_set, ← hSame]
          exact List.set_getElem_self hLt

end Steps

section RelyGuarantee

variable {Request ε σ ι α : Type} {Reply : Request → Type}

/-- What the programs of a pool agree on: an invariant of the service, and a relation
that all its steps stay within. -/
structure Agreement (σ : Type) where
  good : σ → Prop
  rely : σ → σ → Prop
  refl : ∀ s, rely s s
  trans : ∀ {s t u}, rely s t → rely t u → rely s u

variable (answer : ε → σ → (request : Request) → Reply request × σ) (agreed : Agreement σ)

/-- However the others act in between, the steps of the program keep to the agreement
and to its own guarantee, and its result is right from then on. -/
def Program.Guaranteed (guarantee : σ → σ → Prop) (post : σ → α → Prop) :
    Program Reply α → σ → Prop
  | .done a, s => ∀ t, agreed.good t → agreed.rely s t → post t a
  | .call request next, s => ∀ env t, agreed.good t → agreed.rely s t →
      agreed.good (answer env t request).2 ∧ agreed.rely t (answer env t request).2 ∧
        guarantee t (answer env t request).2 ∧
        (next (answer env t request).1).Guaranteed guarantee post (answer env t request).2

variable {answer agreed} {guarantee : σ → σ → Prop} {post : σ → α → Prop}

/-- What others do keeps a program guaranteed. -/
theorem Program.Guaranteed.stable {program : Program Reply α} {s t : σ}
    (h : program.Guaranteed answer agreed guarantee post s) (hRely : agreed.rely s t) :
    program.Guaranteed answer agreed guarantee post t := by
  cases program with
  | done a => exact fun u hGood hNext => h u hGood (agreed.trans hRely hNext)
  | call request next => exact fun env u hGood hNext => h env u hGood (agreed.trans hRely hNext)

/-- One step of a guaranteed program. -/
theorem Program.Guaranteed.step {program : Program Reply α} {s : σ}
    (h : program.Guaranteed answer agreed guarantee post s) (hGood : agreed.good s)
    (hRefl : guarantee s s) (env : ε) :
    agreed.good (program.step answer env s).2 ∧ agreed.rely s (program.step answer env s).2 ∧
      guarantee s (program.step answer env s).2 ∧
      (program.step answer env s).1.Guaranteed answer agreed guarantee post
        (program.step answer env s).2 := by
  cases program with
  | done a => exact ⟨hGood, agreed.refl s, hRefl, h⟩
  | call request next => exact h env s hGood (agreed.refl s)

variable {guarantees : ι → σ → σ → Prop} {posts : ι → σ → α → Prop}

/-- The service is good, and every program is guaranteed from here. -/
structure Pool.Guaranteed (answer : ε → σ → (request : Request) → Reply request × σ)
    (agreed : Agreement σ) (guarantees : ι → σ → σ → Prop) (posts : ι → σ → α → Prop)
    (pool : Pool σ ι Reply α) : Prop where
  good : agreed.good pool.store
  refl : ∀ label s, guarantees label s s
  threads : ∀ t ∈ pool.threads,
    t.2.Guaranteed answer agreed (guarantees t.1) (posts t.1) pool.store

variable {pool : Pool σ ι Reply α}

/-- A step of the pool keeps all programs guaranteed, and stays within the agreement. -/
theorem Pool.Guaranteed.step (h : pool.Guaranteed answer agreed guarantees posts)
    (move : Nat × ε) :
    (pool.step answer move).Guaranteed answer agreed guarantees posts ∧
      agreed.rely pool.store (pool.step answer move).store ∧
      ∀ t, pool.threads[move.1]? = some t →
        guarantees t.1 pool.store (pool.step answer move).store := by
  unfold Pool.step
  cases hAt : pool.threads[move.1]? with
  | none => exact ⟨h, agreed.refl _, by simp⟩
  | some t =>
      obtain ⟨label, program⟩ := t
      obtain ⟨hGood, hRely, hOwn, hNext⟩ :=
        (h.threads _ (List.mem_of_getElem? hAt)).step h.good (h.refl _ _) move.2
      refine ⟨⟨hGood, h.refl, fun t ht => ?_⟩, hRely, ?_⟩
      · rcases List.mem_or_eq_of_mem_set ht with ht | rfl
        · exact (h.threads t ht).stable hRely
        · exact hNext
      · rintro t ht
        rw [← Option.some.inj ht]
        exact hOwn

/-- Whatever the interleaving. -/
theorem Pool.Guaranteed.run (h : pool.Guaranteed answer agreed guarantees posts)
    (moves : List (Nat × ε)) :
    (pool.run answer moves).Guaranteed answer agreed guarantees posts ∧
      agreed.rely pool.store (pool.run answer moves).store := by
  induction moves generalizing pool with
  | nil => exact ⟨h, agreed.refl _⟩
  | cons move rest ih =>
      obtain ⟨hNext, hFirst, -⟩ := h.step move
      obtain ⟨hEnd, hRest⟩ := ih hNext
      exact ⟨hEnd, agreed.trans hFirst hRest⟩

/-- What a program that is done has returned. -/
theorem Pool.Guaranteed.result (h : pool.Guaranteed answer agreed guarantees posts) {label : ι}
    {a : α} (hDone : (label, .done a) ∈ pool.threads) : posts label pool.store a :=
  h.threads _ hDone _ h.good (agreed.refl _)

end RelyGuarantee
end L0vi0x.Python
