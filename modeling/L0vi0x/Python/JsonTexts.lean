import L0vi0x.Python.Json

/-! The texts of a value: a pass that changes each of them and hides the values of some
keys, what holds of every text, and two values that differ in their texts alone. -/
namespace L0vi0x.Python

theorem returns_map {α β : Type} {f : α → β} {call : Py α} :
    returns (f <$> call) ↔ returns call := by
  cases call with
  | ok a => exact ⟨fun _ => ⟨a, rfl⟩, fun _ => ⟨f a, rfl⟩⟩
  | error e =>
      exact ⟨fun h => absurd h (not_returns_error e), fun h => absurd h (not_returns_error e)⟩

theorem returns_cons {α : Type} {first : Py α} {more : Py (List α)} :
    returns (do
      let a ← first
      let as ← more
      pure (a :: as)) ↔ returns first ∧ returns more := by
  cases first with
  | error e =>
      exact ⟨fun h => absurd h (not_returns_error e), fun h => absurd h.1 (not_returns_error e)⟩
  | ok a => cases more with
    | error e =>
        exact ⟨fun h => absurd h (not_returns_error e), fun h => absurd h.2 (not_returns_error e)⟩
    | ok as => exact ⟨fun _ => ⟨⟨a, rfl⟩, as, rfl⟩, fun _ => ⟨a :: as, rfl⟩⟩

/-- A list that is computed has its first item and the rest. -/
theorem cons_eq_ok {α : Type} {first : Py α} {more : Py (List α)} {result : List α} :
    (do
      let a ← first
      let as ← more
      pure (a :: as)) = .ok result ↔ ∃ a as, first = .ok a ∧ more = .ok as ∧ result = a :: as := by
  rw [bind_eq_ok]
  constructor
  · rintro ⟨a, hFirst, h⟩
    rw [bind_eq_ok] at h
    obtain ⟨as, hMore, h⟩ := h
    rw [pure_eq_ok] at h
    exact ⟨a, as, hFirst, hMore, h.symm⟩
  · rintro ⟨a, as, hFirst, hMore, rfl⟩
    exact ⟨a, hFirst, bind_eq_ok.mpr ⟨as, hMore, rfl⟩⟩

namespace Json

variable (hide : String → Bool) (mark : Json) (f : String → Py String)

mutual
/-- Each text through `f`, and `mark` for the value of each hidden key. -/
def mapTexts : Json → Py Json
  | .obj fields => Json.obj <$> mapFieldTexts fields
  | .arr items => Json.arr <$> mapItemTexts items
  | .str s => Json.str <$> f s
  | .null => pure .null
  | .bool b => pure (.bool b)
  | .int i => pure (.int i)
  | .float x => pure (.float x)

def mapItemTexts : List Json → Py (List Json)
  | [] => pure []
  | j :: rest => do
      let first ← mapTexts j
      let more ← mapItemTexts rest
      pure (first :: more)

def mapFieldTexts : Fields → Py Fields
  | [] => pure []
  | (k, v) :: rest => do
      let first ← Prod.mk k <$> (if hide k then pure mark else mapTexts v)
      let more ← mapFieldTexts rest
      pure (first :: more)
end

section Every

variable (p : String → Prop)

mutual
/-- Every text that is not below a hidden key has the property. -/
def EveryText : Json → Prop
  | .obj fields => EveryFieldText fields
  | .arr items => EveryItemText items
  | .str s => p s
  | .null | .bool _ | .int _ | .float _ => True

def EveryItemText : List Json → Prop
  | [] => True
  | j :: rest => EveryText j ∧ EveryItemText rest

def EveryFieldText : Fields → Prop
  | [] => True
  | (k, v) :: rest => (hide k = true ∨ EveryText v) ∧ EveryFieldText rest
end

end Every

variable {hide mark f}

/-- The pass returns just when it does on every text that is shown. -/
theorem returns_mapTexts (j : Json) :
    returns (mapTexts hide mark f j) ↔ EveryText hide (fun s => returns (f s)) j := by
  induction j using Json.induction with
  | str s =>
      rw [mapTexts, EveryText, returns_map]
  | arr items ih =>
      rw [mapTexts, EveryText, returns_map]
      induction items with
      | nil => exact ⟨fun _ => trivial, fun _ => ⟨[], rfl⟩⟩
      | cons j rest ihRest =>
          rw [List.forall_mem_cons] at ih
          rw [mapItemTexts, EveryItemText, returns_cons, ih.1, ihRest ih.2]
  | obj fields ih =>
      rw [mapTexts, EveryText, returns_map]
      induction fields with
      | nil => exact ⟨fun _ => trivial, fun _ => ⟨[], rfl⟩⟩
      | cons q rest ihRest =>
          obtain ⟨k, v⟩ := q
          rw [List.forall_mem_cons] at ih
          rw [mapFieldTexts, EveryFieldText, returns_cons, returns_map, ihRest ih.2]
          refine and_congr_left fun _ => ?_
          split
          · rename_i hHidden
            exact ⟨fun _ => .inl hHidden, fun _ => ⟨_, rfl⟩⟩
          · rename_i hShown
            rw [ih.1]
            exact ⟨.inr, fun h => h.resolve_left hShown⟩
  | null => exact ⟨fun _ => trivial, fun _ => ⟨_, rfl⟩⟩
  | bool b => exact ⟨fun _ => trivial, fun _ => ⟨_, rfl⟩⟩
  | int i => exact ⟨fun _ => trivial, fun _ => ⟨_, rfl⟩⟩
  | float x => exact ⟨fun _ => trivial, fun _ => ⟨_, rfl⟩⟩

section Agree

variable (skip : String → Bool) (r : String → String → Prop)

mutual
/-- Two values that are equal but for their texts, which are related, and for what is
below the skipped keys. -/
def Agree : Json → Json → Prop
  | .obj xs, .obj ys => AgreeFields xs ys
  | .arr xs, .arr ys => AgreeItems xs ys
  | .str s, .str t => r s t
  | .null, .null => True
  | .bool a, .bool b => a = b
  | .int a, .int b => a = b
  | .float a, .float b => a = b
  | _, _ => False

def AgreeItems : List Json → List Json → Prop
  | [], [] => True
  | j :: xs, k :: ys => Agree j k ∧ AgreeItems xs ys
  | _, _ => False

def AgreeFields : Fields → Fields → Prop
  | [], [] => True
  | (k, v) :: xs, (l, w) :: ys => k = l ∧ (skip k = true ∨ Agree v w) ∧ AgreeFields xs ys
  | _, _ => False
end

/-- Two texts that the pass does not tell apart. -/
def SameText (f : String → Py String) (s t : String) : Prop :=
  ∀ a b, f s = .ok a → f t = .ok b → a = b

variable {r}

/-- Two texts are mapped alike when the pass does not tell them apart. -/
theorem mapTexts_eq_iff_of_str {s t : String} {v w : Json}
    (hv : mapTexts hide mark f (.str s) = .ok v) (hw : mapTexts hide mark f (.str t) = .ok w) :
    v = w ↔ SameText f s t := by
  rw [mapTexts, map_eq_ok] at hv hw
  obtain ⟨a, ha, rfl⟩ := hv
  obtain ⟨b, hb, rfl⟩ := hw
  rw [Json.str.injEq]
  constructor
  · rintro rfl a' b' ha' hb'
    rw [← Except.ok.inj (ha.symm.trans ha'), ← Except.ok.inj (hb.symm.trans hb')]
  · exact fun h => h a b ha hb

/-- Two values that differ in their texts alone come out the same just when the pass
tells no two of their shown texts apart. -/
theorem mapTexts_eq_iff {q : String → String → Prop} (hq : ∀ s t, r s t → (SameText f s t ↔ q s t))
    (j : Json) : ∀ {k v w : Json}, Agree (fun _ => false) r j k →
    mapTexts hide mark f j = .ok v → mapTexts hide mark f k = .ok w →
    (v = w ↔ Agree hide q j k) := by
  induction j using Json.induction with
  | str s =>
      intro k v w hAgree hv hw
      cases k with
      | str t => exact (mapTexts_eq_iff_of_str hv hw).trans (hq s t hAgree)
      | _ => exact hAgree.elim
  | arr xs ih =>
      intro k v w hAgree hv hw
      cases k with
      | arr ys =>
          rw [mapTexts, map_eq_ok] at hv hw
          obtain ⟨vs, hvs, rfl⟩ := hv
          obtain ⟨ws, hws, rfl⟩ := hw
          rw [Json.arr.injEq]
          rw [Agree] at hAgree ⊢
          induction xs generalizing ys vs ws with
          | nil =>
              cases ys with
              | nil =>
                  rw [mapItemTexts, pure_eq_ok] at hvs hws
                  rw [← hvs, ← hws]
                  exact ⟨fun _ => trivial, fun _ => rfl⟩
              | cons k ys => exact hAgree.elim
          | cons j xs ihRest =>
              cases ys with
              | nil => exact hAgree.elim
              | cons k ys =>
                  rw [List.forall_mem_cons] at ih
                  rw [mapItemTexts, cons_eq_ok] at hvs hws
                  obtain ⟨a, as, ha, has, rfl⟩ := hvs
                  obtain ⟨b, bs, hb, hbs, rfl⟩ := hws
                  rw [AgreeItems, List.cons.injEq, ih.1 hAgree.1 ha hb,
                    ihRest ih.2 _ hAgree.2 _ has _ hbs]
      | _ => exact hAgree.elim
  | obj xs ih =>
      intro k v w hAgree hv hw
      cases k with
      | obj ys =>
          rw [mapTexts, map_eq_ok] at hv hw
          obtain ⟨vs, hvs, rfl⟩ := hv
          obtain ⟨ws, hws, rfl⟩ := hw
          rw [Json.obj.injEq]
          rw [Agree] at hAgree ⊢
          induction xs generalizing ys vs ws with
          | nil =>
              cases ys with
              | nil =>
                  rw [mapFieldTexts, pure_eq_ok] at hvs hws
                  rw [← hvs, ← hws]
                  exact ⟨fun _ => trivial, fun _ => rfl⟩
              | cons k ys => exact hAgree.elim
          | cons q xs ihRest =>
              obtain ⟨key, j⟩ := q
              cases ys with
              | nil => exact hAgree.elim
              | cons q ys =>
                  obtain ⟨other, k⟩ := q
                  rw [List.forall_mem_cons] at ih
                  obtain ⟨rfl, hFirst, hRest⟩ := hAgree
                  have hFirst : Agree (fun _ => false) r j k := hFirst.resolve_left Bool.false_ne_true
                  rw [mapFieldTexts, cons_eq_ok] at hvs hws
                  obtain ⟨a, as, ha, has, rfl⟩ := hvs
                  obtain ⟨b, bs, hb, hbs, rfl⟩ := hws
                  rw [map_eq_ok] at ha hb
                  obtain ⟨a, ha, rfl⟩ := ha
                  obtain ⟨b, hb, rfl⟩ := hb
                  rw [AgreeFields, List.cons.injEq, ihRest ih.2 _ hRest _ has _ hbs, Prod.mk.injEq]
                  simp only [true_and]
                  refine and_congr_left fun _ => ?_
                  by_cases hHidden : hide key = true
                  · rw [if_pos hHidden, pure_eq_ok] at ha hb
                    rw [← ha, ← hb]
                    exact ⟨fun _ => .inl hHidden, fun _ => rfl⟩
                  · rw [if_neg hHidden] at ha hb
                    rw [ih.1 hFirst ha hb]
                    exact ⟨.inr, fun h => h.resolve_left hHidden⟩
      | _ => exact hAgree.elim
  | null =>
      intro k v w hAgree hv hw
      cases k with
      | null =>
          cases hv
          cases hw
          exact ⟨fun _ => trivial, fun _ => rfl⟩
      | _ => exact hAgree.elim
  | bool b =>
      intro k v w hAgree hv hw
      cases k with
      | bool c =>
          cases hv
          cases hw
          exact ⟨fun _ => hAgree, fun _ => congrArg Json.bool hAgree⟩
      | _ => exact hAgree.elim
  | int i =>
      intro k v w hAgree hv hw
      cases k with
      | int c =>
          cases hv
          cases hw
          exact ⟨fun _ => hAgree, fun _ => congrArg Json.int hAgree⟩
      | _ => exact hAgree.elim
  | float x =>
      intro k v w hAgree hv hw
      cases k with
      | float c =>
          cases hv
          cases hw
          exact ⟨fun _ => hAgree, fun _ => congrArg Json.float hAgree⟩
      | _ => exact hAgree.elim

/-- Fewer values are compared below hidden keys. -/
theorem Agree.below (hide : String → Bool) {j : Json} : ∀ {k : Json}, Agree (fun _ => false) r j k →
    Agree hide r j k := by
  induction j using Json.induction with
  | arr xs ih =>
      intro k h
      cases k with
      | arr ys =>
          rw [Agree] at h ⊢
          induction xs generalizing ys with
          | nil => cases ys <;> exact h
          | cons j xs ihRest =>
              cases ys with
              | nil => exact h
              | cons k ys =>
                  rw [List.forall_mem_cons] at ih
                  exact ⟨ih.1 h.1, ihRest ih.2 _ h.2⟩
      | _ => exact h
  | obj xs ih =>
      intro k h
      cases k with
      | obj ys =>
          rw [Agree] at h ⊢
          induction xs generalizing ys with
          | nil => cases ys <;> exact h
          | cons q xs ihRest =>
              cases ys with
              | nil => exact h
              | cons q' ys =>
                  rw [List.forall_mem_cons] at ih
                  exact ⟨h.1, .inr (ih.1 (h.2.1.resolve_left Bool.false_ne_true)),
                    ihRest ih.2 _ h.2.2⟩
      | _ => exact h
  | _ =>
      intro k h
      cases k <;> exact h

/-- A property that related texts share is shared by all texts of two values. -/
theorem Agree.everyText_iff {p : String → Prop} (hp : ∀ s t, r s t → (p s ↔ p t)) {j : Json} :
    ∀ {k : Json}, Agree (fun _ => false) r j k →
      (EveryText hide p j ↔ EveryText hide p k) := by
  induction j using Json.induction with
  | str s =>
      intro k h
      cases k with
      | str t => exact hp s t h
      | _ => exact h.elim
  | arr xs ih =>
      intro k h
      cases k with
      | arr ys =>
          rw [Agree] at h
          rw [EveryText, EveryText]
          induction xs generalizing ys with
          | nil => cases ys with
            | nil => rfl
            | cons k ys => exact h.elim
          | cons j xs ihRest =>
              cases ys with
              | nil => exact h.elim
              | cons k ys =>
                  rw [List.forall_mem_cons] at ih
                  rw [EveryItemText, EveryItemText, ih.1 h.1, ihRest ih.2 _ h.2]
      | _ => exact h.elim
  | obj xs ih =>
      intro k h
      cases k with
      | obj ys =>
          rw [Agree] at h
          rw [EveryText, EveryText]
          induction xs generalizing ys with
          | nil => cases ys with
            | nil => rfl
            | cons k ys => exact h.elim
          | cons q xs ihRest =>
              cases ys with
              | nil => exact h.elim
              | cons q' ys =>
                  obtain ⟨key, j⟩ := q
                  obtain ⟨other, k⟩ := q'
                  rw [List.forall_mem_cons] at ih
                  obtain ⟨rfl, hFirst, hRest⟩ := h
                  rw [EveryFieldText, EveryFieldText,
                    ih.1 (hFirst.resolve_left Bool.false_ne_true), ihRest ih.2 _ hRest]
      | _ => exact h.elim
  | _ =>
      intro k h
      cases k <;> first | exact Iff.rfl | exact h.elim

end Agree
end Json
end L0vi0x.Python
