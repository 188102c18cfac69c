import L0vi0x.Python.JsonRoundTrip

/-! The text with spaces after commas and colons is read back too, and what is read from
any text has its keys in order. -/
namespace L0vi0x.Python.Json

section Spaced

/-- A value begins neither with a space nor with a bracket. -/
theorem emitSpaced_head (j : Json) :
    ∃ c tail, emitSpaced j = c :: tail ∧ isJsonSpace c = false ∧ c ≠ ']' := by
  cases j with
  | arr items => exact ⟨_, _, rfl, by decide, by decide⟩
  | obj fields => exact ⟨_, _, rfl, by decide, by decide⟩
  | null => exact emit_head .null
  | bool b => exact emit_head (.bool b)
  | int i => exact emit_head (.int i)
  | float x => exact emit_head (.float x)
  | str s => exact emit_head (.str s)

theorem emitSpaced_length_pos (j : Json) : 0 < (emitSpaced j).length := by
  obtain ⟨c, tail, hHead, _⟩ := emitSpaced_head j
  simp [hHead]

/-- No value is written with a space at its head. -/
theorem skipSpace_emitSpaced (j : Json) (rest : List Char) :
    skipSpace (emitSpaced j ++ rest) = emitSpaced j ++ rest := by
  obtain ⟨c, tail, hHead, hSpace, _⟩ := emitSpaced_head j
  rw [hHead, List.cons_append, skipSpace_cons hSpace]

theorem skipSpace_blank (cs : List Char) : skipSpace (' ' :: cs) = skipSpace cs := rfl

theorem emitSpacedItems_ne_nil {items : List Json} (h : items ≠ []) :
    ∃ j more, items = j :: more ∧ ∃ tail, emitSpacedItems items = emitSpaced j ++ tail := by
  match items, h with
  | [j], _ => exact ⟨j, [], rfl, _, rfl⟩
  | j :: k :: more, _ => exact ⟨j, k :: more, rfl, _, rfl⟩

/-- No list of items is written with a space at its head. -/
theorem skipSpace_spacedItems {items : List Json} (h : items ≠ []) (rest : List Char) :
    skipSpace (emitSpacedItems items ++ rest) = emitSpacedItems items ++ rest := by
  obtain ⟨j, more, -, tail, hText⟩ := emitSpacedItems_ne_nil h
  rw [hText, List.append_assoc, skipSpace_emitSpaced]

/-- No list of fields is written with a space at its head. -/
theorem skipSpace_spacedFields {fields : Fields} (h : fields ≠ []) (rest : List Char) :
    skipSpace (emitSpacedFields fields ++ rest) = emitSpacedFields fields ++ rest := by
  match fields, h with
  | [(k, v)], _ => exact skipSpace_cons (c := '"') (by decide) _
  | (k, v) :: q :: more, _ => exact skipSpace_cons (c := '"') (by decide) _

def ReadsSpaced (j : Json) : Prop :=
  ∀ (fuel : Nat) (rest : List Char), (emitSpaced j).length ≤ fuel → StopsNumber rest →
    readValue fuel (emitSpaced j ++ rest) = some (j, rest)

/-- The items of an array are read back, each by its own round trip. -/
theorem readItems_spaced {items : List Json} (hItems : ∀ j ∈ items, ReadsSpaced j)
    (hNe : items ≠ []) {fuel : Nat} (hFuel : (emitSpacedItems items).length ≤ fuel)
    (rest : List Char) :
    readItems fuel (emitSpacedItems items ++ rest) = some (items, rest) := by
  induction items generalizing fuel with
  | nil => exact absurd rfl hNe
  | cons j more ih =>
      have hPos := emitSpaced_length_pos j
      have hFirst := hItems j (List.mem_cons_self ..)
      have hMore : ∀ k ∈ more, ReadsSpaced k := fun k hk => hItems k (List.mem_cons_of_mem _ hk)
      cases more with
      | nil =>
          simp only [emitSpacedItems, List.length_append, List.length_singleton] at hFuel
          obtain ⟨n, rfl⟩ := Nat.exists_eq_add_of_lt (Nat.lt_of_lt_of_le hPos (by omega : _ ≤ fuel))
          simp only [emitSpacedItems, List.append_assoc, Nat.zero_add, readItems]
          rw [hFirst n _ (by omega) (by exact rfl)]
          rfl
      | cons k more =>
          simp only [emitSpacedItems, List.length_append, List.length_cons] at hFuel
          obtain ⟨n, rfl⟩ := Nat.exists_eq_add_of_lt (Nat.lt_of_lt_of_le hPos (by omega : _ ≤ fuel))
          simp only [emitSpacedItems, List.append_assoc, Nat.zero_add, List.cons_append, readItems]
          rw [hFirst n _ (by omega) (by exact rfl)]
          simp only [Option.bind_eq_bind, Option.bind_some, skipSpace_cons (c := ',') (by decide),
            skipSpace_blank, skipSpace_spacedItems (List.cons_ne_nil k more)]
          rw [ih hMore (by simp) (by omega)]
          rfl

/-- The fields of an object are read back, each by its own round trip. -/
theorem readFields_spaced {fields : Fields} (hFields : ∀ p ∈ fields, ReadsSpaced p.2)
    (hNe : fields ≠ []) {fuel : Nat} (hFuel : (emitSpacedFields fields).length ≤ fuel)
    (rest : List Char) :
    readFields fuel (emitSpacedFields fields ++ rest) = some (fields, rest) := by
  induction fields generalizing fuel with
  | nil => exact absurd rfl hNe
  | cons p more ih =>
      obtain ⟨k, v⟩ := p
      have hPos := emitSpaced_length_pos v
      have hFirst : ReadsSpaced v := hFields (k, v) (List.mem_cons_self ..)
      have hMore : ∀ q ∈ more, ReadsSpaced q.2 := fun q hq => hFields q (List.mem_cons_of_mem _ hq)
      cases more with
      | nil =>
          simp only [emitSpacedFields, List.length_append, List.length_cons] at hFuel
          obtain ⟨n, rfl⟩ := Nat.exists_eq_add_of_lt (Nat.lt_of_lt_of_le hPos (by omega : _ ≤ fuel))
          simp only [emitSpacedFields, List.append_assoc, List.cons_append, Nat.zero_add] at hFuel ⊢
          rw [readFields_key k _ (by omega), skipSpace_blank, skipSpace_emitSpaced,
            hFirst n _ (by omega) (by exact rfl)]
          rfl
      | cons q more =>
          simp only [emitSpacedFields, List.length_append, List.length_cons] at hFuel
          obtain ⟨n, rfl⟩ := Nat.exists_eq_add_of_lt (Nat.lt_of_lt_of_le hPos (by omega : _ ≤ fuel))
          simp only [emitSpacedFields, List.append_assoc, List.cons_append, Nat.zero_add] at hFuel ⊢
          rw [readFields_key k _ (by omega), skipSpace_blank, skipSpace_emitSpaced,
            hFirst n _ (by omega) (by exact rfl)]
          simp only [Option.bind_some, skipSpace_cons (c := ',') (by decide), skipSpace_blank,
            skipSpace_spacedFields (List.cons_ne_nil q more)]
          rw [ih hMore (by simp) (by omega)]
          rfl

/-- Every normal value is read back, by induction on it. -/
theorem readsSpaced_of_normal (j : Json) : j.Normal → ReadsSpaced j := by
  induction j using Json.induction with
  | arr items ih =>
      intro hNormal fuel rest hFuel _
      have hItems : ∀ j ∈ items, ReadsSpaced j := fun j hj =>
        ih j hj (normalItems_iff.mp (by simpa [Normal] using hNormal) j hj)
      obtain ⟨n, rfl⟩ := Nat.exists_eq_add_of_le' (Nat.le_trans (emitSpaced_length_pos _) hFuel)
      simp only [emitSpaced, List.length_cons] at hFuel
      cases items with
      | nil => rfl
      | cons j more =>
          have hRead := readItems_spaced hItems (by simp) (Nat.le_of_succ_le_succ hFuel) rest
          obtain ⟨first, others, hItemsEq, tail, hText⟩ :=
            emitSpacedItems_ne_nil (List.cons_ne_nil j more)
          obtain ⟨c, more', hHead, hSpace, hBracket⟩ := emitSpaced_head first
          rw [hText, hHead] at hRead
          rw [emitSpaced, hText, hHead]
          simp only [List.cons_append] at hRead ⊢
          rw [readValue_array hSpace hBracket, hRead]
          rfl
  | obj fields ih =>
      intro hNormal fuel rest hFuel _
      simp only [Normal] at hNormal
      have hFields : ∀ p ∈ fields, ReadsSpaced p.2 := fun p hp =>
        ih p hp (normalFields_iff.mp hNormal.2 p hp)
      obtain ⟨n, rfl⟩ := Nat.exists_eq_add_of_le' (Nat.le_trans (emitSpaced_length_pos _) hFuel)
      simp only [emitSpaced, List.length_cons] at hFuel
      cases fields with
      | nil => rfl
      | cons p more =>
          have hRead := readFields_spaced hFields (by simp) (Nat.le_of_succ_le_succ hFuel) rest
          obtain ⟨tail, hText⟩ : ∃ tail, emitSpacedFields (p :: more) = '"' :: tail := by
            cases more <;> exact ⟨_, rfl⟩
          rw [hText] at hRead
          rw [emitSpaced, hText]
          simp only [List.cons_append] at hRead ⊢
          rw [readValue_object, hRead, Option.map_some]
          simp only [dictOf_of_sorted hNormal.1]
  | null => exact readsBack_of_normal .null
  | bool b => exact readsBack_of_normal (.bool b)
  | int i => exact readsBack_of_normal (.int i)
  | float x => exact readsBack_of_normal (.float x)
  | str s => exact readsBack_of_normal (.str s)

/-- `json.loads` reads back what `json.dumps` writes with its default separators. -/
theorem loads_dumpsSpaced {j : Json} (h : j.Normal) : loads (dumpsSpaced j) = .ok j := by
  have hRead := readsSpaced_of_normal j h ((emitSpaced j).length + 1) [] (by omega) trivial
  have hSpace := skipSpace_emitSpaced j []
  rw [List.append_nil] at hRead hSpace
  simp only [loads, dumpsSpaced, String.toList_ofList, hSpace, hRead]
  rfl

end Spaced

section Loaded

theorem readNumber_normal {token : List Char} {j : Json} (h : readNumber token = some j) :
    j.Normal := by
  unfold readNumber at h
  dsimp only at h
  split at h
  · split at h
    · cases h
      trivial
    · cases h
  · obtain ⟨x, -, rfl⟩ := Option.map_eq_some_iff.mp h
    trivial

/-- What each of the three readers returns for a given fuel is in normal form. -/
theorem read_normal (fuel : Nat) :
    (∀ {cs : List Char} {j : Json} {tail : List Char}, readValue fuel cs = some (j, tail) →
      j.Normal) ∧
    (∀ {cs : List Char} {items : List Json} {tail : List Char},
      readItems fuel cs = some (items, tail) → ∀ j ∈ items, j.Normal) ∧
    (∀ {cs : List Char} {fields : Fields} {tail : List Char},
      readFields fuel cs = some (fields, tail) → ∀ p ∈ fields, p.2.Normal) := by
  induction fuel with
  | zero => exact ⟨fun h => (nomatch h), fun h => (nomatch h), fun h => (nomatch h)⟩
  | succ fuel ih =>
      obtain ⟨ihValue, ihItems, ihFields⟩ := ih
      refine ⟨fun {cs j tail} h => ?_, fun {cs items tail} h => ?_, fun {cs fields tail} h => ?_⟩
      · rw [readValue.eq_def] at h
        dsimp only at h
        split at h
        · obtain ⟨_, -, hEq⟩ := Option.map_eq_some_iff.mp h
          cases hEq
          trivial
        · split at h
          · cases h
            exact ⟨.nil, trivial⟩
          · obtain ⟨⟨fields, _⟩, hFields, hEq⟩ := Option.map_eq_some_iff.mp h
            cases hEq
            exact normal_dictOf (ihFields hFields)
        · split at h
          · cases h
            trivial
          · obtain ⟨⟨items, _⟩, hItems, hEq⟩ := Option.map_eq_some_iff.mp h
            cases hEq
            exact normalItems_iff.mpr (ihItems hItems)
        · cases h
          trivial
        · cases h
          trivial
        · cases h
          trivial
        · cases h
          trivial
        · cases h
          trivial
        · cases h
          trivial
        · obtain ⟨k, hNumber, hEq⟩ := Option.map_eq_some_iff.mp h
          cases hEq
          exact readNumber_normal hNumber
      · rw [readItems, Option.bind_eq_bind, Option.bind_eq_some_iff] at h
        obtain ⟨⟨first, rest⟩, hFirst, h⟩ := h
        dsimp only at h
        split at h
        · cases h
          simpa using ihValue hFirst
        · rw [Option.bind_eq_bind, Option.bind_eq_some_iff] at h
          obtain ⟨⟨more, _⟩, hMore, h⟩ := h
          cases h
          rw [List.forall_mem_cons]
          exact ⟨ihValue hFirst, ihItems hMore⟩
        · cases h
      · rw [readFields.eq_def] at h
        dsimp only at h
        split at h
        · rw [Option.bind_eq_bind, Option.bind_eq_some_iff] at h
          obtain ⟨⟨key, rest⟩, -, h⟩ := h
          dsimp only at h
          split at h
          · rw [Option.bind_eq_bind, Option.bind_eq_some_iff] at h
            obtain ⟨⟨value, rest⟩, hValue, h⟩ := h
            dsimp only at h
            split at h
            · cases h
              simpa using ihValue hValue
            · rw [Option.bind_eq_bind, Option.bind_eq_some_iff] at h
              obtain ⟨⟨more, _⟩, hMore, h⟩ := h
              cases h
              rw [List.forall_mem_cons]
              exact ⟨ihValue hValue, ihFields hMore⟩
            · cases h
          · cases h
        · cases h

/-- What is read from a text is in normal form. -/
theorem loads_normal {s : String} {j : Json} (h : loads s = .ok j) : j.Normal := by
  unfold loads at h
  dsimp only at h
  split at h
  · rename_i value rest hValue
    split at h
    · rw [pure_eq_ok] at h
      rw [← h]
      exact (read_normal _).1 hValue
    · rw [raise_ne_ok] at h
      exact h.elim
  · rw [raise_ne_ok] at h
    exact h.elim

end Loaded
end L0vi0x.Python.Json
