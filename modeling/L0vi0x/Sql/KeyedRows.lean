import L0vi0x.Sql.Value

/-! Lists of rows as finite maps. The row of a key is the first one that has it; a log of
assignments gives a key what it was last assigned, and a table follows a log when its rows
agree for each key with what the log gives. -/
namespace L0vi0x.Sql

section Rows

variable {ρ κ : Type} [DecidableEq κ] (key : ρ → κ)

/-- The row of a key. -/
def rowOf (rows : List ρ) (k : κ) : Option ρ := rows.find? fun row => key row = k

variable {key} {rows : List ρ} {new : ρ} {k : κ}

/-- A new row is that of its key, and leaves the others. -/
theorem rowOf_append (hNone : rows.findIdx? (fun row => key row = key new) = none) :
    rowOf key (rows ++ [new]) k = if k = key new then some new else rowOf key rows k := by
  rw [List.findIdx?_eq_none_iff] at hNone
  rw [rowOf, List.find?_append]
  by_cases hKey : k = key new
  · subst hKey
    have hMissing : rows.find? (fun row => key row = key new) = none := by
      rw [List.find?_eq_none]
      intro row hRow
      simpa using hNone row hRow
    rw [hMissing, if_pos rfl]
    simp
  · have hOther : [new].find? (fun row => key row = k) = none := by
      simpa using fun h => hKey h.symm
    rw [hOther, Option.or_none, if_neg hKey]
    rfl

/-- An assigned row is that of its key, and leaves the others. -/
theorem rowOf_set {i : Nat} (hFind : rows.findIdx? (fun row => key row = key new) = some i) :
    rowOf key (rows.set i new) k = if k = key new then some new else rowOf key rows k := by
  induction rows generalizing i with
  | nil => cases hFind
  | cons row rest ih =>
      rw [List.findIdx?_cons] at hFind
      by_cases hRow : key row = key new
      · rw [if_pos (by simpa using hRow), Option.some.injEq] at hFind
        subst hFind
        by_cases hKey : k = key new
        · simp [rowOf, hKey]
        · have hNot : key new ≠ k := fun h => hKey h.symm
          simp [rowOf, hKey, hNot, hRow]
      · rw [if_neg (by simpa using hRow), Option.map_eq_some_iff] at hFind
        obtain ⟨j, hRest, rfl⟩ := hFind
        have hTail := ih hRest
        rw [List.set_cons_succ]
        by_cases hHead : key row = k
        · have hKey : k ≠ key new := fun h => hRow (hHead.trans h)
          simp [rowOf, hHead, hKey]
        · simpa [rowOf, hHead] using hTail

end Rows

section Log

variable {κ ν : Type} [DecidableEq κ]

/-- What a log last assigned to a key. -/
def latest (log : List (κ × ν)) (k : κ) : Option ν :=
  (log.reverse.find? fun entry => entry.1 = k).map Prod.snd

@[simp] theorem latest_nil (k : κ) : latest ([] : List (κ × ν)) k = none := rfl

/-- What a log last assigned is its last entry for the key. -/
theorem latest_concat (log : List (κ × ν)) (entry : κ × ν) (k : κ) :
    latest (log ++ [entry]) k = if k = entry.1 then some entry.2 else latest log k := by
  rw [latest, List.reverse_append, List.reverse_singleton, List.singleton_append]
  by_cases h : entry.1 = k
  · simp [h]
  · have hNot : k ≠ entry.1 := fun hk => h hk.symm
    simp [h, hNot, latest]

end Log

section Writes

variable {ρ : Type} {key : ρ → Value} {id : String} {rows after : List ρ} {new old : ρ}

/-- The rows of a table after a write to one id: its row is new, or it is the only row of
that id that was there. -/
inductive OneRow (key : ρ → Value) (id : String) (new : ρ) (rows : List ρ) : List ρ → Prop where
  | inserted (hKey : key new = .text id) (hNone : ∀ row ∈ rows, key row ≠ .text id) :
      OneRow key id new rows (rows ++ [new])
  | changed (i : Nat) (old : ρ) (hKey : key new = .text id) (hAt : rows[i]? = some old)
      (hOld : key old = .text id)
      (hOnly : ∀ (j : Nat) (row : ρ), rows[j]? = some row → key row = .text id → j = i) :
      OneRow key id new rows (rows.set i new)

/-- Among distinct ids, the id of the last row is that of no other. -/
theorem absent_of_distinct (hKey : key new = .text id)
    (hUnique : (((rows ++ [new]).map key).filter (· ≠ .null)).Nodup) :
    ∀ row ∈ rows, key row ≠ .text id := by
  intro row hRow hId
  rw [List.map_append, List.filter_append, List.nodup_append] at hUnique
  refine hUnique.2.2 (.text id) ?_ (.text id) ?_ rfl
  · exact List.mem_filter.mpr ⟨hId ▸ List.mem_map_of_mem hRow, by simp⟩
  · exact List.mem_filter.mpr ⟨by simp [hKey], by simp⟩

theorem oneRow_append (hKey : key new = .text id)
    (hUnique : (((rows ++ [new]).map key).filter (· ≠ .null)).Nodup) :
    OneRow key id new rows (rows ++ [new]) :=
  .inserted hKey (absent_of_distinct hKey hUnique)

/-- Two places of a list of distinct values hold the same text only if they are the same. -/
theorem place_unique {values : List Value} (s : String) (h : (values.filter (· ≠ .null)).Nodup)
    {i j : Nat} (hi : values[i]? = some (.text s)) (hj : values[j]? = some (.text s)) : j = i := by
  induction values generalizing i j with
  | nil => cases hi
  | cons v rest ih =>
      have hTail : (rest.filter (· ≠ .null)).Nodup :=
        h.sublist ((List.sublist_cons_self v rest).filter _)
      have hAbsent : v = .text s → .text s ∉ rest := by
        rintro rfl hMem
        have hKept : (decide (Value.text s ≠ .null)) = true := by simp
        rw [List.filter_cons, if_pos hKept] at h
        exact (List.nodup_cons.mp h).1 (List.mem_filter.mpr ⟨hMem, hKept⟩)
      cases i with
      | zero =>
          cases j with
          | zero => rfl
          | succ j =>
              have hHead : v = .text s := by simpa using hi
              exact absurd (List.mem_of_getElem? (by simpa using hj)) (hAbsent hHead)
      | succ i =>
          cases j with
          | zero =>
              have hHead : v = .text s := by simpa using hj
              exact absurd (List.mem_of_getElem? (by simpa using hi)) (hAbsent hHead)
          | succ j =>
              have hPlace : j = i := ih hTail (by simpa using hi) (by simpa using hj)
              rw [hPlace]

/-- Assigning a row writes one id. -/
theorem oneRow_set {i : Nat} (hAt : rows[i]? = some old) (hOld : key old = .text id)
    (hKey : key new = .text id)
    (hUnique : (((rows.set i new).map key).filter (· ≠ .null)).Nodup) :
    OneRow key id new rows (rows.set i new) := by
  have hLt := (List.getElem?_eq_some_iff.mp hAt).1
  refine .changed i old hKey hAt hOld fun j row hRow hId => ?_
  by_contra hNe
  refine hNe (place_unique id hUnique ?_ ?_)
  · rw [List.getElem?_map, List.getElem?_set_self hLt, Option.map_some, hKey]
  · rw [List.getElem?_map, List.getElem?_set_ne (fun h => hNe h.symm), hRow, Option.map_some, hId]

/-- After a write to one id its row is the new one, and the rows of other ids are as before. -/
theorem OneRow.rowOf (h : OneRow key id new rows after) (k : String) :
    Sql.rowOf key after (.text k) =
      if k = id then some new else Sql.rowOf key rows (.text k) := by
  have hText : (Value.text k = key new) = (k = id) → ∀ {found : Option ρ},
      (if Value.text k = key new then some new else found) =
        if k = id then some new else found := by
    intro hSame found
    simp only [hSame]
  cases h with
  | inserted hKey hNone =>
      have hMissing : rows.findIdx? (fun row => key row = key new) = none := by
        rw [List.findIdx?_eq_none_iff, hKey]
        intro row hRow
        simpa using hNone row hRow
      rw [rowOf_append hMissing]
      exact hText (by simp [hKey])
  | changed i old hKey hAt hOld hOnly =>
      have hFirst : rows.findIdx? (fun row => key row = key new) = some i := by
        obtain ⟨hLt, rfl⟩ := List.getElem?_eq_some_iff.mp hAt
        rw [List.findIdx?_eq_some_iff_getElem]
        refine ⟨hLt, by simp [hOld, hKey], fun j hj => ?_⟩
        have hOther := hOnly j rows[j] (List.getElem?_eq_getElem (by omega))
        rw [hKey]
        simpa using fun h => absurd (hOther h) (by omega)
      rw [rowOf_set hFirst]
      exact hText (by simp [hKey])

end Writes

section Follows

variable {ρ ν : Type} {key : ρ → Value} {shows : ρ → ν → Prop} {rows after : List ρ}
  {log : List (String × ν)} {id : String} {new : ρ} {value : ν}

/-- The rows have distinct ids, and for every id the row shows what the log gives, or there is
none where it gives nothing. -/
structure Follows (key : ρ → Value) (shows : ρ → ν → Prop) (rows : List ρ)
    (log : List (String × ν)) : Prop where
  distinct : (rows.map key).Nodup
  texts : ∀ row ∈ rows, ∃ id, key row = .text id
  agrees : ∀ id, Option.Rel shows (rowOf key rows (.text id)) (latest log id)

theorem follows_nil : Follows key shows [] ([] : List (String × ν)) where
  distinct := List.nodup_nil
  texts := by simp
  agrees := fun _ => .none

/-- Writing one id keeps the ids distinct. -/
theorem OneRow.distinct (h : OneRow key id new rows after) (hDistinct : (rows.map key).Nodup) :
    (after.map key).Nodup := by
  cases h with
  | inserted hKey hNone =>
      rw [List.map_append, List.map_singleton, hKey, List.nodup_append]
      refine ⟨hDistinct, by simp, fun v hv w hw hEq => ?_⟩
      obtain ⟨row, hRow, rfl⟩ := List.mem_map.mp hv
      rw [List.mem_singleton.mp hw] at hEq
      exact hNone row hRow hEq
  | changed i old hKey hAt hOld hOnly =>
      have hSame : (rows.set i new).map key = rows.map key := by
        obtain ⟨hLt, rfl⟩ := List.getElem?_eq_some_iff.mp hAt
        rw [List.map_set, hKey, ← hOld, ← List.map_set, List.set_getElem_self]
      rw [hSame]
      exact hDistinct

/-- What holds of the rows and of the new row holds after the write. -/
theorem OneRow.all {good : ρ → Prop} (h : OneRow key id new rows after)
    (hRows : ∀ row ∈ rows, good row) (hNew : good new) : ∀ row ∈ after, good row := by
  cases h with
  | inserted hKey hNone =>
      intro row hRow
      rcases List.mem_append.mp hRow with hRow | hRow
      · exact hRows row hRow
      · exact List.mem_singleton.mp hRow ▸ hNew
  | changed i old hKey hAt hOld hOnly =>
      intro row hRow
      rcases List.mem_or_eq_of_mem_set hRow with hRow | rfl
      · exact hRows row hRow
      · exact hNew

theorem OneRow.key_eq (h : OneRow key id new rows after) : key new = .text id := by
  cases h with
  | inserted hKey _ => exact hKey
  | changed _ _ hKey _ _ _ => exact hKey

/-- A write that is logged keeps the table on its log. -/
theorem Follows.write (h : Follows key shows rows log) (hRow : OneRow key id new rows after)
    (hShows : shows new value) : Follows key shows after (log ++ [(id, value)]) := by
  refine ⟨hRow.distinct h.distinct, hRow.all h.texts ⟨id, hRow.key_eq⟩, fun k => ?_⟩
  rw [hRow.rowOf, latest_concat]
  by_cases hKey : k = id
  · rw [if_pos hKey, if_pos hKey]
    exact .some hShows
  · rw [if_neg hKey, if_neg hKey]
    exact h.agrees k

end Follows
end L0vi0x.Sql
