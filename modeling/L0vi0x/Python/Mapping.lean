import Mathlib.Data.List.Basic
import Mathlib.Data.List.Induction
import Mathlib.Data.List.Nodup

/-! Mappings as lists of items. An assignment changes the item of a key where it stands, and
a comprehension assigns one key after the other. -/
namespace L0vi0x.Python.Mapping

variable {κ α β : Type} [DecidableEq κ]

/-- `mapping[key] = value`. -/
def assign (key : κ) (value : α) : List (κ × α) → List (κ × α)
  | [] => [(key, value)]
  | (k, v) :: rest => if key = k then (key, value) :: rest else (k, v) :: assign key value rest

/-- `{key(x): value(x) for x in xs}`. -/
def collect (item : β → κ × α) (xs : List β) : List (κ × α) :=
  xs.foldl (fun mapping x => assign (item x).1 (item x).2 mapping) []

def get? (key : κ) (mapping : List (κ × α)) : Option α :=
  (mapping.find? fun p => p.1 = key).map (·.2)

theorem mem_keys_assign {key k : κ} {value : α} {mapping : List (κ × α)} :
    k ∈ (assign key value mapping).map (·.1) ↔ k = key ∨ k ∈ mapping.map (·.1) := by
  induction mapping with
  | nil => simp [assign]
  | cons p rest ih =>
      rw [assign]
      split
      · next hKey => simp [hKey]
      · rw [List.map_cons, List.mem_cons, ih, List.map_cons, List.mem_cons]
        exact or_left_comm

/-- An assignment keeps the keys apart. -/
theorem nodup_assign {key : κ} {value : α} {mapping : List (κ × α)}
    (h : (mapping.map (·.1)).Nodup) : ((assign key value mapping).map (·.1)).Nodup := by
  induction mapping with
  | nil => simp [assign]
  | cons p rest ih =>
      rw [List.map_cons, List.nodup_cons] at h
      rw [assign]
      split
      · next hKey => exact List.nodup_cons.mpr ⟨hKey ▸ h.1, h.2⟩
      · next hKey =>
          refine List.nodup_cons.mpr ⟨fun hMem => ?_, ih h.2⟩
          exact (mem_keys_assign.mp hMem).elim (fun hEq => hKey hEq.symm) h.1

/-- An assignment changes the item of its key only. -/
theorem mem_assign {key : κ} {value : α} {mapping : List (κ × α)} {p : κ × α}
    (h : (mapping.map (·.1)).Nodup) :
    p ∈ assign key value mapping ↔ p = (key, value) ∨ p ∈ mapping ∧ p.1 ≠ key := by
  induction mapping with
  | nil => simp [assign]
  | cons q rest ih =>
      rw [List.map_cons, List.nodup_cons] at h
      have hOther : ∀ {k : κ}, k = q.1 → p ∈ rest → p.1 ≠ k := fun hk hMem hEq =>
        h.1 (List.mem_map.mpr ⟨p, hMem, hEq.trans hk⟩)
      rw [assign]
      split
      · next hKey =>
          rw [List.mem_cons, List.mem_cons, or_and_right]
          refine or_congr_right ⟨fun hMem => .inr ⟨hMem, hOther hKey hMem⟩, ?_⟩
          rintro (⟨rfl, hNe⟩ | ⟨hMem, -⟩)
          · exact absurd hKey.symm hNe
          · exact hMem
      · next hKey =>
          rw [List.mem_cons, ih h.2, List.mem_cons, or_and_right, or_left_comm]
          refine or_congr_right (or_congr_left ⟨?_, And.left⟩)
          rintro rfl
          exact ⟨rfl, Ne.symm hKey⟩

/-- The last item is assigned to what the others collect. -/
theorem collect_snoc (item : β → κ × α) (xs : List β) (x : β) :
    collect item (xs ++ [x]) = assign (item x).1 (item x).2 (collect item xs) := by
  rw [collect, List.foldl_append]
  rfl

/-- What is collected has distinct keys. -/
theorem nodup_collect (item : β → κ × α) (xs : List β) :
    ((collect item xs).map (·.1)).Nodup := by
  induction xs using List.reverseRecOn with
  | nil => exact List.nodup_nil
  | append_singleton xs x ih =>
      rw [collect_snoc]
      exact nodup_assign ih

/-- The last assignment to the key of an item is the one that stands. -/
theorem mem_collect_snoc {item : β → κ × α} {xs : List β} {x : β} {p : κ × α} :
    p ∈ collect item (xs ++ [x]) ↔ p = item x ∨ p ∈ collect item xs ∧ p.1 ≠ (item x).1 := by
  rw [collect_snoc, mem_assign (nodup_collect item xs)]

/-- The items of a comprehension are those that no later one replaces. -/
theorem mem_collect_iff {item : β → κ × α} {xs : List β} {p : κ × α} :
    p ∈ collect item xs ↔
      ∃ before x after, xs = before ++ x :: after ∧ item x = p ∧ ∀ y ∈ after, (item y).1 ≠ p.1 := by
  induction xs using List.reverseRecOn with
  | nil => simp [collect]
  | append_singleton xs x ih =>
      rw [mem_collect_snoc, ih]
      constructor
      · rintro (rfl | ⟨⟨before, y, after, rfl, rfl, hAfter⟩, hNe⟩)
        · exact ⟨xs, x, [], rfl, rfl, fun y hy => absurd hy List.not_mem_nil⟩
        · refine ⟨before, y, after ++ [x], by simp, rfl, fun z hz => ?_⟩
          rcases List.mem_append.mp hz with hz | hz
          · exact hAfter z hz
          · exact List.mem_singleton.mp hz ▸ Ne.symm hNe
      · rintro ⟨before, y, after, hEq, rfl, hAfter⟩
        rcases List.eq_nil_or_concat after with rfl | ⟨rest, z, rfl⟩
        · exact .inl (congrArg item (List.singleton_inj.mp (List.append_inj' hEq rfl).2)).symm
        · rw [List.concat_eq_append, ← List.cons_append, ← List.append_assoc] at hEq
          obtain ⟨rfl, hLast⟩ := List.append_inj' hEq rfl
          obtain rfl := List.singleton_inj.mp hLast
          refine .inr ⟨⟨before, y, rest, rfl, rfl, fun w hw => ?_⟩, ?_⟩
          · exact hAfter w (by simp [hw])
          · exact Ne.symm (hAfter x (by simp))

theorem mem_keys_collect {item : β → κ × α} {xs : List β} {k : κ} :
    k ∈ (collect item xs).map (·.1) ↔ ∃ x ∈ xs, (item x).1 = k := by
  induction xs using List.reverseRecOn with
  | nil => simp [collect]
  | append_singleton xs x ih =>
      rw [collect_snoc, mem_keys_assign, ih]
      constructor
      · rintro (rfl | ⟨y, hMem, hKey⟩)
        · exact ⟨x, by simp, rfl⟩
        · exact ⟨y, by simp [hMem], hKey⟩
      · rintro ⟨y, hMem, hKey⟩
        rcases List.mem_append.mp hMem with hMem | hMem
        · exact .inr ⟨y, hMem, hKey⟩
        · rw [List.mem_singleton.mp hMem] at hKey
          exact .inl hKey.symm

/-- A comprehension holds items of its list only. -/
theorem mem_of_mem_collect {item : β → κ × α} {xs : List β} {p : κ × α}
    (h : p ∈ collect item xs) : ∃ x ∈ xs, item x = p := by
  induction xs using List.reverseRecOn with
  | nil => cases h
  | append_singleton xs x ih =>
      rcases mem_collect_snoc.mp h with rfl | ⟨hMem, -⟩
      · exact ⟨x, by simp, rfl⟩
      · obtain ⟨y, hy, hItem⟩ := ih hMem
        exact ⟨y, by simp [hy], hItem⟩

/-- Where the items of one key agree, a comprehension holds them all. -/
theorem mem_collect {item : β → κ × α} {xs : List β} {p : κ × α}
    (hAgree : ∀ x ∈ xs, ∀ y ∈ xs, (item x).1 = (item y).1 → item x = item y) :
    p ∈ collect item xs ↔ ∃ x ∈ xs, item x = p := by
  refine ⟨mem_of_mem_collect, fun ⟨x, hx, hItem⟩ => ?_⟩
  have hStored : (item x).1 ∈ (collect item xs).map (·.1) := mem_keys_collect.mpr ⟨x, hx, rfl⟩
  obtain ⟨q, hq, hKey⟩ := List.mem_map.mp hStored
  obtain ⟨y, hy, rfl⟩ := mem_of_mem_collect hq
  rw [← hItem, ← hAgree y hy x hx hKey]
  exact hq

/-- Assigning and mapping the values can be done in either order. -/
theorem assign_map (g : α → β) (key : κ) (value : α) (mapping : List (κ × α)) :
    assign key (g value) (mapping.map fun p => (p.1, g p.2)) =
      (assign key value mapping).map fun p => (p.1, g p.2) := by
  induction mapping with
  | nil => rfl
  | cons p rest ih =>
      rw [List.map_cons, assign, assign]
      by_cases hKey : key = p.1
      · rw [if_pos hKey, if_pos hKey, List.map_cons]
      · rw [if_neg hKey, if_neg hKey, ih, List.map_cons]

/-- The values of a comprehension are changed one by one. -/
theorem collect_map {γ : Type} (g : α → β) (item : γ → κ × α) (xs : List γ) :
    collect (fun x => ((item x).1, g (item x).2)) xs =
      (collect item xs).map fun p => (p.1, g p.2) := by
  induction xs using List.reverseRecOn with
  | nil => rfl
  | append_singleton xs x ih =>
      rw [collect_snoc, collect_snoc, ih]
      exact assign_map g _ _ _

theorem get?_of_mem {mapping : List (κ × α)} {key : κ} {value : α}
    (hNodup : (mapping.map (·.1)).Nodup) (hMem : (key, value) ∈ mapping) :
    get? key mapping = some value := by
  induction mapping with
  | nil => cases hMem
  | cons p rest ih =>
      rw [List.map_cons, List.nodup_cons] at hNodup
      rcases List.mem_cons.mp hMem with rfl | hMem
      · simp [get?]
      · have hNe : p.1 ≠ key := fun hEq => hNodup.1 (List.mem_map.mpr ⟨_, hMem, hEq.symm⟩)
        rw [← ih hNodup.2 hMem, get?, get?, List.find?_cons_of_neg (by simpa using hNe)]

theorem mem_of_get? {mapping : List (κ × α)} {key : κ} {value : α}
    (h : get? key mapping = some value) : (key, value) ∈ mapping := by
  rw [get?, Option.map_eq_some_iff] at h
  obtain ⟨p, hFind, rfl⟩ := h
  have hKey : p.1 = key := by simpa using List.find?_some hFind
  exact hKey ▸ List.mem_of_find?_eq_some hFind

end L0vi0x.Python.Mapping
