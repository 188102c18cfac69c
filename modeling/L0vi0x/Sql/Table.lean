import Mathlib.Logic.Relation
import L0vi0x.Sql.Value

/-! Tables whose rows only pass their guards: `BEFORE` triggers and constraints
that undo a whole statement. A row keeps its position as long as it is stored. -/
namespace L0vi0x.Sql

/-- What may undo a write of one row; the triggers read the rest of the database. -/
structure Guards (σ ρ : Type) where
  insert : σ → ρ → Bool
  update : σ → ρ → ρ → Bool
  delete : σ → ρ → Bool
  /-- The constraints of the table on the rows after a write. -/
  allows : List ρ → Bool

/-- A statement without a conflict clause, by the rows that it writes. -/
inductive Statement (ρ : Type)
  | insert (rows : List ρ)
  | update (changes : List (Nat × ρ))
  | delete (positions : List Nat)

section Apply

variable {σ ρ : Type} (guards : Guards σ ρ) (context : σ)

def insertRow (rows : List ρ) (new : ρ) : Option (List ρ) :=
  if guards.insert context new && guards.allows (rows ++ [new]) then some (rows ++ [new]) else none

def updateRow (rows : List ρ) (change : Nat × ρ) : Option (List ρ) :=
  match rows[change.1]? with
  | none => none
  | some old =>
      if guards.update context old change.2 && guards.allows (rows.set change.1 change.2) then
        some (rows.set change.1 change.2)
      else none

/-- The rows that a statement leaves; `none` is a statement that is undone. -/
def Statement.run (rows : List ρ) : Statement ρ → Option (List ρ)
  | .insert new => new.foldlM (insertRow guards context) rows
  | .update changes => changes.foldlM (updateRow guards context) rows
  | .delete positions =>
      if positions.all fun i => rows[i]?.all (guards.delete context) then
        some ((rows.zipIdx.filter fun p => p.2 ∉ positions).map Prod.fst)
      else none

/-- A stored row changes to one that the update guard passes. -/
def Changes (old new : ρ) : Prop := guards.update context old new = true

variable {guards context} {rows after : List ρ}

theorem insertRow_eq_some {new : ρ} : insertRow guards context rows new = some after ↔
    guards.insert context new = true ∧ guards.allows (rows ++ [new]) = true ∧
      after = rows ++ [new] := by
  simp only [insertRow, Option.ite_none_right_eq_some, Bool.and_eq_true, Option.some.injEq,
    and_assoc, @eq_comm _ after]

/-- An update that is done has passed its guards, and replaces its row. -/
theorem updateRow_eq_some {change : Nat × ρ} :
    updateRow guards context rows change = some after ↔ ∃ old, rows[change.1]? = some old ∧
      guards.update context old change.2 = true ∧
      guards.allows (rows.set change.1 change.2) = true ∧ after = rows.set change.1 change.2 := by
  unfold updateRow
  cases hOld : rows[change.1]? with
  | none => simp
  | some old =>
      simp only [Option.ite_none_right_eq_some, Bool.and_eq_true, Option.some.injEq,
        exists_eq_left', and_assoc, @eq_comm _ after]

theorem Statement.run_insert_one {new : ρ} (hGuard : guards.insert context new = true)
    (hAllows : guards.allows (rows ++ [new]) = true) :
    (Statement.insert [new]).run guards context rows = some (rows ++ [new]) := by
  simp [Statement.run, insertRow, hGuard, hAllows]

theorem Statement.run_update_one {i : Nat} {old new : ρ} (hOld : rows[i]? = some old)
    (hGuard : guards.update context old new = true)
    (hAllows : guards.allows (rows.set i new) = true) :
    (Statement.update [(i, new)]).run guards context rows = some (rows.set i new) := by
  simp [Statement.run, updateRow, hOld, hGuard, hAllows]

/-- A loop of `Option` steps keeps what every step keeps. -/
theorem foldlM_option {α β : Type} {step : β → α → Option β} (motive : β → Prop)
    {items : List α} {init final : β} (hInit : motive init)
    (hStep : ∀ item ∈ items, ∀ state next, motive state → step state item = some next →
      motive next)
    (h : items.foldlM step init = some final) : motive final := by
  induction items generalizing init with
  | nil =>
      rw [List.foldlM_nil] at h
      cases h
      exact hInit
  | cons item rest ih =>
      rw [List.foldlM_cons, Option.bind_eq_bind, Option.bind_eq_some_iff] at h
      obtain ⟨next, hNext, hRest⟩ := h
      exact ih (hStep item (List.mem_cons_self ..) init next hInit hNext)
        (fun other hOther => hStep other (List.mem_cons_of_mem _ hOther)) hRest

/-- A property of single rows that the insert and update guards establish. -/
theorem Statement.run_all {statement : Statement ρ} {good : ρ → Prop}
    (hInsert : ∀ new, guards.insert context new = true → good new)
    (hUpdate : ∀ old new, good old → guards.update context old new = true → good new)
    (hRows : ∀ row ∈ rows, good row) (h : statement.run guards context rows = some after) :
    ∀ row ∈ after, good row := by
  cases statement with
  | insert new =>
      refine foldlM_option (fun rows => ∀ row ∈ rows, good row) hRows ?_ h
      intro item _ state next hState hNext row hRow
      obtain ⟨hGuard, -, rfl⟩ := insertRow_eq_some.mp hNext
      rcases List.mem_append.mp hRow with hRow | hRow
      · exact hState row hRow
      · rw [List.mem_singleton.mp hRow]
        exact hInsert item hGuard
  | update changes =>
      refine foldlM_option (fun rows => ∀ row ∈ rows, good row) hRows ?_ h
      intro change _ state next hState hNext row hRow
      obtain ⟨old, hOld, hGuard, -, rfl⟩ := updateRow_eq_some.mp hNext
      rcases List.mem_or_eq_of_mem_set hRow with hRow | rfl
      · exact hState row hRow
      · exact hUpdate old _ (hState old (List.mem_of_getElem? hOld)) hGuard
  | delete positions =>
      rw [Statement.run] at h
      split at h
      · cases h
        intro row hRow
        obtain ⟨p, hp, rfl⟩ := List.mem_map.mp hRow
        exact hRows p.1 (List.fst_mem_of_mem_zipIdx (List.mem_filter.mp hp).1)
      · cases h

/-- Rows keep their positions and change by guarded updates only, unless a
statement deletes a row. A part of the rows that no update assigns anew stays. -/
theorem Statement.run_changes_view {κ : Type} (view : ρ → κ) {statement : Statement ρ}
    (hDelete : ∀ positions, statement = .delete positions → ∀ i ∈ positions, rows[i]? = none)
    (hView : ∀ changes, statement = .update changes → ∀ change ∈ changes, ∀ old,
      rows[change.1]? = some old → view change.2 = view old)
    (h : statement.run guards context rows = some after) {i : Nat} {row : ρ}
    (hRow : rows[i]? = some row) :
    ∃ row', after[i]? = some row' ∧ view row' = view row ∧
      Relation.ReflTransGen (fun old new => Changes guards context old new ∧ view new = view old)
        row row' := by
  cases statement with
  | insert new =>
      refine foldlM_option (fun state => ∃ row', state[i]? = some row' ∧ view row' = view row ∧
        Relation.ReflTransGen _ row row') ⟨row, hRow, rfl, .refl⟩ ?_ h
      rintro item - state next ⟨row', hAt, hSame, hChain⟩ hNext
      obtain ⟨-, -, rfl⟩ := insertRow_eq_some.mp hNext
      exact ⟨row', List.getElem?_append_left (List.getElem?_eq_some_iff.mp hAt).1 ▸ hAt, hSame,
        hChain⟩
  | update changes =>
      refine foldlM_option (fun state => ∃ row', state[i]? = some row' ∧ view row' = view row ∧
        Relation.ReflTransGen _ row row') ⟨row, hRow, rfl, .refl⟩ ?_ h
      rintro change hChange state next ⟨row', hAt, hSame, hChain⟩ hNext
      obtain ⟨old, hOld, hGuard, -, rfl⟩ := updateRow_eq_some.mp hNext
      by_cases hi : change.1 = i
      · subst hi
        rw [hAt] at hOld
        cases hOld
        have hLt := (List.getElem?_eq_some_iff.mp hAt).1
        have hNew := hView changes rfl change hChange row hRow
        exact ⟨change.2, by simp [hLt], hNew, hChain.tail ⟨hGuard, hNew.trans hSame.symm⟩⟩
      · exact ⟨row', by rw [List.getElem?_set_ne hi, hAt], hSame, hChain⟩
  | delete positions =>
      have hNone := hDelete positions rfl
      rw [Statement.run] at h
      split at h
      · cases h
        refine ⟨row, ?_, rfl, .refl⟩
        have hKeep : rows.zipIdx.filter (fun p => p.2 ∉ positions) = rows.zipIdx := by
          rw [List.filter_eq_self]
          intro p hp
          have hHas := List.mem_zipIdx_iff_getElem?.mp hp
          rw [decide_eq_true_eq]
          intro hIn
          rw [hNone p.2 hIn] at hHas
          cases hHas
        rw [hKeep, List.zipIdx_map_fst, hRow]
      · cases h

/-- A statement that deletes no stored row changes each only as the update guard allows. -/
theorem Statement.run_changes {statement : Statement ρ}
    (hDelete : ∀ positions, statement = .delete positions → ∀ i ∈ positions, rows[i]? = none)
    (h : statement.run guards context rows = some after) {i : Nat} {row : ρ}
    (hRow : rows[i]? = some row) :
    ∃ row', after[i]? = some row' ∧ Relation.ReflTransGen (Changes guards context) row row' := by
  obtain ⟨row', hAt, -, hChain⟩ :=
    Statement.run_changes_view (fun _ => ()) hDelete (fun _ _ _ _ _ _ => rfl) h hRow
  exact ⟨row', hAt, Relation.ReflTransGen.mono (fun _ _ hStep => hStep.1) _ _ hChain⟩

/-- What every single write leaves, a statement leaves. -/
theorem Statement.run_allows (good : List ρ → Prop) {statement : Statement ρ}
    (hAllows : ∀ rows, guards.allows rows = true → good rows)
    (hDelete : ∀ kept, kept.Sublist rows → good kept)
    (h : statement.run guards context rows = some after) : good after := by
  cases statement with
  | insert new =>
      refine foldlM_option good (hDelete rows (List.Sublist.refl rows)) ?_ h
      rintro item - state next - hNext
      obtain ⟨-, hNew, rfl⟩ := insertRow_eq_some.mp hNext
      exact hAllows _ hNew
  | update changes =>
      refine foldlM_option good (hDelete rows (List.Sublist.refl rows)) ?_ h
      rintro change - state next - hNext
      obtain ⟨old, -, -, hNew, rfl⟩ := updateRow_eq_some.mp hNext
      exact hAllows _ hNew
  | delete positions =>
      rw [Statement.run] at h
      split at h
      · cases h
        apply hDelete
        have hMap : rows.zipIdx.map Prod.fst = rows := by rw [List.zipIdx_map_fst]
        conv => rhs; rw [← hMap]
        exact List.filter_sublist.map Prod.fst
      · cases h

/-- Where the delete guard refuses every row, no statement deletes one. -/
theorem Statement.delete_none {statement : Statement ρ}
    (hGuard : ∀ row, guards.delete context row = false)
    (h : statement.run guards context rows = some after) :
    ∀ positions, statement = .delete positions → ∀ i ∈ positions, rows[i]? = none := by
  rintro positions rfl i hi
  rw [Statement.run] at h
  split at h
  · rename_i hAll
    have hAt := List.all_eq_true.mp hAll i hi
    cases hRow : rows[i]? with
    | none => rfl
    | some row => simp [hRow, hGuard row] at hAt
  · cases h

end Apply
end L0vi0x.Sql
