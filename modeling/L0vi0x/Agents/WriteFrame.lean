import L0vi0x.Agents.SandboxFs

/-! What a write of an agent leaves as it was. The text goes to a neighbour of the target that
then takes its place, and what stood at the neighbour before is deleted. -/
namespace L0vi0x.Agents.SandboxFS

open L0vi0x.Python

section Steps

variable {w v : World} {n p target : Location} {allowed allowed' : Prop} {after after' : Disk}

/-- Entries differ at one location at most. -/
def SameBut (n : Location) (w v : World) : Prop := ∀ q, q ≠ n → v.disk.entry q = w.disk.entry q

/-- Where it is allowed a step ends with the disk `after`, and elsewhere with an error, after
changes at `n` alone. -/
def Ends (n : Location) (w : World) (allowed : Prop) (after : Disk) (outcome : Py Unit × World) :
    Prop :=
  (allowed ∧ ∃ log, outcome = (.ok (), ⟨after, log⟩)) ∨
    (¬ allowed ∧ ∃ e v, outcome = (.error e, v) ∧ SameBut n w v)

/-- Two steps after one another end well where both are allowed. -/
theorem Ends.bind {first rest : Sys Unit} (hFirst : Ends n w allowed after (first w))
    (hSame : ∀ q, q ≠ n → after.entry q = w.disk.entry q)
    (hRest : allowed → ∀ log, Ends n ⟨after, log⟩ allowed' after' (rest ⟨after, log⟩)) :
    Ends n w (allowed ∧ allowed') after' ((first >>= fun _ => rest) w) := by
  rcases hFirst with ⟨hAllowed, log, hRun⟩ | ⟨hNot, e, v, hRun, hv⟩
  · rw [Act.bind_ok hRun]
    rcases hRest hAllowed log with ⟨hAllowed', log', hEnd⟩ | ⟨hNot', e, v, hEnd, hv⟩
    · exact .inl ⟨⟨hAllowed, hAllowed'⟩, log', hEnd⟩
    · exact .inr ⟨fun h => hNot' h.2, e, v, hEnd, fun q hq => (hv q hq).trans (hSame q hq)⟩
  · rw [Act.bind_error hRun]
    exact .inr ⟨fun h => hNot h.1, e, v, rfl, hv⟩

theorem Ends.refused {e : PyError} (h : ¬ allowed) : Ends n w allowed after (.error e, w) :=
  .inr ⟨h, e, w, rfl, fun _ _ => rfl⟩

theorem Ends.congr {outcome : Py Unit × World} (h : Ends n w allowed after outcome)
    (hAllowed : allowed ↔ allowed') (hAfter : allowed → after = after') :
    Ends n w allowed' after' outcome := by
  rcases h with ⟨hYes, log, hRun⟩ | ⟨hNot, hRun⟩
  · exact .inl ⟨hAllowed.mp hYes, log, hAfter hYes ▸ hRun⟩
  · exact .inr ⟨fun h => hNot (hAllowed.mpr h), hRun⟩

/-- A call on the disk ends with its entry stored, unless the disk refuses it. -/
theorem perform_ends (a : Access) (e : Option DiskEntry) :
    Ends n w (w.disk.refuses a = false) (w.disk.store a.location e) (Sys.perform a e w) := by
  rw [Sys.perform]
  by_cases hRefused : w.disk.refuses a = true
  · rw [if_pos hRefused]
    exact .refused (by simp [hRefused])
  · rw [if_neg hRefused]
    exact .inl ⟨by simpa using hRefused, _, rfl⟩

theorem store_none {d : Disk} (h : d.entry p = none) : d.store p none = d := by
  have hEntry : Function.update d.entry p none = d.entry := by
    rw [← h, Function.update_eq_self]
  rw [Disk.store, hEntry]

@[simp] theorem store_store (d : Disk) (p : Location) (e e' : Option DiskEntry) :
    (d.store p e).store p e' = d.store p e' := by
  simp [Disk.store]

/-- Entries at two locations are stored in either order. -/
theorem store_comm (d : Disk) {q : Location} (h : p ≠ q) (e e' : Option DiskEntry) :
    (d.store p e).store q e' = (d.store q e').store p e := by
  simp [Disk.store, Function.update_comm h]

/-- The way is cleared for a file that is made anew. -/
theorem clear_ends (h : w.disk.located n = some n) :
    Ends n w (w.disk.entry n = none ∨
        w.disk.entry n ≠ some .dir ∧ w.disk.refuses (.delete n) = false) (w.disk.store n none)
      (Sys.onlyIf (w.disk.entry n).isSome (Sys.unlink n) w) := by
  have hUnlink := Sys.unlink_located h
  cases hEntry : w.disk.entry n with
  | none =>
      refine .inl ⟨.inl rfl, w.accesses, ?_⟩
      rw [store_none hEntry]
      rfl
  | some e =>
      have hTaken : Sys.onlyIf (some e).isSome (Sys.unlink n) w = Sys.unlink n w := rfl
      rw [hTaken, hUnlink, hEntry]
      cases e with
      | dir => exact .refused (by simp)
      | file old => exact (perform_ends (.delete n) none).congr (by simp) fun _ => rfl
      | link next => exact (perform_ends (.delete n) none).congr (by simp) fun _ => rfl

/-- The text is written to a new file. -/
theorem write_ends (h : w.disk.Resolved n) (hNew : w.disk.entry n = none) (content : String) :
    Ends n w (w.disk.entry n.dropLast = some .dir ∧ w.disk.refuses (.create n) = false ∧
        w.disk.refuses (.modify n) = false) (w.disk.store n (some (.file (encodeUtf8 content))))
      (Sys.writeText n content w) := by
  rw [Sys.writeText_resolved h, hNew]
  cases hParent : w.disk.entry n.dropLast with
  | none => exact .refused (by simp)
  | some e =>
      cases e with
      | file old => exact .refused (by simp)
      | link next => exact .refused (by simp)
      | dir =>
          have hCreate := @perform_ends w n (.create n) (some (.file []))
          have hModify : ∀ log, Ends n ⟨w.disk.store n (some (.file [])), log⟩
              (w.disk.refuses (.modify n) = false)
              (w.disk.store n (some (.file (encodeUtf8 content))))
              (Sys.perform (.modify n) (some (.file (encodeUtf8 content)))
                ⟨w.disk.store n (some (.file [])), log⟩) := by
            intro log
            refine (perform_ends (.modify n) _).congr Iff.rfl fun _ => ?_
            exact store_store w.disk n _ _
          refine (hCreate.bind (fun q hq => Disk.store_entry_ne hq) fun _ => hModify).congr ?_ ?_
          · simp
          · exact fun _ => rfl

/-- The neighbour takes the place of the target. -/
theorem replace_ends {e : DiskEntry} (hn : w.disk.located n = some n)
    (ht : w.disk.located target = some target) (hEntry : w.disk.entry n = some e) :
    Ends n w (w.disk.entry target ≠ some .dir ∧ w.disk.refuses (.delete n) = false ∧
        w.disk.refuses (if (w.disk.entry target).isSome then .modify target else .create target) =
          false)
      ((w.disk.store target (some e)).store n none) (Sys.replaceFile n target w) := by
  have hLocate : ∀ {q : Location}, w.disk.located q = some q → Sys.locate q w = (.ok q, w) := by
    intro q hq
    simp only [Sys.locate, Sys.lift, hq]
    rfl
  have hAt : ∀ q, Sys.entryAt q w = (.ok (w.disk.entry q), w) := fun _ => rfl
  -- once the neighbour may be removed, its removal is not refused any more
  have hMove : ∀ a : Access, a.location = target → Ends n w
      (w.disk.refuses (.delete n) = false ∧ w.disk.refuses a = false)
      ((w.disk.store target (some e)).store n none) ((do
        Sys.lift fun d => if d.refuses (.delete n) then raise .osError "Permission denied" else pure ()
        Sys.perform a (some e)
        Sys.perform (.delete n) none : Sys Unit) w) := by
    rintro a rfl
    by_cases hDelete : w.disk.refuses (.delete n) = true
    · have hLift : Sys.lift (fun d => if d.refuses (.delete n) then raise .osError "Permission denied"
          else pure ()) w = (raise .osError "Permission denied", w) := by
        simp only [Sys.lift, if_pos hDelete]
      rw [Act.bind_error hLift]
      exact .refused (by simp [hDelete])
    · have hLift : Sys.lift (fun d => if d.refuses (.delete n) then raise .osError "Permission denied"
          else pure ()) w = (.ok (), w) := by
        simp only [Sys.lift, if_neg hDelete]
        rfl
      rw [Act.bind_ok hLift]
      by_cases hRefused : w.disk.refuses a = true
      · have hPerform : Sys.perform a (some e) w = (raise .osError "Permission denied", w) := by
          rw [Sys.perform, if_pos hRefused]
        rw [Act.bind_error hPerform]
        exact .refused (by simp [hRefused])
      · have hPerform : Sys.perform a (some e) w =
            (.ok (), ⟨w.disk.store a.location (some e), w.accesses ++ [a]⟩) := by
          rw [Sys.perform, if_neg hRefused]
        rw [Act.bind_ok hPerform]
        change Ends n w _ _ (if w.disk.refuses (.delete n) = true then _ else _)
        rw [if_neg hDelete]
        exact .inl ⟨⟨by simpa using hDelete, by simpa using hRefused⟩, _, rfl⟩
  rw [Sys.replaceFile, Act.bind_ok (hLocate hn), Act.bind_ok (hLocate ht), Act.bind_ok (hAt _),
    Act.bind_ok (hAt _), hEntry]
  cases hOld : w.disk.entry target with
  | none => exact (hMove (.create target) rfl).congr (by simp) fun _ => rfl
  | some old =>
      cases old with
      | dir => exact .refused (by simp)
      | file content => exact (hMove (.modify target) rfl).congr (by simp) fun _ => rfl
      | link next => exact (hMove (.modify target) rfl).congr (by simp) fun _ => rfl

end Steps

section Replacing

variable {w : World} {target : Location}

/-- What is at the neighbour and at the target can be replaced, and the system allows it. -/
structure Replaces (d : Disk) (target : Location) : Prop where
  named : target ≠ []
  parent : d.entry target.dropLast = some .dir
  near : d.entry (neighbour target) ≠ some .dir
  leaf : d.entry target ≠ some .dir
  deletes : d.refuses (.delete (neighbour target)) = false
  creates : d.refuses (.create (neighbour target)) = false
  writes : d.refuses (.modify (neighbour target)) = false
  replaces : d.refuses (if (d.entry target).isSome then .modify target else .create target) = false

theorem neighbour_ne : target ≠ neighbour target := by
  intro hSame
  have hLast := congrArg leafName hSame
  have hLength := congrArg (fun s => s.toList.length) hLast
  simp [neighbour, leafName, String.toList_append] at hLength

theorem dropLast_ne_neighbour (target : Location) : target.dropLast ≠ neighbour target := by
  intro hSame
  have hLength := congrArg List.length hSame
  simp [neighbour] at hLength

/-- An entry that is no link leaves a location resolved. -/
theorem resolved_store {d : Disk} {p q : Location} {e : Option DiskEntry} (h : d.Resolved p)
    (he : ∀ next, e ≠ some (.link next)) : (d.store q e).Resolved p := by
  refine ⟨fun r hr hNe next => ?_, h.names⟩
  by_cases hSame : r = q
  · rw [hSame, Disk.store_entry_self]
    exact he next
  · rw [Disk.store_entry_ne hSame]
    exact h.unlinked r hr hNe next

/-- The target holds the text and the neighbour nothing where both can be replaced; elsewhere only
the neighbour has changed. -/
theorem replaceText_ends (h : w.disk.Resolved target) (content : String) :
    (Replaces w.disk target ∧ ∃ log, replaceText target content w = (.ok target,
        ⟨(w.disk.store target (some (.file (encodeUtf8 content)))).store (neighbour target) none,
          log⟩)) ∨
      (¬ Replaces w.disk target ∧ ∃ e v, replaceText target content w = (.error e, v) ∧
        SameBut (neighbour target) w v) := by
  by_cases hNe : target = []
  · have hName : (Sys.lift fun _ => withName target (leafName target ++ ".tmp")) w =
        (raise .valueError "PosixPath('/') has an empty name", w) := by
      simp only [Sys.lift, withName, if_pos hNe]
    rw [replaceText, Act.bind_error hName]
    exact .inr ⟨fun hAll => hAll.named hNe, _, w, rfl, fun _ _ => rfl⟩
  rw [replaceText_run h hNe]
  rcases clear_ends (neighbour_located h) with ⟨hClear, log, hRun⟩ | ⟨hNot, e, v, hRun, hv⟩
  · rw [Act.bind_ok hRun]
    have hResolved : (w.disk.store (neighbour target) none).Resolved target :=
      resolved_store h (by simp)
    have hGone := Disk.store_entry_self w.disk (neighbour target) none
    have hParent : (w.disk.store (neighbour target) none).entry (neighbour target).dropLast =
        w.disk.entry target.dropLast := by
      rw [neighbour_dropLast]
      exact Disk.store_entry_ne (dropLast_ne_neighbour target)
    have hWrites := @write_ends ⟨w.disk.store (neighbour target) none, log⟩ (neighbour target)
      (neighbour_resolved hResolved (by simp [hGone])) hGone content
    rcases hWrites with ⟨⟨hDir, hCreate, hWrite⟩, log', hRun'⟩ | ⟨hNot, e, v, hRun', hv⟩
    · rw [Act.bind_ok hRun']
      dsimp only
      rw [store_store]
      have hNew : (w.disk.store (neighbour target) (some (.file (encodeUtf8 content)))).Resolved
          target := resolved_store h (by simp)
      have hOld : (w.disk.store (neighbour target) (some (.file (encodeUtf8 content)))).entry target =
          w.disk.entry target := Disk.store_entry_ne neighbour_ne
      have hReplaces := @replace_ends
        ⟨w.disk.store (neighbour target) (some (.file (encodeUtf8 content))), log'⟩ (neighbour target)
        target _ (neighbour_located hNew) (Disk.located_of_resolved hNew.dropLast h.names)
        (Disk.store_entry_self _ _ _)
      simp only [hOld] at hReplaces
      rcases hReplaces with ⟨⟨hLeaf, hDelete, hAllowed⟩, log'', hRun''⟩ | ⟨hNot, e, v, hRun'', hv⟩
      · rw [Act.bind_ok hRun'', store_comm _ neighbour_ne.symm, store_store]
        refine .inl ⟨⟨hNe, hParent.symm.trans hDir, ?_, hLeaf, hDelete, hCreate, hWrite, hAllowed⟩, _,
          rfl⟩
        exact hClear.elim (by simp_all) (·.1)
      · rw [Act.bind_error hRun'']
        exact .inr ⟨fun hAll => hNot ⟨hAll.leaf, hAll.deletes, hAll.replaces⟩, e, v, rfl,
          fun q hq => (hv q hq).trans (Disk.store_entry_ne hq)⟩
    · rw [Act.bind_error hRun']
      refine .inr ⟨fun hAll => hNot ⟨hParent.trans hAll.parent, hAll.creates, hAll.writes⟩, e, v, rfl,
        fun q hq => (hv q hq).trans (Disk.store_entry_ne hq)⟩
  · rw [Act.bind_error hRun]
    exact .inr ⟨fun hAll => hNot (.inr ⟨hAll.near, hAll.deletes⟩), e, v, rfl, hv⟩

end Replacing

section Frame

variable {fs : SandboxFS} {t : DirectoryTree} {path : Path} {content : String} {w v : World}
  {target : Location}

/-- A write that returns leaves the text at its target and every other entry as it was, and makes
nothing but missing directories above; one that raises leaves the target as it was. -/
structure TouchesOne (fs : SandboxFS) (t : DirectoryTree) (path : Path) (content : String) : Prop where
  written : ∀ target v, fs.writeText path content ⟨t.disk, []⟩ = (.ok target, v) →
    v.disk.entry target = some (.file (encodeUtf8 content))
  others : ∀ target v, fs.writeText path content ⟨t.disk, []⟩ = (.ok target, v) →
    ∀ q e, q ≠ target → t.disk.entry q = some e → v.disk.entry q = some e
  made : ∀ target v, fs.writeText path content ⟨t.disk, []⟩ = (.ok target, v) →
    ∀ q e, q ≠ target → t.disk.entry q = none → v.disk.entry q = some e → e = .dir ∧ q <+: target
  intact : ∀ error v, fs.writeText path content ⟨t.disk, []⟩ = (.error error, v) →
    ∀ target, t.disk.resolve path.parts = some target →
      v.disk.entry target = t.disk.entry target

/-- A file or a link stands at the neighbour of the target, and nothing keeps the write from taking
its place. -/
def Overwrites (fs : SandboxFS) (d : Disk) (path : Path) : Prop :=
  ∃ target, fs.inside path true d = .ok target ∧ (d.entry (neighbour target)).isSome ∧
    Replaces d target

/-- The target of the check is what the path resolves to. -/
theorem inside_target {forWrite : Bool} {d : Disk} (h : fs.inside path forWrite d = .ok target) :
    d.resolve path.parts = some target := by
  simp only [inside, bind_eq_ok, raiseIf_eq_ok] at h
  obtain ⟨_, _, _, _, h⟩ := h
  split at h
  · simp at h
  · rename_i q hq
    simp only [bind_eq_ok, raiseIf_eq_ok, pure_eq_ok, Bool.not_eq_false'] at h
    obtain ⟨_, _, _, _, rfl⟩ := h
    exact hq

theorem topMissing_entry {d : Disk} {names : List String} {top : Location}
    (h : Sys.topMissing d names = some top) : d.entry top = none := by
  induction names with
  | nil => cases h
  | cons name up ih =>
      rw [Sys.topMissing] at h
      split at h
      · exact ih h
      · split at h
        · cases h
        · rename_i hNone
          obtain rfl := Option.some.inj h
          simpa using hNone
      · cases h

/-- Below what is missing there is nothing. -/
theorem entry_below {p q : Location} (h : t.disk.entry p = none) (hBelow : p <+: q) :
    t.disk.entry q = none := by
  obtain ⟨rest, rfl⟩ := hBelow
  induction rest using List.reverseRecOn with
  | nil => rwa [List.append_nil]
  | append_singleton rest name ih =>
      by_contra hSome
      obtain ⟨e, he⟩ := Option.ne_none_iff_exists'.mp hSome
      have hParent := t.parents _ _ he
      rw [← List.append_assoc, List.dropLast_concat, ih] at hParent
      cases hParent

/-- The parents that are made: they were missing, and none of them is the target or its
neighbour. -/
theorem parents_made (h : t.disk.Resolved target) : ∃ created,
    Sys.Made ⟨t.disk, []⟩ (Sys.makeDirs target.dropLast.reverse ⟨t.disk, []⟩).2
      target.dropLast.reverse created ∧
    (∀ q ∈ created, t.disk.entry q = none ∧ q <+: target) ∧ target ∉ created ∧
      neighbour target ∉ created := by
  have hUp : t.disk.Resolved target.dropLast.reverse.reverse := by
    rw [List.reverse_reverse]
    exact h.dropLast
  obtain ⟨created, hMade⟩ := (@Sys.makeDirs_makes ⟨t.disk, []⟩ target.dropLast.reverse hUp).made
  have hBelow : ∀ q ∈ created, q <+: target.dropLast := by
    intro q hq
    simpa using (hMade.below q hq).1
  refine ⟨created, hMade, fun q hq => ?_, fun hMem => ?_, fun hMem => ?_⟩
  · obtain ⟨-, top, hTop, -, hAbove⟩ := hMade.below q hq
    exact ⟨entry_below (topMissing_entry hTop) hAbove,
      (hBelow q hq).trans (List.dropLast_prefix target)⟩
  · have hLength := (hBelow _ hMem).length_le
    have hNil : target = [] := by
      rw [List.length_dropLast] at hLength
      exact List.length_eq_zero_iff.mp (by omega)
    obtain ⟨-, top, hTop, -⟩ := hMade.below _ hMem
    rw [hNil] at hTop
    cases hTop
  · have hLength := (hBelow _ hMem).length_le
    simp [neighbour] at hLength

/-- Where the neighbour is there, its directory is, and no parent is made. -/
theorem makeDirs_near (h : t.disk.Resolved target) (hNear : (t.disk.entry (neighbour target)).isSome) :
    Sys.makeDirs target.dropLast.reverse ⟨t.disk, []⟩ = (.ok (), ⟨t.disk, []⟩) := by
  obtain ⟨e, he⟩ := Option.isSome_iff_exists.mp hNear
  have hParent := t.parents _ _ he
  rw [neighbour_dropLast] at hParent
  refine Sys.makeDirs_present ?_ ?_ ?_
  · rw [List.reverse_reverse]
    exact h.dropLast
  · rw [List.reverse_reverse]
    exact hParent
  · rw [List.reverse_reverse]
    exact t.parents _ _ hParent

/-- How a write ends whose target passes the check. -/
theorem writeText_inside (h : fs.inside path true t.disk = .ok target) :
    fs.writeText path content ⟨t.disk, []⟩ = (do
      Sys.makeDirs target.dropLast.reverse
      replaceText target content : Sys Location) ⟨t.disk, []⟩ := by
  have hLift : Sys.lift (fs.inside path true) ⟨t.disk, []⟩ = (.ok target, ⟨t.disk, []⟩) := by
    simp only [Sys.lift, h]
  rw [writeText, Act.bind_ok hLift]

/-- A write that returns has passed the check, made its parents and replaced its target. -/
theorem writeText_eq_ok (h : fs.writeText path content ⟨t.disk, []⟩ = (.ok target, v)) :
    fs.inside path true t.disk = .ok target ∧ ∃ u, Sys.makeDirs target.dropLast.reverse ⟨t.disk, []⟩ =
      (.ok (), u) ∧ Replaces u.disk target ∧ ∀ q, v.disk.entry q =
        if q = neighbour target then none
        else if q = target then some (.file (encodeUtf8 content)) else u.disk.entry q := by
  cases hInside : fs.inside path true t.disk with
  | error e =>
      have hLift : Sys.lift (fs.inside path true) ⟨t.disk, []⟩ = (.error e, ⟨t.disk, []⟩) := by
        simp only [Sys.lift, hInside]
      rw [writeText, Act.bind_error hLift] at h
      cases h
  | ok found =>
      obtain ⟨hResolved, -⟩ := inside_eq_ok hInside
      rw [writeText_inside hInside] at h
      obtain ⟨created, hMade, -⟩ := parents_made hResolved
      rcases hDirs : Sys.makeDirs found.dropLast.reverse ⟨t.disk, []⟩ with ⟨result, u⟩
      rw [hDirs] at hMade
      cases result with
      | error e =>
          rw [Act.bind_error hDirs] at h
          cases h
      | ok _ =>
          rw [Act.bind_ok hDirs] at h
          rcases replaceText_ends (hMade.resolved hResolved) content with
            ⟨hReplaces, log, hRun⟩ | ⟨-, e, z, hRun, -⟩
          · obtain ⟨hSame, rfl⟩ := Prod.mk.inj (hRun.symm.trans h)
            obtain rfl := Except.ok.inj hSame
            refine ⟨rfl, u, hDirs, hReplaces, fun q => ?_⟩
            simp only [Disk.store, Function.update_apply]
          · cases hRun.symm.trans h

/-- A write that raises leaves its target. -/
theorem writeText_intact {error : PyError}
    (h : fs.writeText path content ⟨t.disk, []⟩ = (.error error, v))
    (hTarget : t.disk.resolve path.parts = some target) :
    v.disk.entry target = t.disk.entry target := by
  cases hInside : fs.inside path true t.disk with
  | error e =>
      have hLift : Sys.lift (fs.inside path true) ⟨t.disk, []⟩ = (.error e, ⟨t.disk, []⟩) := by
        simp only [Sys.lift, hInside]
      rw [writeText, Act.bind_error hLift] at h
      obtain ⟨-, rfl⟩ := Prod.mk.inj h
      rfl
  | ok found =>
      obtain rfl := Option.some.inj ((inside_target hInside).symm.trans hTarget)
      obtain ⟨hResolved, -⟩ := inside_eq_ok hInside
      rw [writeText_inside hInside] at h
      obtain ⟨created, hMade, -, hNotMade, -⟩ := parents_made hResolved
      rcases hDirs : Sys.makeDirs found.dropLast.reverse ⟨t.disk, []⟩ with ⟨result, u⟩
      rw [hDirs] at hMade
      have hKept : u.disk.entry found = t.disk.entry found := by
        rw [hMade.entries, if_neg hNotMade]
      cases result with
      | error e =>
          rw [Act.bind_error hDirs] at h
          obtain ⟨-, rfl⟩ := Prod.mk.inj h
          exact hKept
      | ok _ =>
          rw [Act.bind_ok hDirs] at h
          rcases replaceText_ends (hMade.resolved hResolved) content with
            ⟨-, log, hRun⟩ | ⟨-, e, z, hRun, hSame⟩
          · cases hRun.symm.trans h
          · obtain ⟨-, rfl⟩ := Prod.mk.inj (hRun.symm.trans h)
            exact (hSame found neighbour_ne).trans hKept

/-- A write touches one file unless it takes the place of one beside it. -/
theorem touchesOne_iff (fs : SandboxFS) (t : DirectoryTree) (path : Path) (content : String) :
    TouchesOne fs t path content ↔ ¬ Overwrites fs t.disk path := by
  constructor
  · rintro hOne ⟨target, hInside, hNear, hReplaces⟩
    obtain ⟨hResolved, -⟩ := inside_eq_ok hInside
    have hDirs := makeDirs_near hResolved hNear
    rcases @replaceText_ends ⟨t.disk, []⟩ target hResolved content with
      ⟨-, log, hRun⟩ | ⟨hNot, -⟩
    · have hCall := ((@writeText_inside fs t path content target hInside).trans
        (Act.bind_ok hDirs)).trans hRun
      obtain ⟨e, he⟩ := Option.isSome_iff_exists.mp hNear
      have hKept := hOne.others _ _ hCall _ e neighbour_ne.symm he
      rw [Disk.store_entry_self] at hKept
      cases hKept
    · exact hNot hReplaces
  · intro hNot
    have hReturns : ∀ target v, fs.writeText path content ⟨t.disk, []⟩ = (.ok target, v) →
        t.disk.entry (neighbour target) = none ∧ ∃ created : List Location,
          (∀ q ∈ created, t.disk.entry q = none ∧ q <+: target) ∧
          ∀ q, v.disk.entry q = if q = neighbour target then none
            else if q = target then some (.file (encodeUtf8 content))
            else if q ∈ created then some .dir else t.disk.entry q := by
      intro target v h
      obtain ⟨hInside, u, hDirs, hReplaces, hEntries⟩ := writeText_eq_ok h
      obtain ⟨hResolved, -⟩ := inside_eq_ok hInside
      obtain ⟨created, hMade, hNew, -⟩ := parents_made hResolved
      rw [hDirs] at hMade
      refine ⟨?_, created, hNew, fun q => by rw [hEntries, hMade.entries]⟩
      by_contra hNear
      have hNear' := Option.ne_none_iff_isSome.mp hNear
      obtain ⟨-, rfl⟩ := Prod.mk.inj ((makeDirs_near hResolved hNear').symm.trans hDirs)
      exact hNot ⟨target, hInside, hNear', hReplaces⟩
    refine ⟨fun target v h => ?_, fun target v h q e hq he => ?_, fun target v h q e hq he he' => ?_,
      fun error v h target hTarget => writeText_intact h hTarget⟩
    · obtain ⟨-, created, -, hEntries⟩ := hReturns target v h
      rw [hEntries, if_neg neighbour_ne, if_pos rfl]
    · obtain ⟨hNear, created, hNew, hEntries⟩ := hReturns target v h
      have hNotNear : q ≠ neighbour target := by
        rintro rfl
        rw [hNear] at he
        cases he
      have hNotMade : q ∉ created := by
        intro hMem
        rw [(hNew q hMem).1] at he
        cases he
      rw [hEntries, if_neg hNotNear, if_neg hq, if_neg hNotMade, he]
    · obtain ⟨-, created, hNew, hEntries⟩ := hReturns target v h
      rw [hEntries, if_neg hq, he] at he'
      split at he'
      · cases he'
      · split at he'
        · rename_i hMem
          exact ⟨(Option.some.inj he').symm, (hNew q hMem).2⟩
        · cases he'

def draftDisk : Disk where
  entry p :=
    if p = [] then some .dir
    else if p = ["notes.tmp"] then some (.file [104, 105])
    else none
  refuses _ := false
  linkDepth := 40

def draftTree : DirectoryTree where
  disk := draftDisk
  root := rfl
  parents p e hEntry := by
    simp only [draftDisk] at hEntry
    split at hEntry
    · rename_i hp
      rw [hp]
      rfl
    · split at hEntry
      · rename_i hp
        rw [hp]
        rfl
      · cases hEntry

/-- Writing `notes` deletes `notes.tmp`. -/
theorem draft_lost : ¬ ∀ (fs : SandboxFS) (t : DirectoryTree) (path : Path) (content : String),
    TouchesOne fs t path content := by
  intro hClaim
  have hOne := hClaim ⟨[[]], List.cons_ne_nil _ _⟩ draftTree ⟨"/", ["notes"]⟩ ""
  have hCall : ∃ v : World, (SandboxFS.mk [[]] (List.cons_ne_nil _ _)).writeText ⟨"/", ["notes"]⟩ ""
      ⟨draftTree.disk, []⟩ = (.ok ["notes"], v) ∧ v.disk.entry ["notes.tmp"] = none :=
    ⟨_, rfl, rfl⟩
  obtain ⟨v, hRun, hGone⟩ := hCall
  have hKept := hOne.others _ v hRun ["notes.tmp"] (.file [104, 105]) (by decide) rfl
  rw [hGone] at hKept
  cases hKept

end Frame
end L0vi0x.Agents.SandboxFS
