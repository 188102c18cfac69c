import L0vi0x.Chain.FoundryTrace

/-! The walk of an arena ends. Each pass takes an entry off the stack, or puts a
node on it that no pass has visited. -/
namespace L0vi0x.Chain

open L0vi0x.Python L0vi0x.Core

section Termination

/-- The entries of the ordering of a node, read or not. -/
def ArenaNode.entryCount (node : ArenaNode) : Nat := (node.listed "ordering").length

/-- The passes that the nodes not visited yet can still cost. -/
def unvisitedCost (arena : List ArenaNode) (visited : List Int) : Nat :=
  ((arena.filter fun node => !visited.contains node.idx).map (·.entryCount + 1)).sum

/-- The passes that the loop can still make. -/
def WalkState.cost (arena : List ArenaNode) (s : WalkState) : Nat :=
  ((s.top :: s.below).map (·.steps.length + 1)).sum + unvisitedCost arena s.visited

theorem length_of_mapM {α β : Type} {f : α → Option β} {xs : List α} {ys : List β}
    (h : xs.mapM f = some ys) : ys.length = xs.length := by
  induction xs generalizing ys with
  | nil =>
      rw [List.mapM_nil] at h
      cases h
      rfl
  | cons x xs ih =>
      simp only [List.mapM_cons, bind, Option.bind_eq_some_iff] at h
      obtain ⟨y, _, more, hMore, hEq⟩ := h
      cases hEq
      rw [List.length_cons, List.length_cons, ih hMore]

theorem ordering_length {node : ArenaNode} {steps : List Fields}
    (h : ordering node = .ok steps) : steps.length = node.entryCount := by
  unfold ordering at h
  unfold ArenaNode.entryCount ArenaNode.listed
  cases hValue : node.get "ordering" with
  | arr items =>
      simp only [hValue] at h
      split at h
      · rename_i entries hEntries
        rw [pure_eq_ok] at h
        rw [← h, length_of_mapM hEntries]
      · simp [formatError] at h
  | _ => simp [hValue, formatError] at h

/-- Visiting a node takes at least its own entries off the cost. -/
theorem unvisitedCost_visit {arena : List ArenaNode} {visited : List Int} {node : ArenaNode}
    (hMem : node ∈ arena) (hFresh : node.idx ∉ visited) :
    unvisitedCost arena (visited ++ [node.idx]) + (node.entryCount + 1) ≤
      unvisitedCost arena visited := by
  -- more visited indices leave fewer nodes, whatever the arena
  have hLe : ∀ rest : List ArenaNode,
      unvisitedCost rest (visited ++ [node.idx]) ≤ unvisitedCost rest visited := by
    intro rest
    induction rest with
    | nil => exact le_rfl
    | cons other rest ih =>
        unfold unvisitedCost at ih ⊢
        by_cases hOld : other.idx ∈ visited <;> by_cases hNew : other.idx = node.idx <;>
          simp [hOld, hNew, hFresh] at ih ⊢ <;> omega
  induction arena with
  | nil => cases hMem
  | cons other rest ih =>
      have hRest := hLe rest
      rcases List.mem_cons.mp hMem with rfl | hMem
      · unfold unvisitedCost at hRest ⊢
        simp [hFresh] at hRest ⊢
        omega
      · have hIh := ih hMem
        unfold unvisitedCost at hIh ⊢
        by_cases hOld : other.idx ∈ visited <;> by_cases hNew : other.idx = node.idx <;>
          simp [hOld, hNew, hFresh] at hIh ⊢ <;> omega

theorem lookupNode_mem {arena : List ArenaNode} {reference : Json} {node : ArenaNode}
    (h : lookupNode arena reference = .ok (some node)) : node ∈ arena := by
  unfold lookupNode at h
  split at h
  · simp at h
  · simp at h
  · rw [pure_eq_ok] at h
    exact List.mem_of_find?_eq_some h

/-- A child is looked up by the reference at its position. -/
theorem childAt_eq_ok {arena : List ArenaNode} {node child : ArenaNode} {position : Nat}
    (h : childAt arena node position = .ok child) :
    lookupNode arena ((node.listed "children")[position]?.getD .null) = .ok (some child) ∧
      (child.get "parent").pyEq (.int node.idx) = true := by
  unfold childAt at h
  rw [bind_eq_ok] at h
  obtain ⟨found, hFound, h⟩ := h
  cases found with
  | none => simp [formatError] at h
  | some found =>
      by_cases hParent : (found.get "parent").pyEq (.int node.idx) = true
      · simp only [hParent, ↓reduceIte, pure_eq_ok] at h
        subst h
        exact ⟨hFound, hParent⟩
      · simp [hParent, formatError] at h

/-- What opening a node establishes. -/
theorem openNode_eq_ok {host : Host} {phase : Phase} {visited : List Int} {reverted : Bool}
    {node : ArenaNode} {opened : OpenNode}
    (h : openNode host phase visited reverted node = .ok opened) :
    ∃ head steps, node.idx ∉ visited ∧ openFrame host phase node = .ok head ∧
      ordering node = .ok steps ∧
      opened = ⟨node, head, reverted || !head.success, steps, [], [], [], []⟩ := by
  simp only [openNode, bind_eq_ok, raiseIf_eq_ok, pure_eq_ok] at h
  obtain ⟨_, hFresh, head, hHead, steps, hSteps, rfl⟩ := h
  exact ⟨head, steps, by simpa using hFresh, hHead, hSteps, rfl⟩

variable {host : Host} {phase : Phase} {arena : List ArenaNode} {s t : WalkState}
  {rest : List Fields} {value : Json}

/-- What taking a call establishes. -/
theorem takeCall_eq_ok (h : takeCall host phase arena s rest value = .ok t) :
    ∃ position child opened,
      freePosition value (s.top.node.listed "children").length s.top.calls = some position ∧
      childAt arena s.top.node position = .ok child ∧
      openNode host phase s.visited s.top.reverted child = .ok opened ∧
      t = ⟨opened, { s.top with steps := rest, calls := s.top.calls ++ [position] } :: s.below,
        s.visited ++ [child.idx], s.derived⟩ := by
  unfold takeCall at h
  split at h
  · simp [formatError] at h
  · rename_i position hPosition
    simp only [bind_eq_ok, pure_eq_ok] at h
    obtain ⟨child, hChild, opened, hOpened, rfl⟩ := h
    exact ⟨position, child, opened, hPosition, hChild, hOpened, rfl⟩

/-- What taking a log establishes. -/
theorem takeLog_eq_ok (h : takeLog host s rest value = .ok t) :
    ∃ position log,
      freePosition value (s.top.node.listed "logs").length s.top.positions = some position ∧
      convertLog host ((s.top.node.listed "logs")[position]?.getD .null) s.top.reverted =
        .ok log ∧
      t = ⟨{ s.top with steps := rest, positions := s.top.positions ++ [position],
                        logs := s.top.logs ++ [log] },
        s.below, s.visited, s.derived ++ [log.derived]⟩ := by
  unfold takeLog at h
  split at h
  · simp [formatError] at h
  · rename_i position hPosition
    simp only [bind_eq_ok, pure_eq_ok] at h
    obtain ⟨log, hLog, rfl⟩ := h
    exact ⟨position, log, hPosition, hLog, rfl⟩

/-- What a pass leads to: a finished node is popped, or an entry of the ordering of
the top is taken. -/
theorem walkStep_eq_ok {next : Progress} (h : walkStep host phase arena s = .ok next) :
    (s.top.steps = [] ∧ requireConsumed s.top = .ok () ∧
      next = popFrame s.top.frame s.below s.visited s.derived) ∨
    ∃ entry rest t, s.top.steps = entry :: rest ∧ next = .running t ∧
      (arenaStep entry = .skip ∧ t = { s with top := { s.top with steps := rest } } ∨
        (∃ value, arenaStep entry = .call value ∧
          takeCall host phase arena s rest value = .ok t) ∨
        ∃ value, arenaStep entry = .log value ∧ takeLog host s rest value = .ok t) := by
  unfold walkStep at h
  cases hSteps : s.top.steps with
  | nil =>
      simp only [hSteps, bind_eq_ok, pure_eq_ok] at h
      obtain ⟨_, hConsumed, rfl⟩ := h
      exact .inl ⟨rfl, hConsumed, rfl⟩
  | cons entry rest =>
      refine .inr ⟨entry, rest, ?_⟩
      simp only [hSteps] at h
      cases hEntry : arenaStep entry with
      | skip =>
          rw [hEntry, pure_eq_ok] at h
          exact ⟨_, rfl, h.symm, .inl ⟨rfl, rfl⟩⟩
      | call value =>
          simp only [hEntry, map_eq_ok] at h
          obtain ⟨t, hTake, rfl⟩ := h
          exact ⟨t, rfl, rfl, .inr (.inl ⟨value, rfl, hTake⟩)⟩
      | log value =>
          simp only [hEntry, map_eq_ok] at h
          obtain ⟨t, hTake, rfl⟩ := h
          exact ⟨t, rfl, rfl, .inr (.inr ⟨value, rfl, hTake⟩)⟩
      | unknown => simp [hEntry, formatError] at h

/-- Every pass lowers the cost. -/
theorem walkStep_cost (h : walkStep host phase arena s = .ok (.running t)) :
    t.cost arena < s.cost arena := by
  rcases walkStep_eq_ok h with ⟨hSteps, _, hPop⟩ | ⟨entry, rest, t', hSteps, hNext, hCase⟩
  · cases hBelow : s.below with
    | nil => simp [popFrame, hBelow] at hPop
    | cons parent below =>
        simp only [popFrame, hBelow, Progress.running.injEq] at hPop
        subst hPop
        simp only [WalkState.cost, hSteps, hBelow, List.map_cons, List.sum_cons, List.length_nil]
        omega
  · cases hNext
    rcases hCase with ⟨_, rfl⟩ | ⟨value, _, hTake⟩ | ⟨value, _, hTake⟩
    · simp only [WalkState.cost, hSteps, List.map_cons, List.sum_cons, List.length_cons]
      omega
    · obtain ⟨position, child, opened, _, hChild, hOpened, rfl⟩ := takeCall_eq_ok hTake
      obtain ⟨head, steps, hFresh, _, hOrder, rfl⟩ := openNode_eq_ok hOpened
      have hVisit := unvisitedCost_visit (lookupNode_mem (childAt_eq_ok hChild).1) hFresh
      have hLength := ordering_length hOrder
      simp only [WalkState.cost, hSteps, List.map_cons, List.sum_cons, List.length_cons]
      omega
    · obtain ⟨position, log, _, _, rfl⟩ := takeLog_eq_ok hTake
      simp only [WalkState.cost, hSteps, List.map_cons, List.sum_cons, List.length_cons]
      omega

/-- The loop ends within its cost. -/
theorem walk_isSome {fuel : Nat} (h : s.cost arena < fuel) :
    (walk host phase arena fuel s).isSome = true := by
  induction fuel generalizing s with
  | zero => omega
  | succ fuel ih =>
      unfold walk
      cases hStep : walkStep host phase arena s with
      | error e => rfl
      | ok progress =>
          cases progress with
          | finished w => rfl
          | running t =>
              have hCost := walkStep_cost hStep
              exact ih (by omega)

end Termination

section Arenas

/-- The state before the first pass: the only root node, opened. -/
def startWalk (host : Host) (phase : Phase) (arena : List ArenaNode) (before : List DerivedLog) :
    Py WalkState :=
  match arena.filter ArenaNode.isRoot with
  | [root] => do
      let opened ← openNode host phase [] false root
      pure ⟨opened, [], [root.idx], before⟩
  | _ => formatError "arena must have exactly one root node"

/-- The root frame of an arena and the logs after it, of a walk over all its nodes. -/
def walkedAll (arena : List ArenaNode) (w : Walked) : Py (ArenaFrame × List DerivedLog) := do
  raiseIf (w.visited.length ≠ arena.length) .foundryTraceFormatError
    "arena contains nodes that are unreachable from its root"
  pure (w.frame, w.derived)

/-- `_convert_arena(nodes, phase, derived_logs)`, its loop for at most `fuel` passes:
the root frame and the logs derived so far. -/
def convertArenaWithin (fuel : Nat) (host : Host) (phase : Phase) (nodes : List Fields)
    (before : List DerivedLog) : Option (Py (ArenaFrame × List DerivedLog)) :=
  match indexNodes nodes with
  | .error e => some (.error e)
  | .ok arena => match startWalk host phase arena before with
      | .error e => some (.error e)
      | .ok s => (walk host phase arena fuel s).map fun outcome => outcome >>= walkedAll arena

def arenaFuel (nodes : List Fields) : Nat :=
  (nodes.map fun fields => (ArenaNode.mk 0 fields).entryCount + 1).sum + 1

/-- Indexed nodes are the given ones, with distinct indices. -/
theorem indexNodes_eq_ok {nodes : List Fields} {arena : List ArenaNode}
    (h : indexNodes nodes = .ok arena) :
    arena.map ArenaNode.fields = nodes ∧ (arena.map ArenaNode.idx).Nodup := by
  refine foldlM_induction (fun done arena =>
    arena.map ArenaNode.fields = done ∧ (arena.map ArenaNode.idx).Nodup) ⟨rfl, .nil⟩ ?_ h
  intro done arena fields next hDone hStep
  split at hStep
  · rename_i idx _
    split at hStep
    · simp [formatError] at hStep
    · rename_i hNew
      rw [pure_eq_ok] at hStep
      subst hStep
      refine ⟨by simp [hDone.1], ?_⟩
      rw [List.map_append, List.nodup_append]
      refine ⟨hDone.2, by simp, ?_⟩
      intro other hOther new hIdx
      obtain ⟨node, hNode, rfl⟩ := List.mem_map.mp hOther
      simp only [List.map_cons, List.map_nil, List.mem_singleton] at hIdx
      subst hIdx
      simp only [List.any_eq_true, decide_eq_true_eq, not_exists, not_and] at hNew
      exact hNew node hNode
  · simp [formatError] at hStep

theorem startWalk_eq_ok {host : Host} {phase : Phase} {arena : List ArenaNode}
    {before : List DerivedLog} {s : WalkState} (h : startWalk host phase arena before = .ok s) :
    ∃ root opened, arena.filter ArenaNode.isRoot = [root] ∧
      openNode host phase [] false root = .ok opened ∧ s = ⟨opened, [], [root.idx], before⟩ := by
  unfold startWalk at h
  split at h
  · rename_i root hRoot
    simp only [bind_eq_ok, pure_eq_ok] at h
    obtain ⟨opened, hOpened, rfl⟩ := h
    exact ⟨root, opened, hRoot, hOpened, rfl⟩
  · simp [formatError] at h

/-- The conversion ends on every list of nodes. -/
theorem convertArena_terminates (host : Host) (phase : Phase) (nodes : List Fields)
    (before : List DerivedLog) :
    (convertArenaWithin (arenaFuel nodes) host phase nodes before).isSome = true := by
  unfold convertArenaWithin
  cases hIndex : indexNodes nodes with
  | error e => rfl
  | ok arena =>
      cases hStart : startWalk host phase arena before with
      | error e => simp only [hStart, Option.isSome_some]
      | ok s =>
          obtain ⟨root, opened, hRoot, hOpened, rfl⟩ := startWalk_eq_ok hStart
          obtain ⟨head, steps, hFresh, _, hOrder, rfl⟩ := openNode_eq_ok hOpened
          have hMem : root ∈ arena := by
            have hFilter : root ∈ arena.filter ArenaNode.isRoot := by simp [hRoot]
            exact List.mem_of_mem_filter hFilter
          have hVisit := unvisitedCost_visit hMem hFresh
          have hLength := ordering_length hOrder
          have hAll : unvisitedCost arena [] + 1 = arenaFuel nodes := by
            rw [← (indexNodes_eq_ok hIndex).1]
            simp only [unvisitedCost, arenaFuel, List.map_map]
            simp [ArenaNode.entryCount, ArenaNode.listed, ArenaNode.get, Function.comp_def]
          simp only [hStart, Option.isSome_map]
          refine walk_isSome ?_
          simp only [WalkState.cost, List.map_cons, List.sum_cons, List.map_nil, List.sum_nil,
            List.nil_append] at hVisit ⊢
          omega

def convertArena (host : Host) (phase : Phase) (nodes : List Fields) (before : List DerivedLog) :
    Py (ArenaFrame × List DerivedLog) :=
  (convertArenaWithin (arenaFuel nodes) host phase nodes before).get
    (convertArena_terminates host phase nodes before)

end Arenas

end L0vi0x.Chain
