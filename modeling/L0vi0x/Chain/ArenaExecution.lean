import L0vi0x.Chain.ArenaWalk

/-! The execution that an arena records, and that the walk of `_convert_arena` finds
all of it: every node has one frame, and its calls and logs stand in their order. -/
namespace L0vi0x.Chain

open L0vi0x.Python L0vi0x.Core

/-- What a node does, in order: the logs that it emits and the calls that it makes,
each with what the called node does in turn. A position is that in the node's lists. -/
inductive Execution
  | done
  | log (position : Nat) (entry : Json) (rest : Execution)
  | call (position : Nat) (child : ArenaNode) (inner rest : Execution)

namespace Execution

/-- The positions of the calls that the node itself makes. -/
def calls : Execution → List Nat
  | .done => []
  | .log _ _ rest => rest.calls
  | .call position _ _ rest => position :: rest.calls

/-- The positions of the logs that the node itself emits. -/
def positions : Execution → List Nat
  | .done => []
  | .log position _ rest => position :: rest.positions
  | .call _ _ _ rest => rest.positions

def called : Execution → List ArenaNode
  | .done => []
  | .log _ _ rest => rest.called
  | .call _ child _ rest => child :: rest.called

def entries : Execution → List Json
  | .done => []
  | .log _ entry rest => entry :: rest.entries
  | .call _ _ _ rest => rest.entries

/-- The nodes below a node, depth first. -/
def order : Execution → List ArenaNode
  | .done => []
  | .log _ _ rest => rest.order
  | .call _ child inner rest => child :: inner.order ++ rest.order

/-- The logs of a node and of the nodes below it, depth first: the node that emits
one and its position there. -/
def emits (node : ArenaNode) : Execution → List (ArenaNode × Nat)
  | .done => []
  | .log position _ rest => (node, position) :: rest.emits node
  | .call _ child inner rest => inner.emits child ++ rest.emits node

end Execution

/-- A node with the nodes on the way to it from the root, and what it does. -/
structure Visit where
  above : List ArenaNode
  node : ArenaNode
  inner : Execution

/-- The visits below a node, depth first. -/
def Execution.visits (above : List ArenaNode) : Execution → List Visit
  | .done => []
  | .log _ _ rest => rest.visits above
  | .call _ child inner rest =>
      ⟨above, child, inner⟩ :: inner.visits (above ++ [child]) ++ rest.visits above

section Recorded

variable (arena : List ArenaNode)

/-- Every child and every log of the node is taken once. -/
structure Whole (node : ArenaNode) (e : Execution) : Prop where
  calls : e.calls.Perm (List.range (node.listed "children").length)
  logs : e.positions.Perm (List.range (node.listed "logs").length)

/-- The node that a position among the children stands for, which points back. -/
structure IsChild (node : ArenaNode) (position : Nat) (child : ArenaNode) : Prop where
  mem : child ∈ arena
  bound : position < (node.listed "children").length
  named : ((node.listed "children")[position]?.getD .null).pyEq (.int child.idx) = true
  parent : (child.get "parent").pyEq (.int node.idx) = true

/-- The entries of an ordering record this execution of a node. -/
inductive Records : ArenaNode → List Fields → Execution → Prop
  | done {node : ArenaNode} : Records node [] .done
  | skip {node : ArenaNode} {entry : Fields} {rest : List Fields} {e : Execution}
      (step : arenaStep entry = .skip) (more : Records node rest e) :
      Records node (entry :: rest) e
  | log {node : ArenaNode} {entry : Fields} {rest : List Fields} {value : Json}
      {position : Nat} {e : Execution} (step : arenaStep entry = .log value)
      (taken : positionOf value = some position)
      (bound : position < (node.listed "logs").length) (more : Records node rest e) :
      Records node (entry :: rest)
        (.log position ((node.listed "logs")[position]?.getD .null) e)
  | call {node : ArenaNode} {entry : Fields} {rest steps : List Fields} {value : Json}
      {position : Nat} {child : ArenaNode} {inner e : Execution}
      (step : arenaStep entry = .call value) (taken : positionOf value = some position)
      (isChild : IsChild arena node position child) (ordered : ordering child = .ok steps)
      (own : Records child steps inner) (whole : Whole child inner)
      (more : Records node rest e) :
      Records node (entry :: rest) (.call position child inner e)

/-- The execution that an arena records from its only root, all of its nodes once. -/
structure Executes (root : ArenaNode) (inner : Execution) : Prop where
  only : arena.filter ArenaNode.isRoot = [root]
  records : ∃ steps, ordering root = .ok steps ∧ Records arena root steps inner
  whole : Whole root inner
  nodes : (root :: inner.order).Perm arena

end Recorded

section Frames

namespace ArenaFrame

def head : ArenaFrame → FrameHead
  | .mk head _ _ => head

def logs : ArenaFrame → List ArenaLog
  | .mk _ logs _ => logs

def children : ArenaFrame → List ArenaFrame
  | .mk _ _ children => children

mutual
/-- A frame and the frames below it, depth first. -/
def preorder : ArenaFrame → List ArenaFrame
  | .mk head logs children => .mk head logs children :: preorderAll children

def preorderAll : List ArenaFrame → List ArenaFrame
  | [] => []
  | f :: rest => f.preorder ++ preorderAll rest
end

end ArenaFrame

def ArenaNode.failed (node : ArenaNode) : Bool :=
  (node.get "trace").getD "success" .null = .bool false

variable (host : Host) (phase : Phase)

/-- The frame of a visited node: the frames of its children and its logs stand in the
order of its ordering, and its logs are marked as reverted by a failed call. -/
structure FrameOf (v : Visit) (f : ArenaFrame) : Prop where
  head : openFrame host phase v.node = .ok f.head
  children : List.Forall₂ (fun child g => openFrame host phase child = .ok g.head)
    v.inner.called f.children
  logs : List.Forall₂ (fun entry log => convertLog host entry log.reverted = .ok log)
    v.inner.entries f.logs
  reverted : ∀ log ∈ f.logs, (log.reverted = true ↔ ∃ n ∈ v.above ++ [v.node], n.failed = true)

/-- What an execution leaves: the frames of its calls, its own logs, and all logs
emitted meanwhile. -/
structure Made where
  children : List ArenaFrame
  logs : List ArenaLog
  emitted : List ArenaLog

/-- The frames and logs of an execution, by recursion on it. -/
def Execution.make (reverted : Bool) : Execution → Py Made
  | .done => pure ⟨[], [], []⟩
  | .log _ entry rest => do
      let log ← convertLog host entry reverted
      let more ← rest.make reverted
      pure ⟨more.children, log :: more.logs, log :: more.emitted⟩
  | .call _ child inner rest => do
      let head ← openFrame host phase child
      let own ← inner.make (reverted || !head.success)
      let more ← rest.make reverted
      pure ⟨.mk head own.logs own.children :: more.children, more.logs,
        own.emitted ++ more.emitted⟩

end Frames

section Walk

variable {host : Host} {phase : Phase} {arena : List ArenaNode}

/-- The positions taken so far are different ones of the node's lists. -/
structure Taken (o : OpenNode) : Prop where
  calls : o.calls.Nodup ∧ ∀ p ∈ o.calls, p < (o.node.listed "children").length
  positions : o.positions.Nodup ∧ ∀ p ∈ o.positions, p < (o.node.listed "logs").length

/-- A free position is one of the list, and was not taken. -/
theorem freePosition_eq_some {value : Json} {size position : Nat} {taken : List Nat}
    (h : freePosition value size taken = some position) :
    positionOf value = some position ∧ position < size ∧ position ∉ taken := by
  simpa [freePosition, Option.filter_eq_some_iff] using h

theorem taken_snoc {taken : List Nat} {size position : Nat}
    (h : taken.Nodup ∧ ∀ p ∈ taken, p < size) (hSize : position < size)
    (hFree : position ∉ taken) :
    (taken ++ [position]).Nodup ∧ ∀ p ∈ taken ++ [position], p < size := by
  refine ⟨List.nodup_append.mpr ⟨h.1, by simp, ?_⟩, ?_⟩
  · rintro p hp q hq rfl
    exact hFree (List.mem_singleton.mp hq ▸ hp)
  · intro p hp
    rcases List.mem_append.mp hp with hp | hp
    · exact h.2 p hp
    · rwa [List.mem_singleton.mp hp]

/-- As many different positions as there are items are all of them. -/
theorem perm_range_of_sizeOrZero {node : ArenaNode} {key : String} {taken : List Nat}
    (h : taken.Nodup ∧ ∀ p ∈ taken, p < (node.listed key).length)
    (hSize : sizeOrZero (node.get key) = .ok taken.length) :
    taken.Perm (List.range (node.listed key).length) := by
  have hLength : (node.listed key).length ≤ taken.length := by
    unfold ArenaNode.listed
    unfold sizeOrZero at hSize
    cases hValue : node.get key with
    | arr items =>
        cases items with
        | nil => simp
        | cons item items =>
            rw [hValue] at hSize
            simp only [Json.truthy, List.isEmpty_cons, Bool.not_false, Bool.not_true,
              Bool.false_eq_true, ↓reduceIte, pure_eq_ok] at hSize
            exact hSize.le
    | _ => simp
  have hSubset : taken ⊆ List.range (node.listed key).length :=
    fun p hp => List.mem_range.mpr (h.2 p hp)
  exact (List.subperm_of_subset h.1 hSubset).perm_of_length_le (by simpa using hLength)

/-- A node is left when all of its children and all of its logs were taken once. -/
theorem requireConsumed_eq_ok {o : OpenNode} (hTaken : Taken o)
    (h : requireConsumed o = .ok ()) :
    o.calls.Perm (List.range (o.node.listed "children").length) ∧
      o.positions.Perm (List.range (o.node.listed "logs").length) := by
  simp only [requireConsumed, bind_eq_ok, raiseIf_eq_ok, decide_eq_false_iff_not,
    not_not] at h
  obtain ⟨children, hChildren, _, hCalls, logs, hLogs, hPositions⟩ := h
  exact ⟨perm_range_of_sizeOrZero hTaken.calls (hCalls ▸ hChildren),
    perm_range_of_sizeOrZero hTaken.positions (hPositions ▸ hLogs)⟩

/-- A child that is found at a position is the one that stands there. -/
theorem isChild_of_childAt {node child : ArenaNode} {position : Nat}
    (hBound : position < (node.listed "children").length)
    (h : childAt arena node position = .ok child) : IsChild arena node position child := by
  obtain ⟨hFound, hParent⟩ := childAt_eq_ok h
  refine ⟨lookupNode_mem hFound, hBound, ?_, hParent⟩
  unfold lookupNode at hFound
  split at hFound
  · simp at hFound
  · simp at hFound
  · rw [pure_eq_ok] at hFound
    simpa using List.find?_some hFound

/-- The rest of the loop after a pass. -/
def resume (host : Host) (phase : Phase) (arena : List ArenaNode) (fuel : Nat) :
    Progress → Option (Py Walked)
  | .running s => walk host phase arena fuel s
  | .finished w => some (.ok w)

/-- What the loop does with the node on top, until it pops the node. -/
structure TopDone (host : Host) (phase : Phase) (arena : List ArenaNode) (s : WalkState)
    (fuel : Nat) (w : Walked) (e : Execution) (made : Made) : Prop where
  records : Records arena s.top.node s.top.steps e
  calls : (s.top.calls ++ e.calls).Perm (List.range (s.top.node.listed "children").length)
  logs : (s.top.positions ++ e.positions).Perm (List.range (s.top.node.listed "logs").length)
  make : e.make host phase s.top.reverted = .ok made
  fresh : s.visited.Nodup → (s.visited ++ e.order.map ArenaNode.idx).Nodup
  popped : ∃ less < fuel, resume host phase arena less
    (popFrame (.mk s.top.head (s.top.logs ++ made.logs) (s.top.children ++ made.children))
      s.below (s.visited ++ e.order.map ArenaNode.idx)
      (s.derived ++ made.emitted.map ArenaLog.derived)) = some (.ok w)

theorem walk_succ {fuel : Nat} {s : WalkState} {w : Walked}
    (h : walk host phase arena (fuel + 1) s = some (.ok w)) :
    ∃ next, walkStep host phase arena s = .ok next ∧
      resume host phase arena fuel next = some (.ok w) := by
  unfold walk at h
  split at h
  · cases h
  · rename_i w' hStep
    exact ⟨_, hStep, h⟩
  · rename_i t hStep
    exact ⟨_, hStep, h⟩

/-- The loop takes the whole ordering of the node on top before it pops the node.
By induction on the passes left: a call runs the child until it is popped, and the
node goes on from there. -/
theorem walk_topDone {fuel : Nat} {s : WalkState} {w : Walked}
    (h : walk host phase arena fuel s = some (.ok w)) (hTaken : Taken s.top) :
    ∃ e made, TopDone host phase arena s fuel w e made := by
  induction fuel using Nat.strong_induction_on generalizing s with
  | _ fuel ih =>
    obtain _ | fuel := fuel
    · cases h
    obtain ⟨next, hStep, hNext⟩ := walk_succ h
    rcases walkStep_eq_ok hStep with ⟨hSteps, hConsumed, rfl⟩ |
      ⟨entry, rest, t, hSteps, rfl, hCase⟩
    · obtain ⟨hCalls, hLogs⟩ := requireConsumed_eq_ok hTaken hConsumed
      refine ⟨.done, ⟨[], [], []⟩, hSteps ▸ .done, ?_, ?_, rfl, ?_, fuel, by omega, ?_⟩
      · simpa [Execution.calls] using hCalls
      · simpa [Execution.positions] using hLogs
      · simp [Execution.order]
      · simpa [Execution.order, OpenNode.frame] using hNext
    rcases hCase with ⟨hEntry, rfl⟩ | ⟨value, hEntry, hTake⟩ | ⟨value, hEntry, hTake⟩
    · obtain ⟨e, made, hDone⟩ := ih fuel (by omega) hNext ⟨hTaken.calls, hTaken.positions⟩
      obtain ⟨less, hLess, hPopped⟩ := hDone.popped
      exact ⟨e, made, hSteps ▸ .skip hEntry hDone.records, hDone.calls, hDone.logs, hDone.make,
        hDone.fresh, less, by omega, hPopped⟩
    · obtain ⟨position, child, opened, hPosition, hChild, hOpened, rfl⟩ := takeCall_eq_ok hTake
      obtain ⟨hGiven, hBound, hFree⟩ := freePosition_eq_some hPosition
      obtain ⟨head, steps, hFresh, hHead, hOrder, rfl⟩ := openNode_eq_ok hOpened
      -- the child, until it is popped
      obtain ⟨inner, own, hInner⟩ := ih fuel (by omega) hNext ⟨by simp, by simp⟩
      obtain ⟨less, hLess, hPopped⟩ := hInner.popped
      -- the node, from there
      obtain ⟨e, made, hDone⟩ := ih less (by omega) hPopped
        ⟨taken_snoc hTaken.calls hBound hFree, hTaken.positions⟩
      obtain ⟨less', hLess', hPopped'⟩ := hDone.popped
      refine ⟨.call position child inner e,
        ⟨.mk head own.logs own.children :: made.children, made.logs, own.emitted ++ made.emitted⟩,
        ?_, ?_, ?_, ?_, ?_, less', by omega, ?_⟩
      · have hWhole : Whole child inner := ⟨by simpa using hInner.calls, by simpa using hInner.logs⟩
        exact hSteps ▸ .call hEntry hGiven (isChild_of_childAt hBound hChild) hOrder
          hInner.records hWhole hDone.records
      · simpa [Execution.calls] using hDone.calls
      · simpa [Execution.positions] using hDone.logs
      · have hOwn := hInner.make
        have hMore := hDone.make
        simp only at hOwn hMore
        simp [Execution.make, hHead, hOwn, hMore, bind, Except.bind, pure, Except.pure]
      · intro hNodup
        have hChildNodup := hInner.fresh (List.nodup_append.mpr ⟨hNodup, by simp, by
          rintro i hi j hj rfl
          exact hFresh (List.mem_singleton.mp hj ▸ hi)⟩)
        have hAll := hDone.fresh hChildNodup
        simpa [Execution.order] using hAll
      · simpa [Execution.order] using hPopped'
    · obtain ⟨position, log, hPosition, hLog, rfl⟩ := takeLog_eq_ok hTake
      obtain ⟨hGiven, hBound, hFree⟩ := freePosition_eq_some hPosition
      obtain ⟨e, made, hDone⟩ := ih fuel (by omega) hNext
        ⟨hTaken.calls, taken_snoc hTaken.positions hBound hFree⟩
      obtain ⟨less, hLess, hPopped⟩ := hDone.popped
      refine ⟨.log position ((s.top.node.listed "logs")[position]?.getD .null) e,
        ⟨made.children, log :: made.logs, log :: made.emitted⟩, ?_, ?_, ?_, ?_, ?_,
        less, by omega, ?_⟩
      · exact hSteps ▸ .log hEntry hGiven hBound hDone.records
      · simpa [Execution.calls] using hDone.calls
      · simpa [Execution.positions] using hDone.logs
      · have hMore := hDone.make
        simp only at hMore
        simp [Execution.make, hLog, hMore, bind, Except.bind, pure, Except.pure]
      · simpa [Execution.order] using hDone.fresh
      · simpa [Execution.order] using hPopped

end Walk

section Made

variable {host : Host} {phase : Phase} {arena : List ArenaNode}

theorem convertLog_reverted {entry : Json} {reverted : Bool} {log : ArenaLog}
    (h : convertLog host entry reverted = .ok log) : log.reverted = reverted := by
  unfold convertLog at h
  split at h
  · simp only [bind_eq_ok, pure_eq_ok] at h
    obtain ⟨_, _, _, _, _, _, _, _, _, _, rfl⟩ := h
    rfl
  · simp [formatError] at h

/-- A frame has succeeded unless its node has failed. -/
theorem openFrame_success {node : ArenaNode} {head : FrameHead}
    (h : openFrame host phase node = .ok head) : head.success = !node.failed := by
  unfold openFrame at h
  unfold ArenaNode.failed
  split at h
  · rename_i fields hTrace
    simp only [bind_eq_ok, pure_eq_ok] at h
    obtain ⟨_, _, _, _, _, _, success, hSuccess, _, _, _, _, _, _, _, _, rfl⟩ := h
    rw [hTrace]
    unfold traceSuccess at hSuccess
    split at hSuccess
    · rename_i b hFlag
      rw [pure_eq_ok] at hSuccess
      subst hSuccess
      cases b <;> simp [hFlag]
    · simp [formatError] at hSuccess
  · simp [formatError] at h

/-- The visits are those of the nodes depth first. -/
theorem visits_order (above : List ArenaNode) (e : Execution) :
    (e.visits above).map Visit.node = e.order := by
  induction e generalizing above with
  | done => rfl
  | log _ _ rest ih => exact ih above
  | call _ child inner rest ihInner ihRest =>
      simp [Execution.visits, Execution.order, ihInner, ihRest]

/-- The direct calls and logs of an execution, as it was made. -/
theorem made_directly {reverted : Bool} {e : Execution} {made : Made}
    (h : e.make host phase reverted = .ok made) :
    List.Forall₂ (fun child g => openFrame host phase child = .ok g.head) e.called made.children ∧
      List.Forall₂ (fun entry log => convertLog host entry log.reverted = .ok log)
        e.entries made.logs ∧
      ∀ log ∈ made.logs, log.reverted = reverted := by
  induction e generalizing made with
  | done =>
      rw [Execution.make, pure_eq_ok] at h
      subst h
      exact ⟨.nil, .nil, by simp⟩
  | log _ entry rest ih =>
      simp only [Execution.make, bind_eq_ok, pure_eq_ok] at h
      obtain ⟨log, hLog, more, hMore, rfl⟩ := h
      obtain ⟨hCalls, hLogs, hReverted⟩ := ih hMore
      have hMarked := convertLog_reverted hLog
      refine ⟨hCalls, .cons (hMarked ▸ hLog) hLogs, ?_⟩
      exact List.forall_mem_cons.mpr ⟨hMarked, hReverted⟩
  | call _ child inner rest _ ihRest =>
      simp only [Execution.make, bind_eq_ok, pure_eq_ok] at h
      obtain ⟨head, hHead, own, _, more, hMore, rfl⟩ := h
      obtain ⟨hCalls, hLogs, hReverted⟩ := ihRest hMore
      exact ⟨.cons hHead hCalls, hLogs, hReverted⟩

/-- The frame of a node whose execution was made. -/
theorem frameOf_made {above : List ArenaNode} {node : ArenaNode} {head : FrameHead}
    {inner : Execution} {made : Made} (hHead : openFrame host phase node = .ok head)
    (hMade : inner.make host phase (above.any ArenaNode.failed || !head.success) = .ok made) :
    FrameOf host phase ⟨above, node, inner⟩ (.mk head made.logs made.children) := by
  obtain ⟨hCalls, hLogs, hReverted⟩ := made_directly hMade
  refine ⟨hHead, hCalls, hLogs, fun log hLog => ?_⟩
  rw [hReverted log hLog, openFrame_success hHead]
  simp [or_and_right, exists_or]

/-- Every visit below a node has its frame, in depth-first order. -/
theorem frames_made {above : List ArenaNode} {e : Execution} {made : Made}
    (h : e.make host phase (above.any ArenaNode.failed) = .ok made) :
    List.Forall₂ (FrameOf host phase) (e.visits above) (ArenaFrame.preorderAll made.children) := by
  induction e generalizing above made with
  | done =>
      rw [Execution.make, pure_eq_ok] at h
      subst h
      exact .nil
  | log _ _ rest ih =>
      simp only [Execution.make, bind_eq_ok, pure_eq_ok] at h
      obtain ⟨log, _, more, hMore, rfl⟩ := h
      exact @ih above more hMore
  | call _ child inner rest ihInner ihRest =>
      simp only [Execution.make, bind_eq_ok, pure_eq_ok] at h
      obtain ⟨head, hHead, own, hOwn, more, hMore, rfl⟩ := h
      have hBelow : (above ++ [child]).any ArenaNode.failed =
          (above.any ArenaNode.failed || !head.success) := by
        simp [openFrame_success hHead]
      rw [Execution.visits, ArenaFrame.preorderAll, ArenaFrame.preorder]
      refine List.rel_append (.cons (frameOf_made hHead hOwn) ?_) (ihRest hMore)
      exact ihInner (hBelow ▸ hOwn)

/-- The emitted logs are those of the nodes, depth first. -/
theorem emitted_made {reverted : Bool} {node : ArenaNode} {steps : List Fields} {e : Execution}
    {made : Made} (hRecords : Records arena node steps e)
    (h : e.make host phase reverted = .ok made) :
    List.Forall₂ (fun site log => convertLog host
      ((site.1.listed "logs")[site.2]?.getD .null) log.reverted = .ok log)
      (e.emits node) made.emitted := by
  induction hRecords generalizing reverted made with
  | done =>
      rw [Execution.make, pure_eq_ok] at h
      subst h
      exact .nil
  | skip _ _ ih => exact ih h
  | log _ _ _ _ ih =>
      simp only [Execution.make, bind_eq_ok, pure_eq_ok] at h
      obtain ⟨log, hLog, more, hMore, rfl⟩ := h
      exact .cons (convertLog_reverted hLog ▸ hLog) (ih hMore)
  | call _ _ _ _ _ _ _ ihOwn ihMore =>
      simp only [Execution.make, bind_eq_ok, pure_eq_ok] at h
      obtain ⟨head, _, own, hOwn, more, hMore, rfl⟩ := h
      exact List.rel_append (ihOwn hOwn) (ihMore hMore)

/-- The logs of a node, each with its position. -/
def ArenaNode.logsOf (node : ArenaNode) : List (ArenaNode × Nat) :=
  (List.range (node.listed "logs").length).map (node, ·)

/-- The logs emitted are those of the node itself and all logs of the nodes below. -/
theorem emits_perm {node : ArenaNode} {steps : List Fields} {e : Execution}
    (h : Records arena node steps e) :
    (e.emits node).Perm (e.positions.map (node, ·) ++ e.order.flatMap ArenaNode.logsOf) := by
  induction h with
  | done => exact .nil
  | skip _ _ ih => exact ih
  | log _ _ _ _ ih => exact .cons _ ih
  | @call node entry rest steps value position child inner e _ _ _ _ _ whole _ ihOwn ihMore =>
      have hOwn : (inner.emits child).Perm (child.logsOf ++ inner.order.flatMap ArenaNode.logsOf) :=
        ihOwn.trans ((whole.logs.map _).append_right _)
      have hSwap : ((child :: inner.order).flatMap ArenaNode.logsOf ++
          (e.positions.map (node, ·) ++ e.order.flatMap ArenaNode.logsOf)).Perm
          (e.positions.map (node, ·) ++ ((child :: inner.order).flatMap ArenaNode.logsOf ++
            e.order.flatMap ArenaNode.logsOf)) := by
        rw [← List.append_assoc, ← List.append_assoc]
        exact List.perm_append_comm.append_right _
      rw [Execution.order, List.flatMap_append]
      exact (hOwn.append ihMore).trans hSwap

/-- An execution visits nodes of the arena only. -/
theorem order_subset {node : ArenaNode} {steps : List Fields} {e : Execution}
    (h : Records arena node steps e) : e.order ⊆ arena := by
  induction h with
  | done => exact List.nil_subset _
  | skip _ _ ih => exact ih
  | log _ _ _ _ ih => exact ih
  | call _ _ isChild _ _ _ _ ihOwn ihMore =>
      exact List.append_subset.mpr ⟨List.cons_subset.mpr ⟨isChild.mem, ihOwn⟩, ihMore⟩

end Made

section Exactness

variable {host : Host} {phase : Phase}

/-- What a conversion that returns has found: the nodes, the execution that they
record, and what was made of it. -/
structure Converted (host : Host) (phase : Phase) (nodes : List Fields)
    (before : List DerivedLog) (frame : ArenaFrame) (after : List DerivedLog)
    (arena : List ArenaNode) (root : ArenaNode) (inner : Execution) (made : Made) : Prop where
  indexed : indexNodes nodes = .ok arena
  executes : Executes arena root inner
  make : inner.make host phase root.failed = .ok made
  frame : ∃ head, openFrame host phase root = .ok head ∧
    frame = .mk head made.logs made.children
  derived : after = before ++ made.emitted.map ArenaLog.derived

/-- A conversion that returns has found an execution that the arena records. -/
theorem converted_of_convertArena {fuel : Nat} {nodes : List Fields} {before after : List DerivedLog}
    {frame : ArenaFrame}
    (h : convertArenaWithin fuel host phase nodes before = some (.ok (frame, after))) :
    ∃ arena root inner made,
      Converted host phase nodes before frame after arena root inner made := by
  unfold convertArenaWithin at h
  split at h
  · cases h
  · rename_i arena hIndex
    split at h
    · cases h
    · rename_i s hStart
      obtain ⟨root, opened, hRoot, hOpened, rfl⟩ := startWalk_eq_ok hStart
      obtain ⟨head, steps, _, hHead, hOrder, rfl⟩ := openNode_eq_ok hOpened
      rw [Option.map_eq_some_iff] at h
      obtain ⟨outcome, hWalk, h⟩ := h
      simp only [walkedAll, bind_eq_ok, raiseIf_eq_ok, pure_eq_ok, Prod.mk.injEq,
        decide_eq_false_iff_not, not_not] at h
      obtain ⟨w, rfl, _, hCount, rfl, rfl⟩ := h
      obtain ⟨inner, made, hDone⟩ := walk_topDone hWalk ⟨by simp, by simp⟩
      obtain ⟨less, _, hPopped⟩ := hDone.popped
      simp only [popFrame, resume, Option.some.injEq, Except.ok.injEq] at hPopped
      subst hPopped
      have hRecords : Records arena root steps inner := hDone.records
      have hMem : root ∈ arena := by
        have hFilter : root ∈ arena.filter ArenaNode.isRoot := by simp [hRoot]
        exact List.mem_of_mem_filter hFilter
      have hNodup : ((root :: inner.order).map ArenaNode.idx).Nodup := by
        simpa using hDone.fresh (by simp)
      have hNodes : (root :: inner.order).Perm arena := by
        have hSubset : root :: inner.order ⊆ arena :=
          List.cons_subset.mpr ⟨hMem, order_subset hRecords⟩
        refine (List.subperm_of_subset (hNodup.of_map _) hSubset).perm_of_length_le ?_
        simp only [List.length_append, List.length_map, List.length_cons, List.length_nil] at hCount
        rw [List.length_cons]
        omega
      have hMade := hDone.make
      simp only [Bool.false_or, openFrame_success hHead, Bool.not_not] at hMade
      refine ⟨arena, root, inner, made, hIndex, ⟨hRoot, ⟨steps, hOrder, hRecords⟩, ?_, hNodes⟩,
        hMade, ⟨head, hHead, by simp⟩, rfl⟩
      exact ⟨by simpa using hDone.calls, by simpa using hDone.logs⟩

/-- The frame tree and the derived logs are those of the whole arena. -/
structure Exact (host : Host) (phase : Phase) (nodes : List Fields) (before : List DerivedLog)
    (frame : ArenaFrame) (after : List DerivedLog) (arena : List ArenaNode) (root : ArenaNode)
    (inner : Execution) (emitted : List ArenaLog) : Prop where
  /-- The arena holds the given nodes under their indices, and records one execution
  that visits each of them once. -/
  indexed : indexNodes nodes = .ok arena
  executes : Executes arena root inner
  /-- One frame per node, each with the children and logs of its node in order. -/
  frames : List.Forall₂ (FrameOf host phase) (⟨[], root, inner⟩ :: inner.visits [root])
    frame.preorder
  nodes : ((⟨[], root, inner⟩ :: inner.visits [root]).map Visit.node).Perm arena
  /-- The logs appended are all logs of the arena, depth first. -/
  derived : after = before ++ emitted.map ArenaLog.derived
  emitted : List.Forall₂ (fun site log => convertLog host
    ((site.1.listed "logs")[site.2]?.getD .null) log.reverted = .ok log) (inner.emits root) emitted
  once : (inner.emits root).Perm (arena.flatMap ArenaNode.logsOf)

theorem Converted.exact {nodes : List Fields} {before after : List DerivedLog} {frame : ArenaFrame}
    {arena : List ArenaNode} {root : ArenaNode} {inner : Execution} {made : Made}
    (h : Converted host phase nodes before frame after arena root inner made) :
    Exact host phase nodes before frame after arena root inner made.emitted := by
  obtain ⟨head, hHead, rfl⟩ := h.frame
  obtain ⟨steps, _, hRecords⟩ := h.executes.records
  have hMade := h.make
  refine ⟨h.indexed, h.executes, ?_, ?_, h.derived, emitted_made hRecords hMade, ?_⟩
  · rw [ArenaFrame.preorder]
    refine .cons (frameOf_made hHead ?_) (frames_made (by simpa using hMade : inner.make host phase ([root].any _) = _))
    simpa [openFrame_success hHead] using hMade
  · rw [List.map_cons, visits_order]
    exact h.executes.nodes
  · have hOwn := (h.executes.whole.logs.map (root, ·)).append_right
      (inner.order.flatMap ArenaNode.logsOf)
    have hNodes := h.executes.nodes.flatMap_right ArenaNode.logsOf
    rw [List.flatMap_cons] at hNodes
    exact ((emits_perm hRecords).trans hOwn).trans hNodes

/-- The walk of an arena ends on every list of nodes, and where it returns a frame
tree, that tree and the logs appended are exactly those of the arena. -/
theorem convert_arena_exact (host : Host) (phase : Phase) (nodes : List Fields)
    (before : List DerivedLog) :
    (∃ fuel, (convertArenaWithin fuel host phase nodes before).isSome = true) ∧
      ∀ fuel frame after,
        convertArenaWithin fuel host phase nodes before = some (.ok (frame, after)) →
        ∃ arena root inner emitted,
          Exact host phase nodes before frame after arena root inner emitted := by
  refine ⟨⟨arenaFuel nodes, convertArena_terminates host phase nodes before⟩, ?_⟩
  intro fuel frame after h
  obtain ⟨arena, root, inner, made, hConverted⟩ := converted_of_convertArena h
  exact ⟨arena, root, inner, made.emitted, hConverted.exact⟩

theorem returned_of_any {α : Type} {outcome : Option (Py α)}
    (h : outcome.any Except.toBool = true) : ∃ a, outcome = some (.ok a) := by
  cases outcome with
  | none => cases h
  | some result =>
      cases result with
      | error e => cases h
      | ok a => exact ⟨a, rfl⟩

def sampleAddress : String := "0x00000000000000000000000000000000000000aa"

def sampleNode (idx : Int) (parent : Json) (success : Bool) (children logs : List Json)
    (ordering : List Fields) : Fields :=
  [("children", .arr children), ("idx", .int idx), ("logs", .arr logs),
    ("ordering", .arr (ordering.map Json.obj)), ("parent", parent),
    ("trace", .obj [("address", .str sampleAddress), ("caller", .str sampleAddress),
      ("depth", .int 0), ("kind", .str "CALL"), ("success", .bool success)])]

def sampleArena : List Fields :=
  [sampleNode 0 .null true [.int 1] [] [[("Call", .int 0)]],
    sampleNode 1 (.int 0) false []
      [.obj [("address", .str sampleAddress),
        ("raw_log", .obj [("data", .str "0x"), ("topics", .arr [])])]]
      [[("Step", .int 7)], [("Log", .int 0)]]]

theorem sampleArena_returns : (convertArenaWithin 7 (.digesting fun _ => "") .witness sampleArena
    []).any Except.toBool = true := by decide +kernel

/-- What was converted of the sample is all of it. -/
theorem sampleArena_exact : ∃ frame after arena root inner emitted,
    Exact (.digesting fun _ => "") .witness sampleArena [] frame after arena root inner
      emitted := by
  obtain ⟨⟨frame, after⟩, h⟩ := returned_of_any sampleArena_returns
  exact ⟨frame, after, (convert_arena_exact _ _ _ _).2 7 frame after h⟩

end Exactness

end L0vi0x.Chain
