import Mathlib.Algebra.BigOperators.Group.List.Basic
import L0vi0x.Chain.TraceFidelity

/-! Depth and gas of the frames of a Forge payload. The adapter takes the depth that a node
declares; the walk of the arena would give its distance from the root. -/
namespace L0vi0x.Chain

open L0vi0x.Python L0vi0x.Core

section Depth

variable {arena : List ArenaNode}

def ArenaNode.depth (node : ArenaNode) : Json := node.trace.getD "depth" .null

/-- The root declares the depth zero, and every other node one more than its parent. -/
structure DeclaresDepths (arena : List ArenaNode) : Prop where
  root : ∀ node ∈ arena, node.isRoot = true → node.depth = .int 0
  child : ∀ node ∈ arena, ∀ parent ∈ arena,
    (node.get "parent").pyEq (.int parent.idx) = true →
      ∃ d, parent.depth = .int d ∧ node.depth = .int (d + 1)

/-- A node declares its distance from the root. -/
def Visit.AtDistance (v : Visit) : Prop := v.node.depth = .int v.above.length

theorem pyEq_int_unique {j : Json} {a b : Int} (ha : j.pyEq (.int a) = true)
    (hb : j.pyEq (.int b) = true) : a = b := by
  have hNumber : ∀ {n : Int}, j.pyEq (.int n) = true → j.number? = some (.exact n) := by
    intro n h
    cases j with
    | bool b => simpa [Json.pyEq, Json.number?, Number.eq] using h
    | int i => simpa [Json.pyEq, Json.number?, Number.eq] using h
    | float x =>
        simp only [Json.pyEq, Json.number?, Number.eq, decide_eq_true_eq] at h
        simp [Json.number?, h.1]
    | _ => simp [Json.pyEq, Json.number?] at h
  have hSame := (hNumber ha).symm.trans (hNumber hb)
  simpa using hSame

/-- Below a node that declares its distance, every node does. -/
theorem atDistance_visits {node : ArenaNode} {steps : List Fields} {e : Execution}
    (h : Records arena node steps e) (hDeclares : DeclaresDepths arena) :
    ∀ {above : List ArenaNode}, node ∈ arena → node.depth = .int above.length →
      ∀ v ∈ e.visits (above ++ [node]), v.AtDistance := by
  induction h with
  | done =>
      intro above _ _ v hv
      cases hv
  | skip _ _ ih => exact ih
  | log _ _ _ _ ih => exact ih
  | @call node _ _ _ _ position child inner e _ _ isChild _ _ _ _ ihOwn ihMore =>
      intro above hMem hDepth
      have hChild : child.depth = .int (above ++ [node]).length := by
        obtain ⟨d, hParent, hHere⟩ := hDeclares.child child isChild.mem node hMem isChild.parent
        rw [hDepth, Json.int.injEq] at hParent
        rw [hHere, ← hParent]
        simp
      rw [Execution.visits, List.forall_mem_append, List.forall_mem_cons]
      exact ⟨⟨hChild, ihOwn isChild.mem hChild⟩, ihMore hMem hDepth⟩

/-- The last node on the way to a node is the one that its `parent` names. -/
theorem visits_parent {node : ArenaNode} {steps : List Fields} {e : Execution}
    (h : Records arena node steps e) :
    ∀ {above : List ArenaNode}, ∀ v ∈ e.visits (above ++ [node]), ∃ up parent,
      v.above = up ++ [parent] ∧ (v.node.get "parent").pyEq (.int parent.idx) = true ∧
        (parent = node ∧ up = above ∨
          ∃ u ∈ e.visits (above ++ [node]), u.node = parent ∧ u.above = up) := by
  induction h with
  | done =>
      intro above v hv
      cases hv
  | skip _ _ ih => exact ih
  | log _ _ _ _ ih => exact ih
  | @call node _ _ _ _ position child inner e _ _ isChild _ _ _ _ ihOwn ihMore =>
      intro above v hv
      rw [Execution.visits] at hv ⊢
      rcases List.mem_append.mp hv with hHere | hRest
      · rcases List.mem_cons.mp hHere with rfl | hBelow
        · exact ⟨above, node, rfl, isChild.parent, .inl ⟨rfl, rfl⟩⟩
        · obtain ⟨up, parent, hAbove, hParent, hFound⟩ := ihOwn v hBelow
          refine ⟨up, parent, hAbove, hParent, .inr ?_⟩
          rcases hFound with ⟨rfl, rfl⟩ | ⟨u, hu, hNode⟩
          · exact ⟨_, List.mem_append_left _ List.mem_cons_self, rfl, rfl⟩
          · exact ⟨u, List.mem_append_left _ (List.mem_cons_of_mem _ hu), hNode⟩
      · obtain ⟨up, parent, hAbove, hParent, hFound⟩ := ihMore v hRest
        refine ⟨up, parent, hAbove, hParent, hFound.imp_right ?_⟩
        rintro ⟨u, hu, hNode⟩
        exact ⟨u, List.mem_append_right _ hu, hNode⟩

/-- The nodes of an arena declare their distances exactly when each declares one more
than its parent. -/
theorem atDistance_iff {root : ArenaNode} {inner : Execution}
    (hDistinct : (arena.map ArenaNode.idx).Nodup) (h : Executes arena root inner) :
    (∀ v ∈ ⟨[], root, inner⟩ :: inner.visits [root], v.AtDistance) ↔ DeclaresDepths arena := by
  obtain ⟨steps, _, hRecords⟩ := h.records
  have hRoot : root ∈ arena ∧ root.isRoot = true := by
    have hFilter : root ∈ arena.filter ArenaNode.isRoot := by simp [h.only]
    exact List.mem_filter.mp hFilter
  have hVisits : (⟨[], root, inner⟩ :: inner.visits [root]).map Visit.node =
      root :: inner.order := by rw [List.map_cons, visits_order]
  have hMem : ∀ node, node ∈ arena ↔
      ∃ v ∈ ⟨[], root, inner⟩ :: inner.visits [root], v.node = node := by
    intro node
    rw [← h.nodes.mem_iff, ← hVisits, List.mem_map]
  constructor
  · intro hAt
    rw [List.forall_mem_cons] at hAt
    refine ⟨fun node hNode hIsRoot => ?_, fun node hNode parent hParentMem hParent => ?_⟩
    · have hOnly : node ∈ arena.filter ArenaNode.isRoot := List.mem_filter.mpr ⟨hNode, hIsRoot⟩
      rw [h.only, List.mem_singleton] at hOnly
      rw [hOnly]
      exact hAt.1
    · obtain ⟨v, hv, rfl⟩ := (hMem node).mp hNode
      rcases List.mem_cons.mp hv with rfl | hBelow
      · have hNull : root.get "parent" = .null := by simpa [ArenaNode.isRoot] using hRoot.2
        simp [hNull, Json.pyEq, Json.number?] at hParent
      · obtain ⟨up, above, hAbove, hNamed, hFound⟩ := @visits_parent _ _ _ _ hRecords [] v hBelow
        have hDepth : above.depth = .int up.length ∧ above ∈ arena := by
          rcases hFound with ⟨rfl, rfl⟩ | ⟨u, hu, rfl, rfl⟩
          · exact ⟨hAt.1, hRoot.1⟩
          · exact ⟨hAt.2 u hu, (hMem u.node).mpr ⟨u, List.mem_cons_of_mem _ hu, rfl⟩⟩
        have hSame : above = parent := List.inj_on_of_nodup_map hDistinct hDepth.2 hParentMem
          (pyEq_int_unique hNamed hParent)
        refine ⟨up.length, hSame ▸ hDepth.1, ?_⟩
        rw [hAt.2 v hBelow, hAbove]
        simp
  · intro hDeclares
    have hZero : root.depth = .int ([] : List ArenaNode).length := hDeclares.root root hRoot.1 hRoot.2
    rw [List.forall_mem_cons]
    exact ⟨hZero, @atDistance_visits _ _ _ _ hRecords hDeclares [] hRoot.1 hZero⟩

end Depth

section Gas

variable {host : Host} {catalog : List (String × String)}

/-- The gas that a frame adds to the total of the trace. -/
def ownGas (frame : TraceFrame) : Int :=
  match frame.gasUsed with
  | some gas => if frame.phase = Phase.witness ∧ frame.depth = 0 then gas else 0
  | none => 0

def ArenaNode.gas (node : ArenaNode) : Int :=
  match node.trace.getD "gas_used" (.int 0) with
  | .int gas => gas
  | _ => 0

/-- The gas of a visit of the root in the witness phase; other visits give none. -/
def rootGas (x : Phase × Visit) : Int :=
  if x.1 = Phase.witness ∧ x.2.above = [] then x.2.node.gas else 0

/-- The gas of a loop over records that read as frames. -/
theorem gas_of_records {records : List (Fields × TraceFrame)} {s final : ParseState}
    (hRead : ∀ r ∈ records, readFrame r.1 = .ok r.2)
    (h : (records.map fun r => Json.obj r.1).foldlM (parseRecord host catalog) s = .ok final) :
    final.gasUsed = s.gasUsed + (records.map fun r => ownGas r.2).sum := by
  induction records generalizing s with
  | nil =>
      rw [List.map_nil, List.foldlM_nil, pure_eq_ok] at h
      simp [h]
  | cons r rest ih =>
      obtain ⟨item, frame⟩ := r
      rw [List.forall_mem_cons] at hRead
      rw [List.map_cons, List.foldlM_cons, bind_eq_ok] at h
      obtain ⟨next, hNext, hRest⟩ := h
      simp only [parseRecord, bind_eq_ok, pure_eq_ok, hRead.1, Except.ok.injEq] at hNext
      obtain ⟨_, rfl, u, hCheat, _, _, _, _, rfl⟩ := hNext
      have hKept := (recordCheatcode_step hRead.1 hCheat).gasUsed
      rw [ih hRead.2 hRest, List.map_cons, List.sum_cons, ← add_assoc]
      simp only [hKept]
      rfl

/-- The gas of a summary is the sum of what its frames add. -/
theorem SummaryOf.gasUsed {executed : List (Phase × Visit)} {frames : List ArenaFrame}
    {t : TraceSummary} (h : SummaryOf host catalog executed frames t) :
    t.gasUsed = (frames.map fun f => ownGas f.parsed).sum := by
  have hRead : ∀ r ∈ frames.map (fun f => (f.record, f.parsed)), readFrame r.1 = .ok r.2 := by
    intro r hr
    obtain ⟨f, hf, rfl⟩ := List.mem_map.mp hr
    exact (h.reads hf).2
  obtain ⟨timestamp, block, final, hLoop, sha, rfl⟩ := h.loop
  have hGas := gas_of_records hRead (by simpa [Function.comp_def] using hLoop)
  show final.gasUsed = _
  rw [hGas, List.map_map]
  exact zero_add _

/-- Below a node every visit has the nodes above that node above it. -/
theorem prefix_visits {above : List ArenaNode} {e : Execution} :
    ∀ v ∈ e.visits above, above <+: v.above := by
  induction e generalizing above with
  | done =>
      intro v hv
      cases hv
  | log _ _ rest ih => exact ih
  | call _ child inner rest ihInner ihRest =>
      rw [Execution.visits, List.forall_mem_append, List.forall_mem_cons]
      refine ⟨⟨List.prefix_rfl, fun v hv => ?_⟩, ihRest⟩
      exact (List.prefix_append above [child]).trans (ihInner v hv)

/-- The visits of one arena give the gas of its root, in the witness phase. -/
theorem rootGas_arena (phase : Phase) (root : ArenaNode) (inner : Execution) :
    (((⟨[], root, inner⟩ :: inner.visits [root]).map (phase, ·)).map rootGas).sum =
      if phase = .witness then root.gas else 0 := by
  have hBelow : ((inner.visits [root]).map fun v => rootGas (phase, v)).sum = 0 := by
    apply List.sum_eq_zero
    intro gas hGas
    obtain ⟨v, hv, rfl⟩ := List.mem_map.mp hGas
    have hAbove : v.above ≠ [] := by
      intro hNil
      have hPrefix := prefix_visits v hv
      rw [hNil] at hPrefix
      exact absurd (List.prefix_nil.mp hPrefix) (by simp)
    exact if_neg fun h => hAbove h.2
  rw [List.map_map, List.map_cons, List.sum_cons]
  simp only [Function.comp_def, hBelow, add_zero]
  simp [rootGas]

/-- What is executed before and in the only witness arena gives the gas of its root. -/
theorem rootGas_executed {before : List (Phase × List Fields)} {nodes : List Fields}
    {executed : List (Phase × Visit)}
    (h : ExecutionOrder (before ++ [(.witness, nodes)]) executed)
    (hBefore : ∀ p ∈ before, p.1 = Phase.setup) :
    ∃ v, (Phase.witness, v) ∈ executed ∧ v.above = [] ∧
      (executed.map rootGas).sum = v.node.gas := by
  induction before generalizing executed with
  | nil =>
      obtain _ | @⟨_, _, _, _, root, inner, more, _, _, hNone⟩ := h
      cases hNone
      refine ⟨⟨[], root, inner⟩, List.mem_cons_self, rfl, ?_⟩
      rw [List.append_nil, rootGas_arena, if_pos rfl]
  | cons p before ih =>
      rw [List.forall_mem_cons] at hBefore
      obtain _ | @⟨phase, _, _, _, root, inner, more, _, _, hMore⟩ := h
      obtain ⟨v, hv, hAbove, hSum⟩ := ih hMore hBefore.2
      refine ⟨v, List.mem_append_right _ hv, hAbove, ?_⟩
      rw [List.map_append, List.sum_append, rootGas_arena, hSum, if_neg, zero_add]
      intro hWitness
      have hSetup : phase = Phase.setup := hBefore.1
      rw [hWitness] at hSetup
      exact Phase.noConfusion hSetup

/-- The only witness arena is converted last. -/
theorem inArenaOrder_execution {traces : Json} {arenas : List (ArenaKind × List Fields)}
    (h : selectArenas traces = .ok arenas) :
    ∃ before nodes, inArenaOrder arenas = before ++ [(.witness, nodes)] ∧
      ∀ p ∈ before, p.1 = Phase.setup := by
  have hAny : arenas.any (·.1 = .execution) = true := by
    cases traces with
    | arr entries =>
        cases entries with
        | nil => cases h
        | cons entry rest =>
            simp only [selectArenas, bind_eq_ok, raiseIf_eq_ok, pure_eq_ok] at h
            obtain ⟨_, _, _, hAny, rfl⟩ := h
            simpa using hAny
    | _ => cases h
  have hFound : (arenas.find? (·.1 = .execution)).isSome = true := by
    rw [List.find?_isSome]
    simpa using hAny
  obtain ⟨execution, hExecution⟩ := Option.isSome_iff_exists.mp hFound
  let setup := [ArenaKind.deployment, ArenaKind.setup].filterMap fun kind =>
    (arenas.find? (·.1 = kind)).map fun arena => (kind.phase, arena.2)
  refine ⟨setup, execution.2, ?_, fun p hp => ?_⟩
  · have hLast : [ArenaKind.execution].filterMap (fun kind =>
        (arenas.find? (·.1 = kind)).map fun arena => (kind.phase, arena.2)) =
        [(Phase.witness, execution.2)] := by
      simp [hExecution, ArenaKind.phase]
    rw [← hLast]
    exact List.filterMap_append (l := [ArenaKind.deployment, ArenaKind.setup])
  · obtain ⟨kind, hKind, hArena⟩ := List.mem_filterMap.mp hp
    obtain ⟨arena, _, rfl⟩ := Option.map_eq_some_iff.mp hArena
    rcases List.mem_pair.mp hKind with rfl | rfl <;> rfl

end Gas

section Pipeline

variable {host : Host} {payload envelope : Json} {testFile testName : String}
  {executed : List (Phase × Visit)} {frames : List ArenaFrame}

def EnvelopeFrames (envelope : Json) (frames : List ArenaFrame) : Prop :=
  ∃ body, envelope = .obj [("l0vi0x_structured_trace", .obj body)] ∧
    getField? "frames" body = some (.arr (ArenaFrame.jsonAll frames))

/-- The depth of every frame is the distance of its node from the root. -/
def DepthsAreDistances (executed : List (Phase × Visit)) (frames : List ArenaFrame) : Prop :=
  List.Forall₂ (fun x f => f.head.depth = (x.2.above.length : Int)) executed
    (ArenaFrame.preorderAll frames)

/-- Whatever catalog the trace is parsed with, its gas is that of the root of the
`Execution` arena. -/
def GasIsRootGas (host : Host) (envelope : Json) (executed : List (Phase × Visit)) : Prop :=
  ∀ catalog schema trace t, extractStructuredTrace envelope schema = .ok trace →
    parseTrace host (.parsed trace) catalog = .ok t →
    ∃ v, (Phase.witness, v) ∈ executed ∧ v.above = [] ∧ t.gasUsed = v.node.gas

/-- In every arena of the test the root declares depth zero, and every other node one
more than its parent. -/
def PayloadDeclaresDepths (payload : Json) (testFile testName : String) : Prop :=
  ∀ fields key result arenas, payload = .obj fields →
    passingUnitTest fields testFile testName = .ok (key, result) →
    selectArenas ((getField? "traces" result).getD .null) = .ok arenas →
    ∀ p ∈ inArenaOrder arenas, ∀ arena, indexNodes p.2 = .ok arena → DeclaresDepths arena

theorem depths_iff (hEach : List.Forall₂ (fun x f => FrameOf host x.1 x.2 f) executed
    (ArenaFrame.preorderAll frames)) :
    DepthsAreDistances executed frames ↔ ∀ x ∈ executed, x.2.AtDistance := by
  unfold DepthsAreDistances
  generalize ArenaFrame.preorderAll frames = made at hEach
  induction hEach with
  | nil => simp
  | @cons x f xs fs hFrame _ ih =>
      have hDepth := (openedFrom_of_openFrame hFrame.head).depth
      rw [List.forall₂_cons, ih, List.forall_mem_cons, Visit.AtDistance, ArenaNode.depth, hDepth,
        Json.int.injEq]

/-- The executed nodes declare their distances when their arenas do. -/
theorem executed_atDistance_iff {arenas : List (Phase × List Fields)}
    (h : ExecutionOrder arenas executed) :
    (∀ x ∈ executed, x.2.AtDistance) ↔
      ∀ p ∈ arenas, ∀ arena, indexNodes p.2 = .ok arena → DeclaresDepths arena := by
  induction h with
  | nil => simp
  | @cons phase nodes rest arena root inner more indexed executes _ ih =>
      have hArena : (∀ x ∈ (⟨[], root, inner⟩ :: inner.visits [root]).map (phase, ·),
          x.2.AtDistance) ↔ DeclaresDepths arena := by
        rw [List.forall_mem_map]
        exact atDistance_iff (indexNodes_eq_ok indexed).2 executes
      rw [List.forall_mem_append, hArena, ih, List.forall_mem_cons]
      refine and_congr_left fun _ => ⟨fun hDeclares other hOther => ?_, fun h => h arena indexed⟩
      rw [indexed, Except.ok.injEq] at hOther
      exact hOther ▸ hDeclares

/-- Frames at their distances give no gas but that of the root in the witness phase. -/
theorem gas_of_depths (hEach : List.Forall₂ (fun x f => FrameOf host x.1 x.2 f) executed
    (ArenaFrame.preorderAll frames)) (hDepths : DepthsAreDistances executed frames) :
    ((ArenaFrame.preorderAll frames).map fun f => ownGas f.parsed) = executed.map rootGas := by
  unfold DepthsAreDistances at hDepths
  generalize ArenaFrame.preorderAll frames = made at hEach hDepths
  induction hEach with
  | nil => rfl
  | @cons x f xs fs hFrame _ ih =>
      rw [List.forall₂_cons] at hDepths
      have hOpened := openedFrom_of_openFrame hFrame.head
      have hGas : x.2.node.gas = f.head.gasUsed := by rw [ArenaNode.gas, hOpened.gasUsed]
      rw [List.map_cons, List.map_cons, ih hDepths.2]
      congr 1
      simp only [ownGas, ArenaFrame.parsed, rootGas, hOpened.phase, hDepths.1, hGas,
        Int.natCast_eq_zero, List.length_eq_zero_iff]

/-- An adapted payload has the frames of its executed nodes. -/
theorem frames_of_adapted {timestamp block : Json}
    (h : adaptForgeTestJson host payload testFile testName timestamp block = .ok envelope) :
    ∃ executed frames, Executed payload testFile testName executed ∧
      EnvelopeFrames envelope frames ∧ List.Forall₂ (fun x f => FrameOf host x.1 x.2 f) executed
        (ArenaFrame.preorderAll frames) := by
  obtain ⟨fields, key, result, arenas, frames, derived, rfl, hTest, hArenas, hFrames, body, rfl,
    hBody⟩ := adaptForgeTestJson_eq_ok h
  obtain ⟨executed, hOrder, hEach⟩ := convertArenas_executed hFrames
  exact ⟨executed, frames, ⟨fields, key, result, arenas, rfl, hTest, hArenas, hOrder⟩,
    ⟨body, rfl, hBody⟩, hEach⟩

/-- The depths of an adapted payload are distances, and its gas is that of the root of the
`Execution` arena, exactly when every node declares one more than its parent. -/
theorem depth_and_gas_iff {timestamp block : Json}
    (h : adaptForgeTestJson host payload testFile testName timestamp block = .ok envelope) :
    ∃ executed frames, Executed payload testFile testName executed ∧
      EnvelopeFrames envelope frames ∧
      (DepthsAreDistances executed frames ∧ GasIsRootGas host envelope executed ↔
        PayloadDeclaresDepths payload testFile testName) := by
  obtain ⟨executed, frames, hExecuted, hEnvelope, hEach⟩ := frames_of_adapted h
  refine ⟨executed, frames, hExecuted, hEnvelope, ?_⟩
  obtain ⟨fields, key, result, arenas, rfl, hTest, hArenas, hOrder⟩ := hExecuted
  obtain ⟨body, rfl, hBody⟩ := hEnvelope
  have hDeclared : DepthsAreDistances executed frames ↔
      PayloadDeclaresDepths (.obj fields) testFile testName := by
    rw [depths_iff hEach, executed_atDistance_iff hOrder]
    constructor
    · intro hAll _ _ _ _ hFields hTest' hArenas'
      cases hFields
      rw [hTest, Except.ok.injEq, Prod.mk.injEq] at hTest'
      obtain ⟨rfl, rfl⟩ := hTest'
      rw [hArenas, Except.ok.injEq] at hArenas'
      exact hArenas' ▸ hAll
    · exact fun hAll => hAll fields key result arenas rfl hTest hArenas
  rw [← hDeclared, and_iff_left_iff_imp]
  intro hDepths catalog schema trace t hExtract hParse
  have hSummary := @summaryOf_extracted host catalog _ _ _ _ _ _ hEach hBody hExtract hParse
  obtain ⟨before, nodes, hLast, hBefore⟩ := inArenaOrder_execution hArenas
  obtain ⟨v, hv, hAbove, hSum⟩ := rootGas_executed (hLast ▸ hOrder) hBefore
  refine ⟨v, hv, hAbove, ?_⟩
  rw [hSummary.gasUsed, gas_of_depths hEach hDepths, hSum]

/-- A test that calls a contract, whose node declares depth zero too. -/
def flatCall : List Fields :=
  [sampleNode 0 .null true [.int 1] [] [[("Call", .int 0)]],
    sampleNode 1 (.int 0) true [] [] []]

def flatCallAdapted : Py Json :=
  adaptForgeTestJson (.digesting hexOfBytes) (.obj (forgeOutput flatCall)) "test/W.t.sol" "testW"
    (.int 0) (.int 0)

theorem flatCall_adapted : flatCallAdapted.toBool = true := by decide +kernel

theorem flatCall_selected : passingUnitTest (forgeOutput flatCall) "test/W.t.sol" "testW" =
    .ok ("test/W.t.sol:W", forgeResult flatCall) := by decide

/-- The payload with the flat call has one arena of execution. -/
theorem flatCall_arenas : selectArenas
    ((getField? "traces" (forgeResult flatCall)).getD .null) = .ok [(.execution, flatCall)] := by
  decide

theorem flatCall_indexed : indexNodes flatCall = .ok
    [⟨0, sampleNode 0 .null true [.int 1] [] [[("Call", .int 0)]]⟩,
      ⟨1, sampleNode 1 (.int 0) true [] [] []⟩] := by decide

/-- The call is accepted at the depth of the test function. -/
theorem nested_call_at_depth_zero : ∃ envelope executed frames, flatCallAdapted = .ok envelope ∧
    Executed (.obj (forgeOutput flatCall)) "test/W.t.sol" "testW" executed ∧
      EnvelopeFrames envelope frames ∧ ¬ DepthsAreDistances executed frames := by
  obtain ⟨envelope, h⟩ := ok_of_toBool flatCall_adapted
  obtain ⟨executed, frames, hExecuted, hEnvelope, hEach⟩ := frames_of_adapted h
  refine ⟨envelope, executed, frames, h, hExecuted, hEnvelope, fun hDepths => ?_⟩
  obtain ⟨_, _, _, _, hFields, hTest, hArenas, hOrder⟩ := hExecuted
  cases hFields
  rw [flatCall_selected, Except.ok.injEq, Prod.mk.injEq] at hTest
  obtain ⟨rfl, rfl⟩ := hTest
  rw [flatCall_arenas, Except.ok.injEq] at hArenas
  subst hArenas
  have hAll := (executed_atDistance_iff hOrder).mp ((depths_iff hEach).mp hDepths)
  have hMem : (Phase.witness, flatCall) ∈ inArenaOrder [(.execution, flatCall)] :=
    List.mem_singleton_self _
  have hDeclares := hAll _ hMem _ flatCall_indexed
  obtain ⟨d, hParent, hChild⟩ := hDeclares.child _ (List.mem_cons_of_mem _ List.mem_cons_self) _
    List.mem_cons_self (by decide)
  have hZero : (Json.int 0) = .int d := hParent
  have hOne : (Json.int 0) = .int (d + 1) := hChild
  rw [Json.int.injEq] at hZero hOne
  omega

theorem flatCall_depths_iff : ∃ (envelope : Json) (executed : List (Phase × Visit))
    (frames : List ArenaFrame),
    Executed (.obj (forgeOutput flatCall)) "test/W.t.sol" "testW" executed ∧
      EnvelopeFrames envelope frames ∧
      (DepthsAreDistances executed frames ∧
          GasIsRootGas (.digesting hexOfBytes) envelope executed ↔
        PayloadDeclaresDepths (.obj (forgeOutput flatCall)) "test/W.t.sol" "testW") := by
  obtain ⟨envelope, h⟩ := ok_of_toBool flatCall_adapted
  exact ⟨envelope, depth_and_gas_iff h⟩

end Pipeline
end L0vi0x.Chain
