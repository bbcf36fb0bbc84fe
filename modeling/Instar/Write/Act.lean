import Instar.Write.Plan

/-!
# One stage as one action

Every stage of the two emission loops either refuses, or pushes at most one step and then updates
the planner state and the staged refblocks, moves to another stage and may close the window.  `Act`
is that shape, and `writeAct` / `flushAct` compute it from what the stage reads: the state, the
refblocks, and the one L1 and the one L2 entry under the write position.  `writeStage_eq` and
`flushStage_eq` say that the stage functions do exactly that; what a stage can do is read off the
action from here on.
-/

namespace Instar.Write

open Instar.Qcow2

/-- What a stage does, given what it read. `held` is the progress kept when the push fails. -/
inductive Act (P : Type) where
  | refuse (e : WriteError) (update : WriteState → WriteState) (refblocks : Buffer)
  | move (step : Option Step) (held : P) (update : WriteState → WriteState) (refblocks : Buffer)
      (prog : P) (close : Bool)
  | finish (step : Option Step)

/-- Replace the refblocks of a planner. -/
def Planner.setRefblocks (pl : Planner) (refblocks : Buffer) : Planner :=
  { pl with staged := { pl.staged with refblocks } }

/-- Push a step if there is one. -/
def emitOpt {P : Type} (pl : Planner) (held : P) (step : Option Step) (k : Planner → Flow P) :
    Flow P :=
  match step with
  | none => k pl
  | some step => emit pl held step k

/-- Carry out an action. -/
def applyAct {P : Type} (pl : Planner) (prog : P) : Act P → Flow P
  | .refuse e update refblocks =>
    .fail e ({ pl with state := update pl.state }.setRefblocks refblocks) prog
  | .move step held update refblocks prog close =>
    emitOpt pl held step fun pl =>
      let pl := { pl with state := update pl.state }.setRefblocks refblocks
      if close then .fail .bufFull pl prog else .next pl prog
  | .finish step => emitOpt pl prog step fun pl => .finish pl prog

/-! ## Writes -/

/-- The state after an allocation: the cursor moved and the cluster's refblock marked. -/
def allocUpdate (cursor : AllocCursor) (rbIdx : Nat) (st : WriteState) : WriteState :=
  { st with allocCursor := cursor, refblockDirty := Function.update st.refblockDirty rbIdx true }

/-- Allocate a cluster and go on with it. -/
def allocAct (st : WriteState) (rb : Buffer) (prog : WriteProgress) (k : Nat → WriteProgress) :
    Act WriteProgress :=
  let geo := st.geometry
  match allocClusterInRefblocks rb geo.clusterSize geo.refcountBits (rb.len / geo.clusterSize) 0
    st.allocCursor with
  | (.ok host, rb, cursor) =>
    .move none prog (allocUpdate cursor (host / geo.clusterSize / geo.entriesPerRefblock))
      rb (k host) false
  | (.error .refcountExhausted, rb, cursor) =>
    .refuse .refcountExhausted (fun st => { st with allocCursor := cursor }) rb
  | (.error _, rb, cursor) =>
    .refuse .stagedRegionsMismatch (fun st => { st with allocCursor := cursor }) rb

/-- The refblocks after dropping one reference, and the block that changed. -/
def decRefblocks (geo : Geometry) (rb : Buffer) (host : Nat) : Except WriteError (Nat × Buffer) :=
  let cs := geo.clusterSize
  let rbIdx := host / cs / geo.entriesPerRefblock
  let localIdx := host / cs % geo.entriesPerRefblock
  if rb.len / cs ≤ rbIdx then .error .refcountCoverage
  else
    match readRefcountInBlock (rb.slice (rbIdx * cs) cs) localIdx geo.refcountBits with
    | .error _ => .error .stagedRegionsMismatch
    | .ok cur =>
      match checkRefcountAfterAddend cur (-1) geo.refcountBits with
      | .error _ => .error .refcountInconsistent
      | .ok new =>
        match setRefcountInBlock (rb.slice (rbIdx * cs) cs) localIdx geo.refcountBits new with
        | .error _ => .error .stagedRegionsMismatch
        | .ok block => .ok (rbIdx, rb.patch (rbIdx * cs) block)

section

variable (st : WriteState) (rb : Buffer)

/-- Drop one reference and go on. -/
def decAct (prog next : WriteProgress) (close : Bool) :
    Act WriteProgress :=
  match decRefblocks st.geometry rb prog.cowSrc with
  | .error e => .refuse e id rb
  | .ok (rbIdx, rb) => .move none prog (fun st => st.refblockDirtySet rbIdx) rb next close

/-- The action of `stageEnter`. -/
def enterAct (prog : WriteProgress) : Act WriteProgress :=
  match st.findSlot (prog.l1Idx st.geometry) with
  | some hit =>
    .move none prog (fun st => st.touch hit) rb { prog with slot := hit, stage := .slotReady } false
  | none =>
    let victim := st.pickVictim
    let sl := st.l2Slots victim
    if sl.valid ∧ sl.dirty then
      .move (some (writebackStep victim sl.hostOffset st.geometry.clusterSize st.config.device))
        { prog with slot := victim }
        (fun st => st.setSlot victim { sl with valid := false, dirty := false }) rb
        { prog with slot := victim, stage := .slotFree } false
    else .move none prog id rb { prog with slot := victim, stage := .slotFree } false

/-- The action of `stageSlotFree`. -/
def slotFreeAct (l1Raw : Nat) (prog : WriteProgress) :
    Act WriteProgress :=
  if l1Raw = 0 then
    allocAct st rb prog fun host => { prog with l2Host := host, stage := .freshAlloc }
  else
    match validateL1Entry st rb l1Raw with
    | .error e => .refuse e id rb
    | .ok (.owned l2Host) =>
      .move (some (loadStep prog.slot l2Host st.geometry.clusterSize st.config.device)) prog
        (fun st => assignSlot st prog.slot (prog.l1Idx st.geometry) l2Host false) rb
        { prog with stage := .enter } true
    | .ok (.cowL2 oldL2Host) =>
      allocAct st rb prog fun host =>
        { prog with l2Host := host, cowSrc := oldL2Host, stage := .cowL2Load }

/-- The action of `stageSlotReady`. -/
def slotReadyAct (l2Raw : Nat) (prog : WriteProgress) :
    Act WriteProgress :=
  let geo := st.geometry
  match classifyL2Entry st rb l2Raw with
  | .error e => .refuse e id rb
  | .ok (.owned host) => .move (some (bodyAt st prog host)) prog id rb (prog.advance geo) false
  | .ok (.ownedZero host) =>
    .move none prog id rb { prog with dataHost := host, stage := .dataAlloc } false
  | .ok (.cowData old zeroPreimage) =>
    allocAct st rb prog fun host => { prog with
      dataHost := host, cowSrc := old, cowZeroPreimage := zeroPreimage, stage := .cowDataEnter }
  | .ok .unallocated =>
    let inOff := prog.inOff geo
    let effEnd := min geo.clusterSize (geo.virtualSize - (prog.cur - inOff))
    if st.hasBacking ∧ (inOff ≠ 0 ∨ inOff + prog.winLen geo < effEnd) then
      .refuse .needsBackingFill id rb
    else allocAct st rb prog fun host => { prog with dataHost := host, stage := .dataAlloc }

/-- The action of a write stage, from the entries under the write position. -/
def writeAct (l1Raw l2Raw : Nat) (prog : WriteProgress) :
    Act WriteProgress :=
  let geo := st.geometry
  let cs := geo.clusterSize
  let dev := st.config.device
  let inOff := prog.inOff geo
  let tailOff := inOff + prog.winLen geo
  if ¬ prog.consumed < prog.len then .finish none else
  match prog.stage with
  | .enter => enterAct st rb prog
  | .slotFree => slotFreeAct st rb l1Raw prog
  | .freshAlloc =>
    .move (some (zeroRegionStep prog.slot cs dev)) prog
      (fun st => (assignSlot st prog.slot (prog.l1Idx geo) prog.l2Host true).pendingZeroSet
        prog.slot)
      rb { prog with stage := .freshZeroed } false
  | .freshZeroed =>
    .move (some (l1PatchStep st prog)) prog (fun st => WriteState.touch { st with l1Dirty :=
      true } prog.slot) rb { prog with stage := .slotReady } false
  | .slotReady => slotReadyAct st rb l2Raw prog
  | .dataAlloc =>
    .move (if 0 < inOff then some (zeroRangeStep prog.dataHost inOff dev) else none) prog id rb
      { prog with stage := .headDone } false
  | .headDone =>
    .move (some (bodyAt st prog prog.dataHost)) prog id rb { prog with stage := .bodyDone } false
  | .bodyDone =>
    .move (if tailOff < cs then some (zeroRangeStep (prog.dataHost + tailOff) (cs - tailOff) dev)
      else none) prog id rb { prog with stage := .tailDone } false
  | .tailDone =>
    .move (some (l2PatchStep st prog)) prog (fun st =>
      dirtySlot st prog.slot) rb (prog.advance geo) false
  | .cowL2Load =>
    .move (some (loadStep prog.slot prog.cowSrc cs dev)) prog
      (fun st => assignSlot st prog.slot (prog.l1Idx geo) prog.l2Host true)
      rb { prog with stage := .cowL2Repoint } false
  | .cowL2Repoint =>
    .move (some (l1PatchStep st prog)) prog (fun st => { st with l1Dirty := true }) rb
      { prog with stage := .cowL2Decrement } false
  | .cowL2Decrement => decAct st rb prog { prog with stage := .enter } true
  | .cowDataEnter =>
    if inOff = 0 ∧ prog.winLen geo = cs then
      .move none prog id rb { prog with stage := .cowDataBody } false
    else if prog.cowZeroPreimage then
      .move (some (zeroRangeStep prog.dataHost cs dev)) prog id rb { prog with stage :=
        .cowDataBody } false
    else
      .move (some (readClusterToBounceStep prog.cowSrc cs dev)) prog id rb
        { prog with stage := .cowDataCopy } false
  | .cowDataCopy =>
    .move (some (writeBounceClusterStep prog.dataHost cs dev)) prog id rb
      { prog with stage := .cowDataBody } false
  | .cowDataBody =>
    .move (some (bodyAt st prog prog.dataHost)) prog id rb { prog with stage :=
      .cowDataPatch } false
  | .cowDataPatch =>
    .move (some (l2PatchStep st prog)) prog (fun st => dirtySlot st prog.slot) rb
      { prog with stage := .cowDataDecrement } false
  | .cowDataDecrement => decAct st rb prog (prog.advance geo) false

end

/-- The action of a write stage on a planner. -/
def writeActOf (st : WriteState) (sg : StagedRegions) (prog : WriteProgress) : Act WriteProgress :=
  writeAct st sg.refblocks (readStagedL1Entry sg (prog.l1Idx st.geometry))
    (readStagedL2Entry st sg prog.slot (prog.l2Idx st.geometry)) prog

/-- A pushed step changes the step count only. -/
theorem emit_congr {P : Type} {pl : Planner} {held : P} {step : Step} {k k' : Planner → Flow P}
    (h : ∀ steps n, k { pl with steps, state := { pl.state with stepsSinceBarrier := n } }
      = k' { pl with steps, state := { pl.state with stepsSinceBarrier := n } }) :
    emit pl held step k = emit pl held step k' := by
  unfold emit pushStep
  cases pl.steps.push step with
  | none => rfl
  | some steps => exact h _ _

variable (pl : Planner)

include pl

variable (prog : WriteProgress)

include prog in
theorem allocAct_eq (k : Nat → WriteProgress) : (match allocCluster pl with
      | (.error e, pl) => Flow.fail e pl prog
      | (.ok host, pl) => Flow.next pl (k host))
      = applyAct pl prog (allocAct pl.state pl.staged.refblocks prog k) := by
  unfold allocCluster allocAct
  dsimp only
  rcases allocClusterInRefblocks pl.staged.refblocks pl.state.geometry.clusterSize
    pl.state.geometry.refcountBits (pl.staged.refblocks.len / pl.state.geometry.clusterSize) 0
    pl.state.allocCursor with ⟨res, rb, cursor⟩
  cases res with
  | ok host => rfl
  | error e => cases e <;> rfl

/-- Dropping a reference changes the refblocks and one dirty bit. -/
theorem decRefcount_eq (host : Nat) : decRefcount pl host
      = match decRefblocks pl.state.geometry pl.staged.refblocks host with
        | .error e => .error e
        | .ok (rbIdx, rb) =>
          .ok ({ pl with state := pl.state.refblockDirtySet rbIdx }.setRefblocks rb) := by
  unfold decRefcount decRefblocks
  dsimp only
  generalize pl.state.geometry.clusterSize = cs
  generalize host / cs / pl.state.geometry.entriesPerRefblock = rbIdx
  generalize host / cs % pl.state.geometry.entriesPerRefblock = localIdx
  by_cases hcov : pl.staged.refblocks.len / cs ≤ rbIdx
  · simp only [hcov, if_true]
  simp only [hcov, if_false]
  generalize pl.staged.refblocks.slice (rbIdx * cs) cs = block
  cases readRefcountInBlock block localIdx pl.state.geometry.refcountBits with
  | error e => rfl
  | ok cur =>
    dsimp only
    cases checkRefcountAfterAddend cur (-1) pl.state.geometry.refcountBits with
    | error e => rfl
    | ok new =>
      dsimp only
      cases setRefcountInBlock block localIdx pl.state.geometry.refcountBits new with
      | error e => rfl
      | ok block => rfl

theorem decAct_eq (prog next : WriteProgress) (close : Bool) :
    (match decRefcount pl prog.cowSrc with
      | .error e => Flow.fail e pl prog
      | .ok pl => if close then Flow.fail .bufFull pl next else Flow.next pl next)
      = applyAct pl prog (decAct pl.state pl.staged.refblocks prog next close) := by
  rw [decRefcount_eq]
  unfold decAct
  cases decRefblocks pl.state.geometry pl.staged.refblocks prog.cowSrc with
  | error e => rfl
  | ok res => rfl

include prog

theorem stageEnter_eq : stageEnter pl prog =
    applyAct pl prog (enterAct pl.state pl.staged.refblocks prog) := by
  unfold stageEnter enterAct
  dsimp only
  cases pl.state.findSlot (prog.l1Idx pl.state.geometry) with
  | some hit => rfl
  | none =>
    dsimp only
    split
    · exact emit_congr fun steps n => rfl
    · rfl

theorem stageSlotFree_eq :
      stageSlotFree pl prog = applyAct pl prog (slotFreeAct pl.state pl.staged.refblocks
      (readStagedL1Entry pl.staged (prog.l1Idx pl.state.geometry)) prog) := by
  unfold stageSlotFree slotFreeAct
  dsimp only
  split
  · exact allocAct_eq pl prog _
  · cases validateL1Entry pl.state pl.staged.refblocks
      (readStagedL1Entry pl.staged (prog.l1Idx pl.state.geometry)) with
    | error e => rfl
    | ok verdict =>
      cases verdict with
      | owned l2Host => exact emit_congr fun steps n => rfl
      | cowL2 old => exact allocAct_eq pl prog _

theorem stageSlotReady_eq :
    stageSlotReady pl prog = applyAct pl prog (slotReadyAct pl.state pl.staged.refblocks
      (readStagedL2Entry pl.state pl.staged prog.slot (prog.l2Idx pl.state.geometry)) prog) := by
  unfold stageSlotReady slotReadyAct
  dsimp only
  cases classifyL2Entry pl.state pl.staged.refblocks
    (readStagedL2Entry pl.state pl.staged prog.slot (prog.l2Idx pl.state.geometry)) with
  | error e => rfl
  | ok verdict =>
    cases verdict with
    | owned host => exact emit_congr fun steps n => rfl
    | ownedZero host => rfl
    | cowData old zeroPreimage => exact allocAct_eq pl prog _
    | unallocated =>
      dsimp only
      split
      · rfl
      · exact allocAct_eq pl prog _

/-- A write stage carries out its action. -/
theorem writeStage_eq : writeStage pl prog =
    applyAct pl prog (writeActOf pl.state pl.staged prog) := by
  unfold writeStage writeActOf writeAct
  by_cases hlt : prog.consumed < prog.len
  case neg => simp only [hlt, if_false, not_false_eq_true, if_true]; rfl
  simp only [hlt, if_true, not_true_eq_false, if_false]
  unfold clusterStage
  cases hstage : prog.stage with
  | enter => exact stageEnter_eq pl prog
  | slotFree => exact stageSlotFree_eq pl prog
  | slotReady => exact stageSlotReady_eq pl prog
  | dataAlloc =>
    dsimp only [stageDataAlloc]
    split
    · exact emit_congr fun steps n => rfl
    · rfl
  | bodyDone =>
    dsimp only [stageBodyDone]
    split
    · exact emit_congr fun steps n => rfl
    · rfl
  | cowL2Decrement => exact decAct_eq pl prog _ true
  | cowDataDecrement =>
    dsimp only [stageCowDataDecrement]
    rw [← decAct_eq pl prog _ false]
    rw [decRefcount_eq]
    cases decRefblocks pl.state.geometry pl.staged.refblocks prog.cowSrc with
    | error e => rfl
    | ok res => rfl
  | cowDataEnter =>
    dsimp only [stageCowDataEnter]
    split
    · rfl
    · split
      · exact emit_congr fun steps n => rfl
      · exact emit_congr fun steps n => rfl
  | freshAlloc | freshZeroed | headDone | tailDone | cowL2Load | cowL2Repoint | cowDataCopy
  | cowDataBody | cowDataPatch => exact emit_congr fun steps n => rfl

omit prog pl

/-! ## Flushes -/

/-- A barrier where one is due. -/
def dueBarrier (st : WriteState) : Option Step :=
  if st.stepsSinceBarrier = 0 then none else some (barrierStep st.config.device)

/-- The action of a flush stage. -/
def flushActOf (st : WriteState) (sg : StagedRegions) (prog : FlushProgress) : Act FlushProgress :=
  let rb := sg.refblocks
  let cs := st.geometry.clusterSize
  match prog.stage with
  | .preBarrier => .move (dueBarrier st) prog id rb ⟨.l2Writebacks, 0⟩ false
  | .l2Writebacks =>
    match st.nextDirtySlot prog.nextIdx with
    | some idx =>
      let sl := st.l2Slots idx
      .move (some (writebackStep idx sl.hostOffset cs st.config.device)) prog
        (fun st => st.setSlot idx { sl with dirty := false }) rb { prog with nextIdx :=
          idx + 1 } false
    | none => .move none prog id rb { prog with stage := .l1Barrier } false
  | .l1Barrier =>
    if st.l1Dirty then .move (dueBarrier st) prog id rb { prog with stage := .l1Write } false
    else .move none prog id rb { prog with stage := .rbBarrier } false
  | .l1Write =>
    .move (some (l1WriteStep st)) prog (fun st => { st with l1Dirty := false }) rb
      { prog with stage := .rbBarrier } false
  | .rbBarrier =>
    if (st.nextDirtyRefblock 0).isSome then
      .move (dueBarrier st) prog id rb ⟨.rbWritebacks, 0⟩ false
    else .move none prog id rb { prog with stage := .endBarrier } false
  | .rbWritebacks =>
    match st.nextDirtyRefblock prog.nextIdx with
    | some idx =>
      let rtEntry := sg.refcountTable.be (idx * 8) 8
      let host := rtEntry &&& l1OffsetMask
      if rb.len / cs ≤ idx then .refuse .stagedRegionsMismatch id rb
      else if host = 0 ∨ host % cs ≠ 0 ∨ rtEntry &&& 0x1ff ≠ 0 then
        .refuse .stagedRegionsMismatch id rb
      else
        .move (some (refblockWriteStep st idx host)) prog (fun st => st.refblockDirtyClear idx) rb
          { prog with nextIdx := idx + 1 } false
    | none => .move none prog id rb { prog with stage := .endBarrier } false
  | .endBarrier => .finish (dueBarrier st)

theorem barrierIfNeeded_eq {P : Type} {pl : Planner} {prog : P} {k k' : Planner → Flow P}
    (h : ∀ steps n, k { pl with steps, state := { pl.state with stepsSinceBarrier := n } }
      = k' { pl with steps, state := { pl.state with stepsSinceBarrier := n } }) :
    barrierIfNeeded pl prog k = emitOpt pl prog (dueBarrier pl.state) k' := by
  unfold barrierIfNeeded dueBarrier
  split
  · exact h pl.steps pl.state.stepsSinceBarrier
  · exact emit_congr h

include pl in
/-- A flush stage carries out its action. -/
theorem flushStage_eq (prog : FlushProgress) :
    flushStage pl prog = applyAct pl prog (flushActOf pl.state pl.staged prog) := by
  obtain ⟨stage, nextIdx⟩ := prog
  cases stage with
  | preBarrier =>
    dsimp only [flushStage, flushActOf, flushPreBarrier, applyAct]
    exact barrierIfNeeded_eq fun steps n => rfl
  | l2Writebacks =>
    dsimp only [flushStage, flushActOf, flushL2Writebacks]
    cases pl.state.nextDirtySlot nextIdx with
    | none => rfl
    | some idx => exact emit_congr fun steps n => rfl
  | l1Barrier | rbBarrier =>
    dsimp only [flushStage, flushActOf, flushL1Barrier, flushRbBarrier]
    split
    · dsimp only [applyAct]
      exact barrierIfNeeded_eq fun steps n => rfl
    · rfl
  | l1Write => exact emit_congr fun steps n => rfl
  | rbWritebacks =>
    dsimp only [flushStage, flushActOf, flushRbWritebacks]
    cases pl.state.nextDirtyRefblock nextIdx with
    | none => rfl
    | some idx =>
      dsimp only
      split
      · rfl
      · split
        · rfl
        · exact emit_congr fun steps n => rfl
  | endBarrier =>
    exact barrierIfNeeded_eq fun steps n => rfl

end Instar.Write
