import Instar.Write.State

/-!
# The write planner

The emission loops of `crates/qcow2-write`: `driveWrite` with its seventeen cluster stages and
`driveFlush` with its seven, and the entry points `planWrite` and `planFlush` with the resume
protocol.  A stage function returns what happens next: go on with another stage, stop with an
error, or finish.  As in the source, everything done before a failing push is kept, and the stage
to resume at is part of the progress record.
-/

namespace Instar.Write

open Instar.Qcow2

/-- The mutable arguments of an emission loop. -/
structure Planner where
  state : WriteState
  staged : StagedRegions
  steps : StepBuf

/-- What one stage of an emission loop with progress `P` leads to. -/
inductive Flow (P : Type) where
  | next (pl : Planner) (prog : P)
  | fail (e : WriteError) (pl : Planner) (prog : P)
  | finish (pl : Planner) (prog : P)

/-! ## Pushing steps -/

/-- Push a step and count it since the last barrier. -/
def pushStep (pl : Planner) (step : Step) : Option Planner :=
  match pl.steps.push step with
  | none => none
  | some steps =>
    let count := match step.kind with
      | .barrier _ => 0
      | _ => pl.state.stepsSinceBarrier + 1
    some { pl with steps, state := { pl.state with stepsSinceBarrier := count } }

/-- Push a step and go on, or stop with a full buffer at the given progress. -/
def emit {P : Type} (pl : Planner) (prog : P) (step : Step) (k : Planner → Flow P) : Flow P :=
  match pushStep pl step with
  | none => .fail .bufFull pl prog
  | some pl => k pl

def barrierStep (dev : TargetDevice) : Step := ⟨.barrier .durability, dev, .bounce, 0, 0, 0, 0⟩

/-- Push a durability barrier unless the last step already was one. -/
def barrierIfNeeded {P : Type} (pl : Planner) (prog : P) (k : Planner → Flow P) : Flow P :=
  if pl.state.stepsSinceBarrier = 0 then k pl
  else emit pl prog (barrierStep pl.state.config.device) k

def loadStep (slot l2Host cs : Nat) (dev : TargetDevice) : Step :=
  ⟨.loadCluster, dev, .l2Slot slot, 0, l2Host, cs, 0⟩

def writebackStep (slot l2Host cs : Nat) (dev : TargetDevice) : Step :=
  ⟨.writebackCluster, dev, .l2Slot slot, 0, l2Host, cs, 0⟩

def zeroRegionStep (slot cs : Nat) (dev : TargetDevice) : Step :=
  ⟨.zeroRegion, dev, .l2Slot slot, 0, 0, cs, 0⟩

def patchStep (region : RegionId) (regionOffset value : Nat) (dev : TargetDevice) : Step :=
  ⟨.patchEntryU64, dev, region, regionOffset, 0, 0, value⟩

def zeroRangeStep (diskOffset len : Nat) (dev : TargetDevice) : Step :=
  ⟨.zeroRange, dev, .bounce, 0, diskOffset, len, 0⟩

def readClusterToBounceStep (diskOffset cs : Nat) (dev : TargetDevice) : Step :=
  ⟨.readCluster, dev, .bounce, 0, diskOffset, cs, 0⟩

def writeBounceClusterStep (diskOffset cs : Nat) (dev : TargetDevice) : Step :=
  ⟨.writeRange, dev, .bounce, 0, diskOffset, cs, 0⟩

/-- The step that writes the data. -/
def bodyStep (data : DataSource) (consumed diskOffset len : Nat) (dev : TargetDevice) : Step :=
  match data with
  | .callerData offset => ⟨.writeRange, dev, .callerData, offset + consumed, diskOffset, len, 0⟩
  | .fill byte => ⟨.fillRange, dev, .bounce, 0, diskOffset, len, byte.toNat⟩

/-! ## Reading and counting in the staged regions -/

/-- `validate_staged`. -/
def validateStaged (st : WriteState) (sg : StagedRegions) (capacity : Nat) :
    Except WriteError Unit :=
  let cs := st.geometry.clusterSize
  let rbCount := sg.refblocks.len / cs
  if capacity = 0 then .error .stagedRegionsMismatch
  else if sg.l1.len < st.geometry.l1Size * 8 then .error .stagedRegionsMismatch
  else if sg.l2Window.len < st.config.l2Slots * cs then .error .stagedRegionsMismatch
  else if sg.refblocks.len % cs ≠ 0 then .error .stagedRegionsMismatch
  else if st.config.maxRefblocks < rbCount then .error .stagedRegionsMismatch
  else if sg.refcountTable.len < rbCount * 8 then .error .stagedRegionsMismatch
  else .ok ()

/-- The staged count of a cluster. -/
def readStagedRefcount (geo : Geometry) (refblocks : Buffer) (host : Nat) :
    Except WriteError Nat :=
  let cs := geo.clusterSize
  let clusterIndex := host / cs
  let rbIdx := clusterIndex / geo.entriesPerRefblock
  if refblocks.len / cs ≤ rbIdx then .error .refcountCoverage
  else
    match readRefcountInBlock (refblocks.slice (rbIdx * cs) cs)
      (clusterIndex % geo.entriesPerRefblock) geo.refcountBits with
    | .error _ => .error .stagedRegionsMismatch
    | .ok rc => .ok rc

/-- Allocate a cluster from the staged refblocks and mark its block dirty. -/
def allocCluster (pl : Planner) : Except WriteError Nat × Planner :=
  let geo := pl.state.geometry
  let rbCount := pl.staged.refblocks.len / geo.clusterSize
  match allocClusterInRefblocks pl.staged.refblocks geo.clusterSize geo.refcountBits rbCount 0
    pl.state.allocCursor with
  | (r, refblocks, cursor) =>
    let pl := { pl with
      staged := { pl.staged with refblocks }
      state := { pl.state with allocCursor := cursor } }
    match r with
    | .ok host =>
      (.ok host, { pl with
        state := pl.state.refblockDirtySet (host / geo.clusterSize / geo.entriesPerRefblock) })
    | .error .refcountExhausted => (.error .refcountExhausted, pl)
    | .error _ => (.error .stagedRegionsMismatch, pl)

/-- Drop one reference of a cluster and mark its block dirty. -/
def decRefcount (pl : Planner) (host : Nat) : Except WriteError Planner :=
  let geo := pl.state.geometry
  let cs := geo.clusterSize
  let clusterIndex := host / cs
  let rbIdx := clusterIndex / geo.entriesPerRefblock
  let localIdx := clusterIndex % geo.entriesPerRefblock
  if pl.staged.refblocks.len / cs ≤ rbIdx then .error .refcountCoverage
  else
    let block := pl.staged.refblocks.slice (rbIdx * cs) cs
    match readRefcountInBlock block localIdx geo.refcountBits with
    | .error _ => .error .stagedRegionsMismatch
    | .ok cur =>
      match checkRefcountAfterAddend cur (-1) geo.refcountBits with
      | .error _ => .error .refcountInconsistent
      | .ok new =>
        match setRefcountInBlock block localIdx geo.refcountBits new with
        | .error _ => .error .stagedRegionsMismatch
        | .ok block =>
          .ok { pl with
            staged := { pl.staged with refblocks := pl.staged.refblocks.patch (rbIdx * cs) block }
            state := pl.state.refblockDirtySet rbIdx }

/-! ## Classification -/

/-- What a write into an L2 entry means. -/
inductive Classified where
  | unallocated
  | owned (host : Nat)
  | ownedZero (host : Nat)
  | cowData (old : Nat) (zeroPreimage : Bool)
  deriving DecidableEq, Repr

/-- `classify_l2_entry`. -/
def classifyL2Entry (st : WriteState) (refblocks : Buffer) (entry : Nat) :
    Except WriteError Classified :=
  if entry = 0 then .ok .unallocated
  else if entry &&& oflagCompressed ≠ 0 then .error .compressedCluster
  else if entry &&& complU64 (oflagCopied ||| l2OffsetMask ||| qcowOflagZero) ≠ 0 then
    .error .unknownL2Entry
  else
    let host := entry &&& l2OffsetMask
    let cs := st.geometry.clusterSize
    if entry &&& qcowOflagZero ≠ 0 then
      if host = 0 then .ok .unallocated
      else if host % cs ≠ 0 then .error .unknownL2Entry
      else
        match readStagedRefcount st.geometry refblocks host with
        | .error e => .error e
        | .ok rc =>
          if rc = 0 then .error .refcountInconsistent
          else if 1 < rc then
            if st.cowEnabled then .ok (.cowData host true) else .error .snapshotShared
          else .ok (.ownedZero host)
    else if host = 0 ∨ host % cs ≠ 0 then .error .unknownL2Entry
    else if entry &&& oflagCopied = 0 then
      if st.cowEnabled then .ok (.cowData host false) else .error .snapshotShared
    else
      match readStagedRefcount st.geometry refblocks host with
      | .error e => .error e
      | .ok rc =>
        if rc = 0 then .error .refcountInconsistent
        else if 1 < rc then
          if st.cowEnabled then .ok (.cowData host false) else .error .snapshotShared
        else .ok (.owned host)

/-- What a nonzero L1 entry means. -/
inductive L1Verdict where
  | owned (l2Host : Nat)
  | cowL2 (oldL2Host : Nat)
  deriving DecidableEq, Repr

/-- `validate_l1_entry`. -/
def validateL1Entry (st : WriteState) (refblocks : Buffer) (raw : Nat) :
    Except WriteError L1Verdict :=
  if raw &&& complU64 (oflagCopied ||| l1OffsetMask) ≠ 0 then .error .unknownL1Entry
  else
    let host := raw &&& l1OffsetMask
    if host = 0 ∨ host % st.geometry.clusterSize ≠ 0 then .error .unknownL1Entry
    else if raw &&& oflagCopied = 0 then
      if st.cowEnabled then .ok (.cowL2 host) else .error .snapshotSharedL2Table
    else
      match readStagedRefcount st.geometry refblocks host with
      | .error e => .error e
      | .ok rc =>
        if rc = 0 then .error .refcountInconsistent
        else if 1 < rc then
          if st.cowEnabled then .ok (.cowL2 host) else .error .snapshotSharedL2Table
        else .ok (.owned host)

/-- The raw L1 entry `idx` of the staged table. -/
def readStagedL1Entry (sg : StagedRegions) (idx : Nat) : Nat := sg.l1.be (idx * 8) 8

/-- The raw L2 entry of a slot; a slot whose zeroing is still queued reads as zero. -/
def readStagedL2Entry (st : WriteState) (sg : StagedRegions) (slot l2Idx : Nat) : Nat :=
  if st.slotPendingZero slot then 0
  else sg.l2Window.be (slot * st.geometry.clusterSize + l2Idx * 8) 8

/-! ## The cluster stages -/

namespace WriteProgress

/-- The virtual offset the write has come to. -/
def cur (prog : WriteProgress) : Nat := prog.voff + prog.consumed

section

variable (geo : Geometry) (prog : WriteProgress)

/-- The L1 entry of the cursor. -/
def l1Idx : Nat := prog.cur / geo.l2Coverage

/-- The L2 entry of the cursor. -/
def l2Idx : Nat := prog.cur / geo.clusterSize % geo.entriesPerL2

/-- Where in its cluster the cursor is. -/
def inOff : Nat := prog.cur % geo.clusterSize

/-- How much of the request falls into the current cluster. -/
def winLen : Nat := min (geo.clusterSize - prog.inOff geo) (prog.len - prog.consumed)

/-- The current cluster is done. -/
def advance : WriteProgress :=
  { prog with consumed := prog.consumed + prog.winLen geo, stage := .enter }

end

end WriteProgress

/-- Point a slot at an L2 table, keeping its place in the LRU order. -/
def assignSlot (st : WriteState) (slot l1Idx hostOffset : Nat) (dirty : Bool) : WriteState :=
  st.setSlot slot ⟨true, dirty, l1Idx, hostOffset, (st.l2Slots slot).lastAccess⟩

section

variable (pl : Planner) (prog : WriteProgress)

/-- Find or free a slot for the table. -/
def stageEnter : Flow WriteProgress :=
  let st := pl.state
  match st.findSlot (prog.l1Idx st.geometry) with
  | some hit => .next { pl with state := st.touch hit } { prog with slot := hit, stage :=
    .slotReady }
  | none =>
    let victim := st.pickVictim
    let prog := { prog with slot := victim }
    let sl := st.l2Slots victim
    if sl.valid ∧ sl.dirty then
      emit pl prog (writebackStep victim sl.hostOffset st.geometry.clusterSize st.config.device)
        fun pl =>
          .next { pl with state := pl.state.setSlot victim { sl with valid := false, dirty :=
            false } } { prog with stage := .slotFree }
    else .next pl { prog with stage := .slotFree }

/-- Bring the table into the slot. -/
def stageSlotFree : Flow WriteProgress :=
  let st := pl.state
  let l1Idx := prog.l1Idx st.geometry
  let raw := readStagedL1Entry pl.staged l1Idx
  if raw = 0 then
    match allocCluster pl with
    | (.error e, pl) => .fail e pl prog
    | (.ok host, pl) => .next pl { prog with l2Host := host, stage := .freshAlloc }
  else
    match validateL1Entry st pl.staged.refblocks raw with
    | .error e => .fail e pl prog
    | .ok (.owned l2Host) =>
      emit pl prog (loadStep prog.slot l2Host st.geometry.clusterSize st.config.device) fun pl =>
        .fail .bufFull { pl with state := assignSlot pl.state prog.slot l1Idx l2Host false }
          { prog with stage := .enter }
    | .ok (.cowL2 oldL2Host) =>
      match allocCluster pl with
      | (.error e, pl) => .fail e pl prog
      | (.ok host, pl) =>
        .next pl { prog with l2Host := host, cowSrc := oldL2Host, stage := .cowL2Load }

/-- Zero a new table. -/
def stageFreshAlloc : Flow WriteProgress :=
  let geo := pl.state.geometry
  emit pl prog (zeroRegionStep prog.slot geo.clusterSize pl.state.config.device) fun pl =>
    let st := assignSlot pl.state prog.slot (prog.l1Idx geo) prog.l2Host true
    .next { pl with state := st.pendingZeroSet prog.slot } { prog with stage := .freshZeroed }

end

section

variable (st : WriteState) (prog : WriteProgress)

/-- The step that installs the new L2 table in the staged L1. -/
def l1PatchStep : Step :=
  patchStep .l1 (prog.l1Idx st.geometry * 8) (prog.l2Host ||| oflagCopied) st.config.device

/-- The step that installs the data cluster in the slot's L2 table. -/
def l2PatchStep : Step :=
  patchStep (.l2Slot prog.slot) (prog.l2Idx st.geometry * 8) (prog.dataHost ||| oflagCopied)
    st.config.device

/-- The step that writes the request's bytes into the cluster at `host`. -/
def bodyAt (host : Nat) : Step :=
  bodyStep prog.data prog.consumed (host + prog.inOff st.geometry) (prog.winLen st.geometry)
    st.config.device

end

/-- Mark a slot's table as changed. -/
def dirtySlot (st : WriteState) (slot : Nat) : WriteState :=
  st.setSlot slot { st.l2Slots slot with dirty := true }

section

variable (pl : Planner) (prog : WriteProgress)

/-- Name the new table in the L1. -/
def stageFreshZeroed : Flow WriteProgress :=
  emit pl prog (l1PatchStep pl.state prog) fun pl =>
    .next { pl with state := WriteState.touch { pl.state with l1Dirty := true } prog.slot }
      { prog with stage := .slotReady }

/-- Classify the L2 entry. -/
def stageSlotReady : Flow WriteProgress :=
  let st := pl.state
  let geo := st.geometry
  let entry := readStagedL2Entry st pl.staged prog.slot (prog.l2Idx geo)
  match classifyL2Entry st pl.staged.refblocks entry with
  | .error e => .fail e pl prog
  | .ok (.owned host) => emit pl prog (bodyAt st prog host) fun pl => .next pl (prog.advance geo)
  | .ok (.ownedZero host) => .next pl { prog with dataHost := host, stage := .dataAlloc }
  | .ok (.cowData old zeroPreimage) =>
    match allocCluster pl with
    | (.error e, pl) => .fail e pl prog
    | (.ok host, pl) =>
      .next pl { prog with
        dataHost := host, cowSrc := old, cowZeroPreimage := zeroPreimage, stage := .cowDataEnter }
  | .ok .unallocated =>
    let inOff := prog.inOff geo
    let effEnd := min geo.clusterSize (geo.virtualSize - (prog.cur - inOff))
    if st.hasBacking ∧ (inOff ≠ 0 ∨ inOff + prog.winLen geo < effEnd) then
      .fail .needsBackingFill pl prog
    else
      match allocCluster pl with
      | (.error e, pl) => .fail e pl prog
      | (.ok host, pl) => .next pl { prog with dataHost := host, stage := .dataAlloc }

/-- Zero the head of a new cluster. -/
def stageDataAlloc : Flow WriteProgress :=
  let inOff := prog.inOff pl.state.geometry
  if 0 < inOff then
    emit pl prog (zeroRangeStep prog.dataHost inOff pl.state.config.device) fun pl =>
      .next pl { prog with stage := .headDone }
  else .next pl { prog with stage := .headDone }

/-- Write the data. -/
def stageHeadDone : Flow WriteProgress :=
  emit pl prog (bodyAt pl.state prog prog.dataHost) fun pl =>
    .next pl { prog with stage := .bodyDone }

/-- Zero the tail of a new cluster. -/
def stageBodyDone : Flow WriteProgress :=
  let geo := pl.state.geometry
  let tailOff := prog.inOff geo + prog.winLen geo
  if tailOff < geo.clusterSize then
    emit pl prog (zeroRangeStep (prog.dataHost + tailOff) (geo.clusterSize - tailOff)
      pl.state.config.device) fun pl => .next pl { prog with stage := .tailDone }
  else .next pl { prog with stage := .tailDone }

/-- Name the cluster in its table. -/
def stageTailDone : Flow WriteProgress :=
  emit pl prog (l2PatchStep pl.state prog) fun pl =>
    .next { pl with state := dirtySlot pl.state prog.slot } (prog.advance pl.state.geometry)

/-- Load the table to copy. -/
def stageCowL2Load : Flow WriteProgress :=
  let geo := pl.state.geometry
  emit pl prog (loadStep prog.slot prog.cowSrc geo.clusterSize pl.state.config.device) fun pl =>
    .next { pl with state := assignSlot pl.state prog.slot (prog.l1Idx geo) prog.l2Host true }
      { prog with stage := .cowL2Repoint }

/-- Name the copy in the L1. -/
def stageCowL2Repoint : Flow WriteProgress :=
  emit pl prog (l1PatchStep pl.state prog) fun pl =>
    .next { pl with state := { pl.state with l1Dirty := true } } { prog with stage :=
      .cowL2Decrement }

/-- The window closes here as well: the slot's bytes exist once the load has been executed. -/
def stageCowL2Decrement : Flow WriteProgress :=
  match decRefcount pl prog.cowSrc with
  | .error e => .fail e pl prog
  | .ok pl => .fail .bufFull pl { prog with stage := .enter }

/-- Fetch the cluster to copy. -/
def stageCowDataEnter : Flow WriteProgress :=
  let geo := pl.state.geometry
  if prog.inOff geo = 0 ∧ prog.winLen geo = geo.clusterSize then
    .next pl { prog with stage := .cowDataBody }
  else if prog.cowZeroPreimage then
    emit pl prog (zeroRangeStep prog.dataHost geo.clusterSize pl.state.config.device) fun pl =>
      .next pl { prog with stage := .cowDataBody }
  else
    emit pl prog (readClusterToBounceStep prog.cowSrc geo.clusterSize pl.state.config.device)
      fun pl => .next pl { prog with stage := .cowDataCopy }

/-- Write the copy. -/
def stageCowDataCopy : Flow WriteProgress :=
  emit pl prog (writeBounceClusterStep prog.dataHost pl.state.geometry.clusterSize
    pl.state.config.device) fun pl => .next pl { prog with stage := .cowDataBody }

/-- Write the data over the copy. -/
def stageCowDataBody : Flow WriteProgress :=
  emit pl prog (bodyAt pl.state prog prog.dataHost) fun pl =>
    .next pl { prog with stage := .cowDataPatch }

/-- Name the copy in its table. -/
def stageCowDataPatch : Flow WriteProgress :=
  emit pl prog (l2PatchStep pl.state prog) fun pl =>
    .next { pl with state := dirtySlot pl.state prog.slot } { prog with stage := .cowDataDecrement }

/-- Drop the cluster copied. -/
def stageCowDataDecrement : Flow WriteProgress :=
  match decRefcount pl prog.cowSrc with
  | .error e => .fail e pl prog
  | .ok pl => .next pl (prog.advance pl.state.geometry)

/-- One pass through the stage match of `drive_write`. -/
def clusterStage : Flow WriteProgress :=
  match prog.stage with
  | .enter => stageEnter pl prog
  | .slotFree => stageSlotFree pl prog
  | .freshAlloc => stageFreshAlloc pl prog
  | .freshZeroed => stageFreshZeroed pl prog
  | .slotReady => stageSlotReady pl prog
  | .dataAlloc => stageDataAlloc pl prog
  | .headDone => stageHeadDone pl prog
  | .bodyDone => stageBodyDone pl prog
  | .tailDone => stageTailDone pl prog
  | .cowL2Load => stageCowL2Load pl prog
  | .cowL2Repoint => stageCowL2Repoint pl prog
  | .cowL2Decrement => stageCowL2Decrement pl prog
  | .cowDataEnter => stageCowDataEnter pl prog
  | .cowDataCopy => stageCowDataCopy pl prog
  | .cowDataBody => stageCowDataBody pl prog
  | .cowDataPatch => stageCowDataPatch pl prog
  | .cowDataDecrement => stageCowDataDecrement pl prog

/-- The body of the write loop: done when everything is consumed, else one stage. -/
def writeStage : Flow WriteProgress :=
  if prog.consumed < prog.len then clusterStage pl prog else .finish pl prog

end

/-! ## The flush stages -/

def l1WriteStep (st : WriteState) : Step :=
  ⟨.writeRange, st.config.device, .l1, 0, st.geometry.l1TableOffset, st.geometry.l1Size * 8, 0⟩

def refblockWriteStep (st : WriteState) (idx host : Nat) : Step :=
  ⟨.writeRange, st.config.device, .refblocks, idx * st.geometry.clusterSize, host,
    st.geometry.clusterSize, 0⟩

section

variable (pl : Planner) (prog : FlushProgress)

def flushPreBarrier : Flow FlushProgress :=
  barrierIfNeeded pl prog fun pl => .next pl ⟨.l2Writebacks, 0⟩

/-- Write the dirty tables. -/
def flushL2Writebacks : Flow FlushProgress :=
  let st := pl.state
  match st.nextDirtySlot prog.nextIdx with
  | some idx =>
    emit pl prog (writebackStep idx (st.l2Slots idx).hostOffset st.geometry.clusterSize
      st.config.device) fun pl =>
        .next { pl with state := pl.state.setSlot idx { st.l2Slots idx with dirty := false } }
          { prog with nextIdx := idx + 1 }
  | none => .next pl { prog with stage := .l1Barrier }

def flushL1Barrier : Flow FlushProgress :=
  if pl.state.l1Dirty then
    barrierIfNeeded pl prog fun pl => .next pl { prog with stage := .l1Write }
  else .next pl { prog with stage := .rbBarrier }

/-- Write the L1. -/
def flushL1Write : Flow FlushProgress :=
  emit pl prog (l1WriteStep pl.state) fun pl =>
    .next { pl with state := { pl.state with l1Dirty := false } } { prog with stage := .rbBarrier }

def flushRbBarrier : Flow FlushProgress :=
  if (pl.state.nextDirtyRefblock 0).isSome then
    barrierIfNeeded pl prog fun pl => .next pl ⟨.rbWritebacks, 0⟩
  else .next pl { prog with stage := .endBarrier }

/-- Write the dirty refcount blocks. -/
def flushRbWritebacks : Flow FlushProgress :=
  let st := pl.state
  let cs := st.geometry.clusterSize
  match st.nextDirtyRefblock prog.nextIdx with
  | some idx =>
    if pl.staged.refblocks.len / cs ≤ idx then .fail .stagedRegionsMismatch pl prog
    else
      let rtEntry := pl.staged.refcountTable.be (idx * 8) 8
      let host := rtEntry &&& l1OffsetMask
      if host = 0 ∨ host % cs ≠ 0 ∨ rtEntry &&& 0x1ff ≠ 0 then .fail .stagedRegionsMismatch pl prog
      else
        emit pl prog (refblockWriteStep st idx host) fun pl =>
          .next { pl with state := pl.state.refblockDirtyClear idx } { prog with
            nextIdx := idx + 1 }
  | none => .next pl { prog with stage := .endBarrier }

/-- One pass through the stage match of `drive_flush`. -/
def flushStage : Flow FlushProgress :=
  match prog.stage with
  | .preBarrier => flushPreBarrier pl prog
  | .l2Writebacks => flushL2Writebacks pl prog
  | .l1Barrier => flushL1Barrier pl prog
  | .l1Write => flushL1Write pl prog
  | .rbBarrier => flushRbBarrier pl prog
  | .rbWritebacks => flushRbWritebacks pl prog
  | .endBarrier => barrierIfNeeded pl prog fun pl => .finish pl prog

end

/-! ## The loops and the entry points -/

/-- Run stages until one stops the loop; `none` if the fuel is too small. -/
def drive {P : Type} (stage : Planner → P → Flow P) :
    Nat → Planner → P → Option (Except WriteError Unit × Planner × P)
  | 0, _, _ => none
  | fuel + 1, pl, prog =>
    match stage pl prog with
    | .next pl prog => drive stage fuel pl prog
    | .fail e pl prog => some (.error e, pl, prog)
    | .finish pl prog => some (.ok (), pl, prog)

/-- Enough fuel for the stages a write still has to go through. -/
def writeFuel (prog : WriteProgress) : Nat := 15 * (prog.len - prog.consumed) + 16

/-- Enough fuel for the stages of a flush. -/
def flushFuel (st : WriteState) : Nat := st.config.l2Slots + st.config.maxRefblocks + 10

/-- The emission loop of a write. -/
def driveWrite (pl : Planner) (prog : WriteProgress) :
    Option (Except WriteError Unit × Planner × WriteProgress) :=
  drive writeStage (writeFuel prog) pl prog

/-- The emission loop of a flush. -/
def driveFlush (pl : Planner) (prog : FlushProgress) :
    Option (Except WriteError Unit × Planner × FlushProgress) :=
  drive flushStage (flushFuel pl.state) pl prog

/-- The progress record of a new write request. -/
def WriteProgress.start (voff len : Nat) (data : DataSource) : WriteProgress :=
  ⟨voff, len, data, 0, .enter, 0, 0, 0, 0, false⟩

/-- Request admission: the bounds checks made before any step or state change. `none` is the
empty request. -/
def admitWrite (geo : Geometry) (voff len : Nat) (data : DataSource) :
    Except WriteError (Option WriteProgress) :=
  if ¬ voff + len < 2 ^ 64 then .error .outOfBounds
  else if geo.virtualSize < voff + len then .error .outOfBounds
  else
    let dataOk : Bool := match data with
      | .callerData offset => offset + len < 2 ^ 64
      | .fill _ => true
    if ¬ dataOk then .error .outOfBounds
    else if len = 0 then .ok none
    else if geo.l1Size ≤ (voff + len - 1) / geo.l2Coverage then .error .outOfBounds
    else .ok (some (WriteProgress.start voff len data))

section

variable (pl : Planner)

/-- A planner call counts as confirmation that the previous window was executed. -/
def beginCall : Planner :=
  { pl with state := { pl.state with pending := .idle }.pendingZeroClearAll }

/-- Run the write loop from `prog` and record where to resume. -/
def continueWrite (prog : WriteProgress) : Option (Except WriteError Unit × Planner) :=
  match driveWrite (beginCall pl) prog with
  | none => none
  | some (.error .bufFull, pl, prog) =>
    some (.error .bufFull, { pl with state := { pl.state with pending := .write prog } })
  | some (r, pl, _) => some (r, pl)

/-- Run the flush loop from `prog` and record where to resume. -/
def continueFlush (prog : FlushProgress) : Option (Except WriteError Unit × Planner) :=
  match driveFlush (beginCall pl) prog with
  | none => none
  | some (.error .bufFull, pl, prog) =>
    some (.error .bufFull, { pl with state := { pl.state with pending := .flush prog } })
  | some (r, pl, _) => some (r, pl)

/-- Plan a window of a write request. The number of emitted steps the source returns is the length
of the step buffer. -/
def planWrite (voff len : Nat) (data : DataSource) :
    Option (Except WriteError Unit × Planner) :=
  match pl.state.pending with
  | .flush _ => some (.error .resumeMismatch, pl)
  | .write p =>
    if p.voff ≠ voff ∨ p.len ≠ len ∨ p.data ≠ data then some (.error .resumeMismatch, pl)
    else
      match validateStaged pl.state pl.staged pl.steps.capacity with
      | .error e => some (.error e, pl)
      | .ok () => continueWrite pl p
  | .idle =>
    match validateStaged pl.state pl.staged pl.steps.capacity with
    | .error e => some (.error e, pl)
    | .ok () =>
      match admitWrite pl.state.geometry voff len data with
      | .error e => some (.error e, pl)
      | .ok none => some (.ok (), pl)
      | .ok (some p) => continueWrite pl p

/-- Plan a window of a flush. -/
def planFlush : Option (Except WriteError Unit × Planner) :=
  match pl.state.pending with
  | .write _ => some (.error .resumeMismatch, pl)
  | .flush p =>
    match validateStaged pl.state pl.staged pl.steps.capacity with
    | .error e => some (.error e, pl)
    | .ok () => continueFlush pl p
  | .idle =>
    match validateStaged pl.state pl.staged pl.steps.capacity with
    | .error e => some (.error e, pl)
    | .ok () => continueFlush pl ⟨.preBarrier, 0⟩

end

end Instar.Write
