import Instar.Qcow2.Refcount

/-!
# The write planner's vocabulary and state

Geometry, staging configuration, steps, the step buffer, the staged regions and the planner state
of `crates/qcow2-write`, with the envelope gates that decide whether a state can be built at all.
Arrays indexed by slot or refblock number are functions of the index; the two bitsets are
predicates.
-/

namespace Instar.Write

open Instar.Qcow2

def maxL2Slots : Nat := 256
def maxRefblocks : Nat := 2048

/-! ## Geometry and configuration -/

/-- The layout numbers the planner works with. -/
structure Geometry where
  clusterBits : Nat
  clusterSize : Nat
  virtualSize : Nat
  l1TableOffset : Nat
  l1Size : Nat
  refcountTableOffset : Nat
  refcountTableClusters : Nat
  refcountBits : Nat
  entriesPerL2 : Nat
  l2Coverage : Nat
  entriesPerRefblock : Nat

/-- The geometry of a header. -/
def Geometry.fromHeader (hdr : QcowHeader) : Geometry :=
  let entriesPerL2 := hdr.clusterSize / 8
  { clusterBits := hdr.clusterBits
    clusterSize := hdr.clusterSize
    virtualSize := hdr.virtualSize
    l1TableOffset := hdr.l1TableOffset
    l1Size := hdr.l1Size
    refcountTableOffset := hdr.refcountTableOffset
    refcountTableClusters := hdr.refcountTableClusters
    refcountBits := hdr.refcountBits
    entriesPerL2
    l2Coverage := hdr.clusterSize * entriesPerL2
    entriesPerRefblock := hdr.clusterSize * 8 / hdr.refcountBits }

/-- The device a step addresses. -/
inductive TargetDevice where
  | input0
  | output
  deriving DecidableEq, Repr

/-- How many L2 tables and refblocks the caller staged, and where the image lives. -/
structure StagingConfig where
  l2Slots : Nat
  maxRefblocks : Nat
  device : TargetDevice

/-! ## Steps -/

/-- The memory regions a step can name. -/
inductive RegionId where
  | l1
  | l2Slot (slot : Nat)
  | refcountTable
  | refblocks
  | bounce
  | callerData
  deriving DecidableEq, Repr

/-- What a barrier asks for. -/
inductive BarrierClass where
  | ordering
  | durability
  deriving DecidableEq, Repr

/-- What a step does. -/
inductive StepKind where
  | readCluster
  | writeRange
  | zeroRange
  | fillRange
  | patchEntryU64
  | loadCluster
  | writebackCluster
  | zeroRegion
  | barrier (cls : BarrierClass)
  deriving DecidableEq, Repr

/-- One step of an emitted program. -/
structure Step where
  kind : StepKind
  device : TargetDevice
  region : RegionId
  regionOffset : Nat
  diskOffset : Nat
  len : Nat
  value : Nat
  deriving DecidableEq, Repr

/-- The step buffer of one planner call: its capacity and the steps emitted so far. -/
structure StepBuf where
  capacity : Nat
  steps : List Step

/-- Append a step, or report a full buffer. -/
def StepBuf.push (buf : StepBuf) (step : Step) : Option StepBuf :=
  if buf.steps.length = buf.capacity then none
  else some { buf with steps := buf.steps ++ [step] }

/-- The staged metadata the planner reads; it writes the refblocks only. -/
structure StagedRegions where
  l1 : Buffer
  l2Window : Buffer
  refcountTable : Buffer
  refblocks : Buffer

/-! ## Envelope gates -/

/-- Why an image is outside the write envelope. -/
inductive Gate where
  | refcountWidth
  | unknownIncompatible
  | extendedL2
  | externalDataFile
  | encryption
  | dirtyCorrupt
  | hasSnapshots
  | unsupportedVersion
  | invalidStagingConfig
  deriving DecidableEq, Repr

def knownIncompat : Nat :=
  incompatDirty ||| incompatCorrupt ||| incompatExternalData ||| incompatExtendedL2

/-- `check_envelope_with`. -/
def checkEnvelopeWith (hdr : QcowHeader) (allowSnapshots : Bool) : Except Gate Unit :=
  if hdr.version ≠ 2 ∧ hdr.version ≠ 3 then .error .unsupportedVersion
  else if hdr.refcountBits ≠ 16 then .error .refcountWidth
  else if hdr.incompatibleFeatures &&& incompatCompression ≠ 0 ∨
      hdr.incompatibleFeatures &&& complU64 knownIncompat ≠ 0 then .error .unknownIncompatible
  else if hdr.extendedL2 then .error .extendedL2
  else if hdr.hasExternalData then .error .externalDataFile
  else if hdr.cryptMethod ≠ 0 then .error .encryption
  else if hdr.dirty ∨ hdr.corrupt then .error .dirtyCorrupt
  else if ¬ allowSnapshots ∧ 0 < hdr.nbSnapshots then .error .hasSnapshots
  else .ok ()

/-! ## Planner state -/

/-- Why a request fails. -/
inductive WriteError where
  | bufFull
  | refcountExhausted
  | notImplemented
  | outOfBounds
  | resumeMismatch
  | stagedRegionsMismatch
  | compressedCluster
  | snapshotShared
  | snapshotSharedL2Table
  | unknownL1Entry
  | unknownL2Entry
  | refcountInconsistent
  | refcountCoverage
  | needsBackingFill
  deriving DecidableEq, Repr

/-- Where the bytes of a write come from. -/
inductive DataSource where
  | callerData (offset : Nat)
  | fill (byte : UInt8)
  deriving DecidableEq, Repr

/-- One slot of the staged L2 window. -/
structure L2Slot where
  valid : Bool
  dirty : Bool
  l1Idx : Nat
  hostOffset : Nat
  lastAccess : Nat
  deriving DecidableEq, Repr

def L2Slot.empty : L2Slot := ⟨false, false, 0, 0, 0⟩

/-- How far the current cluster of a write has come. -/
inductive ClusterStage where
  | enter
  | slotFree
  | freshAlloc
  | freshZeroed
  | slotReady
  | dataAlloc
  | headDone
  | bodyDone
  | tailDone
  | cowL2Load
  | cowL2Repoint
  | cowL2Decrement
  | cowDataEnter
  | cowDataCopy
  | cowDataBody
  | cowDataPatch
  | cowDataDecrement
  deriving DecidableEq, Repr

/-- A write request in progress. -/
structure WriteProgress where
  voff : Nat
  len : Nat
  data : DataSource
  consumed : Nat
  stage : ClusterStage
  slot : Nat
  l2Host : Nat
  dataHost : Nat
  cowSrc : Nat
  cowZeroPreimage : Bool

/-- The stages of a flush. -/
inductive FlushStage where
  | preBarrier
  | l2Writebacks
  | l1Barrier
  | l1Write
  | rbBarrier
  | rbWritebacks
  | endBarrier
  deriving DecidableEq, Repr

/-- A flush in progress. -/
structure FlushProgress where
  stage : FlushStage
  nextIdx : Nat

/-- The request a full buffer interrupted, if any. -/
inductive Pending where
  | idle
  | write (prog : WriteProgress)
  | flush (prog : FlushProgress)

/-- The state of the planner. -/
structure WriteState where
  geometry : Geometry
  config : StagingConfig
  l2Slots : Nat → L2Slot
  refblockDirty : Nat → Bool
  accessCounter : Nat
  allocCursor : AllocCursor
  hasBacking : Bool
  cowEnabled : Bool
  l1Dirty : Bool
  stepsSinceBarrier : Nat
  slotPendingZero : Nat → Bool
  pending : Pending

/-- Build a planner state, with copy-on-write enabled or not. -/
def newStateImpl (hdr : QcowHeader) (cfg : StagingConfig) (cowEnabled : Bool) :
    Except Gate WriteState :=
  match checkEnvelopeWith hdr cowEnabled with
  | .error gate => .error gate
  | .ok () =>
    if cfg.l2Slots = 0 ∨ maxL2Slots < cfg.l2Slots ∨ cfg.maxRefblocks = 0 ∨
        maxRefblocks < cfg.maxRefblocks then .error .invalidStagingConfig
    else .ok {
      geometry := Geometry.fromHeader hdr
      config := cfg
      l2Slots := fun _ => L2Slot.empty
      refblockDirty := fun _ => false
      accessCounter := 0
      allocCursor := ⟨0, 0, 0⟩
      hasBacking := hdr.backingFileOffset ≠ 0
      cowEnabled
      l1Dirty := false
      stepsSinceBarrier := 0
      slotPendingZero := fun _ => false
      pending := .idle }

/-- `new_state_cow`. -/
def newStateCow (hdr : QcowHeader) (cfg : StagingConfig) : Except Gate WriteState :=
  newStateImpl hdr cfg true

namespace WriteState

/-- The slot that holds the L2 table of `l1Idx`. -/
def findSlot (st : WriteState) (l1Idx : Nat) : Option Nat :=
  (List.range st.config.l2Slots).find? fun i =>
    (st.l2Slots i).valid && (st.l2Slots i).l1Idx == l1Idx

/-- The scan of `pickVictim`: the first invalid slot, else the least recently used one. -/
def pickVictimGo (slots : Nat → L2Slot) : List Nat → Nat → Nat → Nat
  | [], best, _ => best
  | i :: is, best, bestAccess =>
    if ¬ (slots i).valid then i
    else if (slots i).lastAccess < bestAccess then pickVictimGo slots is i (slots i).lastAccess
    else pickVictimGo slots is best bestAccess

section

variable (st : WriteState)

/-- The slot to reuse for another L2 table. -/
def pickVictim : Nat := pickVictimGo st.l2Slots (List.range st.config.l2Slots) 0 (2 ^ 64 - 1)

/-- Replace one slot. -/
def setSlot (idx : Nat) (slot : L2Slot) : WriteState :=
  { st with l2Slots := Function.update st.l2Slots idx slot }

/-- Mark a slot as the most recently used. -/
def touch (idx : Nat) : WriteState :=
  let counter := st.accessCounter + 1
  { st with
    accessCounter := counter
    l2Slots := Function.update st.l2Slots idx { st.l2Slots idx with lastAccess := counter } }

def pendingZeroSet (idx : Nat) : WriteState :=
  { st with slotPendingZero := Function.update st.slotPendingZero idx true }

def pendingZeroClearAll : WriteState := { st with slotPendingZero := fun _ => false }

def refblockDirtySet (idx : Nat) : WriteState :=
  { st with refblockDirty := Function.update st.refblockDirty idx true }

def refblockDirtyClear (idx : Nat) : WriteState :=
  { st with refblockDirty := Function.update st.refblockDirty idx false }

/-- The next dirty slot from `start` on. -/
def nextDirtySlot (start : Nat) : Option Nat :=
  (List.range' start (st.config.l2Slots - start)).find? fun i =>
    (st.l2Slots i).valid && (st.l2Slots i).dirty

/-- The next dirty block from `start` on. -/
def nextDirtyRefblock (start : Nat) : Option Nat :=
  (List.range' start (st.config.maxRefblocks - start)).find? st.refblockDirty

end

end WriteState

end Instar.Write
