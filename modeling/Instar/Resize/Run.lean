import Instar.Lib.SectorDevice
import Instar.Resize.Plan

/-!
# Running a qcow2 resize

The resize guest: it parses the header in the first sector, stages the tables the planner needs,
plans, and applies the patches in order.  `resize` adds what stands before the guest: the host's
probe, which refuses an image with a backing file, and the guest's dispatch on the magic.

`runQcow2_ok` says what a run that reports success was: a plan, computed from the bytes of the
device, whose patches are on the device afterwards.
-/

namespace Instar.Resize

open Instar.Qcow2

/-- The error codes of `ResizeResult` other than `ERROR_OK`. -/
inductive ErrorCode where
  | invalidOption
  | invalidNewSize
  | shrinkWithoutFlag
  | shrinkBelowAllocated
  | unsupportedFormat
  | unsupportedSubformat
  | unsupportedShrink
  | preallocationUnsupported
  | scratchTooSmall
  | readFailed
  | writeFailed
  | parseFailed
  | headerMismatch
  | bitmapsUnsupported
  | fixedVhdx
deriving DecidableEq, Repr

/-- The code of a planner error. -/
def mapError : ResizeError → ErrorCode
  | .invalidNewVirtualSize => .invalidNewSize
  | .shrinkWithoutFlag => .shrinkWithoutFlag
  | .shrinkBelowAllocated => .shrinkBelowAllocated
  | .unsupportedFormat => .unsupportedFormat
  | .unsupportedSubformat => .unsupportedSubformat
  | .unsupportedShrink => .unsupportedShrink
  | .preallocationUnsupported => .preallocationUnsupported
  | .overflow => .invalidNewSize
  | .scratchTooSmall => .scratchTooSmall
  | .requiresCheckFirst => .parseFailed
  | .headerMismatch => .headerMismatch
  | .parseFailed => .parseFailed
  | .bitmapsPresent => .bitmapsUnsupported
  | .fixedVhdx => .fixedVhdx

/-- The fields of `ResizeConfig` that a qcow2 resize reads. -/
structure ResizeConfig where
  currentVirtualSize : Nat
  newVirtualSize : Nat
  currentFileSize : Nat
  preallocation : Preallocation
  allowShrink : Bool

/-- `ResizeResult`; no error is `ERROR_OK`. -/
structure ResizeResult where
  resolvedNewVirtualSize : Nat
  fileSizeBefore : Nat
  fileSizeAfter : Nat
  action : ResizeAction
  error : Option ErrorCode

/-- The result of a refused run. -/
def errResult (config : ResizeConfig) (error : ErrorCode) : ResizeResult :=
  { resolvedNewVirtualSize := 0
    fileSizeBefore := config.currentVirtualSize
    fileSizeAfter := 0
    action := .noOp
    error := some error }

/-- How the guest ends without a plan: it reports an error, or nothing (a panic spins for ever, as
does a loop that does not end). -/
inductive Outcome where
  | report (code : ErrorCode)
  | hang
deriving DecidableEq, Repr

/-- What a planner that stops makes the guest do. -/
def ofStop {α : Type} : Except Stop α → Except Outcome α
  | .ok a => .ok a
  | .error (.error e) => .error (.report (mapError e))
  | .error _ => .error .hang

def existingStateLimit : Nat := 4 * 1024 * 1024

/-- `read_byte_range` into fresh staging memory. -/
def readStaged (d : Device) (off len : Nat) : Except Outcome Buffer :=
  match d.readRange off len fun _ => 0 with
  | .ok bytes => .ok ⟨len, bytes⟩
  | .error _ => .error (.report .readFailed)

/-- Stage the refcount blocks of the given indices; an index past the table is a slice panic. -/
def stageBlocks (d : Device) (clusterSize : Nat) (table : Buffer) :
    List Nat → Except Outcome (List (Nat × Buffer))
  | [] => .ok []
  | blockIdx :: rest => do
      failIf (table.len < blockIdx * 8 + 8) .hang
      let block ← readStaged d (wordAt table blockIdx) clusterSize
      let blocks ← stageBlocks d clusterSize table rest
      .ok ((blockIdx, block) :: blocks)

def maxShrinkRbIndices : Nat := 1024

/-- The stage-all scan of a shrink: the indices of the nonzero table entries. -/
def scanBlocks (table : Buffer) : Except Outcome (List Nat) :=
  (List.range (table.len / 8)).foldlM (fun found i =>
      if wordAt table i = 0 then .ok found
      else if maxShrinkRbIndices ≤ found.length then .error (.report .scratchTooSmall)
      else .ok (found ++ [i]))
    []

/-- The number of L2 tables a shrink can stage. -/
def maxStagedL2 : Nat := 256

variable (d : Device) (config : ResizeConfig) (hdr : QcowHeader)

/-- Stage the L2 table of L1 entry `li` if the shrink may need it. -/
def stageL2 (l1 : Buffer) (l2Off : Nat) (staged : List (Nat × Buffer)) (li : Nat) :
    Except Outcome (List (Nat × Buffer)) :=
  let coverage := l2Coverage hdr.clusterSize hdr.extendedL2
  if li * coverage + coverage ≤ config.newVirtualSize then .ok staged
  else if config.currentVirtualSize ≤ li * coverage then .ok staged
  else if wordAt l1 li = 0 then .ok staged
  else if maxStagedL2 ≤ staged.length then .error (.report .scratchTooSmall)
  else if existingStateLimit < l2Off + staged.length * hdr.clusterSize + hdr.clusterSize then
    .error (.report .scratchTooSmall)
  else do
    let table ← readStaged d (hostOf (wordAt l1 li)) hdr.clusterSize
    .ok (staged ++ [(li, table)])

def autoclearFeaturesOffset : Nat := 88

/-- The autoclear word of the first sector. -/
def autoclearOf (d : Device) : Nat :=
  if autoclearFeaturesOffset + 8 ≤ d.sectorSize then d.bytes.be autoclearFeaturesOffset 8 else 0

/-- The grow query of a run. -/
def queryOf (table : Buffer) : Qcow2ResizeGrowQuery :=
  { currentVirtualSize := config.currentVirtualSize
    newVirtualSize := config.newVirtualSize
    clusterSize := hdr.clusterSize
    refcountBits := hdr.refcountBits
    extendedL2 := hdr.extendedL2
    preallocation := config.preallocation
    allowShrink := config.allowShrink
    currentFileSize := config.currentFileSize
    currentL1Entries := hdr.l1Size
    currentL1TableOffset := hdr.l1TableOffset
    currentRefcountTableOffset := hdr.refcountTableOffset
    currentRefcountTableClusters := hdr.refcountTableClusters
    currentIncompatibleFeatures := hdr.incompatibleFeatures
    currentAutoclearFeatures := autoclearOf d
    existingRefcountTable := table }

/-- The refcount blocks a run stages: the query's for a grow, every populated one for a shrink. -/
def blockIndices (fuel : Nat) (table : Buffer) : Except Outcome (List Nat) :=
  if config.currentVirtualSize ≤ config.newVirtualSize then do
    let answer ← ofStop (computeGrowQuery (queryOf d config hdr table) fuel)
    .ok answer.2
  else scanBlocks table

/-- The L2 tables a run stages: none for a grow. -/
def stageL2s (l1 : Buffer) (l2Off : Nat) : Except Outcome (List (Nat × Buffer)) :=
  if config.newVirtualSize < config.currentVirtualSize then
    (List.range hdr.l1Size).foldlM (stageL2 d config hdr l1 l2Off) []
  else .ok []

/-- The planner's options: what the run has staged. -/
def optsOf (l1 table : Buffer) (blocks l2 : List (Nat × Buffer)) : Qcow2ResizeOpts :=
  { queryOf d config hdr table with
    existingL1 := l1
    existingRefcountBlocks := blocks
    existingL2 := l2
    lazyRefcounts := hdr.lazyRefcounts }

/-- `run_qcow2` up to the plan. -/
def planFor (fuel : Nat) : Except Outcome ResizePlan := do
  failIf (hdr.clusterSize = 0 ∨ 2 * 1024 * 1024 < hdr.clusterSize) (.report .parseFailed)
  let tableBytes := hdr.refcountTableClusters * hdr.clusterSize
  let tableEnd := hdr.l1Size * 8 + tableBytes
  failIf (existingStateLimit < tableEnd) (.report .scratchTooSmall)
  let l1 ← readStaged d hdr.l1TableOffset (hdr.l1Size * 8)
  let table ← readStaged d hdr.refcountTableOffset tableBytes
  let indices ← blockIndices d config hdr fuel table
  let l2Off := tableEnd + indices.length * hdr.clusterSize
  failIf (existingStateLimit < l2Off) (.report .scratchTooSmall)
  let blocks ← stageBlocks d hdr.clusterSize table indices
  let l2 ← stageL2s d config hdr l1 l2Off
  ofStop (planGrow (optsOf d config hdr l1 table blocks l2) fuel)

/-- Write the patches in order. -/
def applyPlan : List (Nat × Buffer) → Device → Bool × Device
  | [], d => (true, d)
  | (byteOffset, bytes) :: rest, d =>
    match d.writeRange byteOffset bytes.len bytes.bytes with
    | (.ok _, d') => applyPlan rest d'
    | (.error _, d') => (false, d')

/-- `run_qcow2`; no result when the guest hangs. -/
def runQcow2 (fuel : Nat) : Option ResizeResult × Device :=
  match QcowHeader.parse ⟨d.sectorSize, d.bytes⟩ with
  | none => (some (errResult config .parseFailed), d)
  | some hdr =>
    match planFor d config hdr fuel with
    | .error (.report code) => (some (errResult config code), d)
    | .error .hang => (none, d)
    | .ok plan =>
      match applyPlan plan.patches d with
      | (false, d') => (some (errResult config .writeFailed), d')
      | (true, d') =>
        (some {
          resolvedNewVirtualSize := config.newVirtualSize
          fileSizeBefore := config.currentFileSize
          fileSizeAfter := plan.totalFileSize
          action := plan.action
          error := none }, d')

/-- The host's probe of a qcow2 target and the guest's dispatch: the magic, and no backing file. -/
def accepts (bytes : ByteMap) (hdr : QcowHeader) : Prop :=
  bytes.be 0 4 = qcow2Magic ∧ hdr.backingFileOffset = 0 ∧ hdr.backingFileSize = 0

/-! ## What a run that reports success was -/

variable {d config hdr} {d' : Device} {α : Type} {a : α}

theorem ofStop_eq_ok {x : Except Stop α} (h : ofStop x = .ok a) : x = .ok a := by
  unfold ofStop at h
  split at h
  · exact congrArg _ (Except.ok.inj h)
  · cases h
  · cases h

theorem ofCreate_eq_ok {x : Except Qcow2CreateError α} (h : ofCreate x = .ok a) : x = .ok a := by
  unfold ofCreate at h
  split at h
  · exact congrArg _ (Except.ok.inj h)
  · cases h

theorem readStaged_ok {off len : Nat} {b : Buffer} (hs : 0 < d.sectorSize)
    (h : readStaged d off len = .ok b) :
    b.len = len ∧ ∀ i < len, b.bytes i = d.bytes (off + i) := by
  unfold readStaged at h
  split at h
  next bytes hread =>
    cases h
    refine ⟨rfl, fun i hi => ?_⟩
    rw [Device.readRange_ok hs hread]
    dsimp only
    rw [ByteMap.splice_mem (Nat.zero_le _) (by omega), ByteMap.drop_apply, Nat.sub_zero]
  · cases h

theorem applyPlan_ok {ws : List (Nat × Buffer)} (hs : 0 < d.sectorSize)
    (h : applyPlan ws d = (true, d')) :
    d'.sectorSize = d.sectorSize ∧ d'.bytes = applyAll ws d.bytes := by
  induction ws generalizing d with
  | nil =>
    cases h
    exact ⟨rfl, rfl⟩
  | cons w ws ih =>
    rw [applyPlan] at h
    split at h
    next d1 hwrite =>
      obtain ⟨es, rfl, -, hbytes⟩ := Device.writeRange_spec hs hwrite
      have hs' : 0 < (d.after es).sectorSize := hs
      obtain ⟨hsize, happly⟩ := ih hs' h
      exact ⟨hsize, by rw [happly, hbytes rfl, applyAll_cons]⟩
    · cases h

/-- A run that reports success planned its patches and applied them all. -/
theorem runQcow2_ok {fuel : Nat} {result : ResizeResult} (hs : 0 < d.sectorSize)
    (h : runQcow2 d config fuel = (some result, d')) (hok : result.error = none) :
    ∃ hdr plan, QcowHeader.parse ⟨d.sectorSize, d.bytes⟩ = some hdr ∧
      planFor d config hdr fuel = .ok plan ∧ d'.sectorSize = d.sectorSize ∧
      d'.bytes = applyAll plan.patches d.bytes ∧ result.fileSizeAfter = plan.totalFileSize := by
  have herr : ∀ {code : ErrorCode}, some (errResult config code) ≠ some result := by
    rintro code hcode
    cases hcode
    cases hok
  unfold runQcow2 at h
  split at h
  · exact absurd (Prod.ext_iff.mp h).1 herr
  next hdr hparse =>
    split at h
    · exact absurd (Prod.ext_iff.mp h).1 herr
    · cases h
    next plan hplan =>
      split at h
      · exact absurd (Prod.ext_iff.mp h).1 herr
      next d1 happly =>
        obtain ⟨hsize, hbytes⟩ := applyPlan_ok hs happly
        cases h
        exact ⟨hdr, plan, hparse, hplan, hsize, hbytes, rfl⟩

end Instar.Resize
