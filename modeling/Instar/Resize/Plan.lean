import Instar.Lib.Checked
import Instar.Lib.Patches
import Instar.Qcow2.Subclusters
import Instar.Qcow2.Widths

/-!
# Planning a qcow2 resize

The planner of `crates/resize`: from the header fields and the staged tables of an image it computes
an ordered list of patches.  A grow appends a new L1 (and, where the refcount blocks no longer cover
the file, new blocks and possibly a new refcount table), raises the counts of the new clusters,
rewrites the header and then clears the counts of the tables it left behind.  A shrink clears table
entries above the new size and the counts of the clusters they name.

The scratch buffer is modelled by the pieces carved out of it and the position of the next free
byte. `Stop` is how a plan can end without one: a reported error, a slice index out of range, or a
fixed-point loop that has not ended within the fuel.
-/

namespace Instar.Resize

open Instar.Qcow2 List

/-- Why the planner refuses. -/
inductive ResizeError where
  | invalidNewVirtualSize
  | shrinkWithoutFlag
  | shrinkBelowAllocated
  | unsupportedFormat
  | unsupportedSubformat
  | unsupportedShrink
  | overflow
  | scratchTooSmall
  | preallocationUnsupported
  | requiresCheckFirst
  | headerMismatch
  | parseFailed
  | bitmapsPresent
  | fixedVhdx
deriving DecidableEq, Repr

/-- How a computation of the planner ends without a result. -/
inductive Stop where
  | error (e : ResizeError)
  | panic
  | outOfFuel
deriving DecidableEq, Repr

/-- The preallocation modes. -/
inductive Preallocation where
  | off
  | metadata
  | falloc
  | full
deriving DecidableEq, Repr

/-- What a resize does. -/
inductive ResizeAction where
  | noOp
  | grow
  | shrink
deriving DecidableEq, Repr

/-- What a grow has to move. -/
inductive Qcow2GrowAction where
  | headerOnly
  | l1Grow
  | l1AndRefcountGrow
deriving DecidableEq, Repr

/-! ## Plans -/

def maxResizePatches : Nat := 128

/-- A `ResizePlan`: its patches are `Write` and `Append`, which are applied alike. -/
structure ResizePlan where
  action : ResizeAction
  totalFileSize : Nat
  patches : List (Nat × Buffer)

/-- Add a patch, if there is room. -/
def ResizePlan.push (plan : ResizePlan) (byteOffset : Nat) (bytes : Buffer) :
    Except Stop ResizePlan :=
  if maxResizePatches ≤ plan.patches.length then .error (.error .scratchTooSmall)
  else .ok { plan with patches := plan.patches ++ [(byteOffset, bytes)] }

/-- A patch that is pushed only if `c` holds. -/
def ResizePlan.pushIf (plan : ResizePlan) (c : Prop) [Decidable c] (byteOffset : Nat)
    (bytes : Buffer) : Except Stop ResizePlan :=
  if c then plan.push byteOffset bytes else .ok plan

/-! ## The layout of a fresh image -/

/-- Why no layout is found. -/
inductive Qcow2CreateError where
  | invalidVirtualSize
  | invalidClusterBits
  | invalidRefcountBits
  | overflow
  | bufferTooSmall
  | backingMetadataTooLarge
  | preallocationUnsupported
deriving DecidableEq, Repr

/-- The fields of `Qcow2Layout` that the planner and `build_header` read. -/
structure Qcow2Layout where
  clusterBits : Nat
  clusterSize : Nat
  virtualSize : Nat
  refcountBits : Nat
  extendedL2 : Bool
  l1Entries : Nat
  l1Offset : Nat
  refcountTableOffset : Nat
  refcountTableClusters : Nat
  refcountBlockCount : Nat

def refcountFixedPointIterations : Nat := 16

/-- The bounded fixed point of `compute_layout`: table clusters and block count. -/
def refcountFixedPoint (used perBlock clusterSize : Nat) : Nat → Nat × Nat → Nat × Nat
  | 0, counts => counts
  | n + 1, (tableClusters, blockCount) =>
    let total := used + tableClusters + blockCount
    let newBlockCount := divCeil total perBlock
    let newTableClusters := divCeil (newBlockCount * 8) clusterSize
    if newBlockCount = blockCount ∧ newTableClusters = tableClusters then (tableClusters,
      blockCount)
    else refcountFixedPoint used perBlock clusterSize n (newTableClusters, newBlockCount)

/-- The size of an L2 entry. -/
def l2EntrySize (extendedL2 : Bool) : Nat := if extendedL2 then 16 else 8

/-- The virtual bytes one L2 table covers. -/
def l2Coverage (clusterSize : Nat) (extendedL2 : Bool) : Nat :=
  clusterSize * (clusterSize / l2EntrySize extendedL2)

/-- The clusters of an L1 of `entries` entries. -/
def l1Clusters (entries clusterSize : Nat) : Nat := max (divCeil (entries * 8) clusterSize) 1

/-- `compute_layout` with `Preallocation::Off`. -/
def computeLayout (virtualSize clusterBits refcountBits : Nat) (extendedL2 : Bool) :
    Except Qcow2CreateError Qcow2Layout :=
  if virtualSize = 0 then .error .invalidVirtualSize
  else if ¬ (9 ≤ clusterBits ∧ clusterBits ≤ 21) then .error .invalidClusterBits
  else if ¬ LegalWidth refcountBits then .error .invalidRefcountBits
  else
    let clusterSize := 2 ^ clusterBits
    let coverage := l2Coverage clusterSize extendedL2
    if 2 ^ 64 ≤ virtualSize + (coverage - 1) then .error .overflow
    else
      let l1Entries := (virtualSize + (coverage - 1)) / coverage
      if qcow2MaxL1SizeEntries < l1Entries then .error .invalidVirtualSize
      else
        let clusters := l1Clusters l1Entries clusterSize
        let counts := refcountFixedPoint (1 + clusters) (clusterSize * 8 / refcountBits) clusterSize
          refcountFixedPointIterations (1, 1)
        .ok {
          clusterBits, clusterSize, virtualSize, refcountBits, extendedL2, l1Entries
          l1Offset := clusterSize
          refcountTableOffset := (1 + clusters) * clusterSize
          refcountTableClusters := counts.1
          refcountBlockCount := counts.2 }

def qcow2Magic : Nat := 0x514649fb

def qcow2HeaderLengthV3 : Nat := 104

/-- `write_be_u32` and `write_be_u64`. -/
def writeBe (n off v : Nat) (m : ByteMap) : ByteMap := m.splice off n (ByteMap.ofBe v n)

/-- The bytes `build_header` writes with no backing file and no LUKS header: a version 3 header with
an empty extension list, over a zeroed cluster. -/
def headerBytes (layout : Qcow2Layout) (lazyRefcounts : Bool) : ByteMap :=
  (fun _ => 0 : ByteMap)
    |> writeBe 4 0 qcow2Magic
    |> writeBe 4 4 3
    |> writeBe 4 20 layout.clusterBits
    |> writeBe 8 24 layout.virtualSize
    |> writeBe 4 32 0
    |> writeBe 4 36 layout.l1Entries
    |> writeBe 8 40 layout.l1Offset
    |> writeBe 8 48 layout.refcountTableOffset
    |> writeBe 4 56 layout.refcountTableClusters
    |> writeBe 8 72 (if layout.extendedL2 then incompatExtendedL2 else 0)
    |> writeBe 8 80 (if lazyRefcounts then compatLazyRefcounts else 0)
    |> writeBe 4 96 (trailingZeros layout.refcountBits)
    |> writeBe 4 100 qcow2HeaderLengthV3
    |> writeBe 4 104 0
    |> writeBe 4 108 0

/-- `build_header` into a buffer of one cluster. -/
def buildHeader (layout : Qcow2Layout) (lazyRefcounts : Bool) : Except Qcow2CreateError Buffer :=
  if layout.clusterSize < qcow2HeaderLengthV3 + 8 then .error .backingMetadataTooLarge
  else .ok ⟨layout.clusterSize, headerBytes layout lazyRefcounts⟩

def mapQcow2CreateErr : Qcow2CreateError → ResizeError
  | .invalidVirtualSize | .invalidClusterBits | .invalidRefcountBits => .invalidNewVirtualSize
  | .overflow => .overflow
  | .bufferTooSmall | .backingMetadataTooLarge => .scratchTooSmall
  | .preallocationUnsupported => .preallocationUnsupported

/-- The result of a builder, with its errors mapped. -/
def ofCreate {α : Type} : Except Qcow2CreateError α → Except Stop α
  | .ok a => .ok a
  | .error e => .error (.error (mapQcow2CreateErr e))

/-! ## What the planner is given -/

/-- What a grow asks of the layout. -/
structure Qcow2ResizeGrowQuery where
  currentVirtualSize : Nat
  newVirtualSize : Nat
  clusterSize : Nat
  refcountBits : Nat
  extendedL2 : Bool
  preallocation : Preallocation
  allowShrink : Bool
  currentFileSize : Nat
  currentL1Entries : Nat
  currentL1TableOffset : Nat
  currentRefcountTableOffset : Nat
  currentRefcountTableClusters : Nat
  currentIncompatibleFeatures : Nat
  currentAutoclearFeatures : Nat
  existingRefcountTable : Buffer

/-- `Qcow2ResizeOpts`: the query, the L1, and the refcount blocks and L2 tables that were staged,
each with its index. -/
structure Qcow2ResizeOpts extends Qcow2ResizeGrowQuery where
  existingL1 : Buffer
  existingRefcountBlocks : List (Nat × Buffer)
  existingL2 : List (Nat × Buffer)
  lazyRefcounts : Bool

variable (q : Qcow2ResizeGrowQuery) (opts : Qcow2ResizeOpts)

/-- `entries_per_refblock`. -/
def Qcow2ResizeGrowQuery.perBlock : Nat := q.clusterSize * 8 / q.refcountBits

/-- The clusters of the existing L1. -/
def Qcow2ResizeGrowQuery.oldL1Clusters : Nat := l1Clusters q.currentL1Entries q.clusterSize

/-! ## Gates -/

/-- Refuse features not known. -/
def validateIncompat (features : Nat) : Except Stop Unit :=
  let known := incompatDirty ||| incompatCorrupt ||| incompatExternalData
    ||| incompatCompression ||| incompatExtendedL2
  if features &&& complU64 known ≠ 0 then .error (.error .unsupportedFormat)
  else if features &&& (incompatExternalData ||| incompatCompression) ≠ 0 then
    .error (.error .unsupportedFormat)
  else if features &&& (incompatDirty ||| incompatCorrupt) ≠ 0 then
    .error (.error .requiresCheckFirst)
  else .ok ()

def autoclearBitmapsBit : Nat := 2 ^ 0

/-- Refuse images with bitmaps. -/
def validateNoBitmaps (autoclearFeatures : Nat) : Except Stop Unit :=
  if autoclearFeatures &&& autoclearBitmapsBit ≠ 0 then .error (.error .bitmapsPresent) else .ok ()

def clusterBitsFrom (clusterSize : Nat) : Except Stop Nat :=
  if clusterSize = 0 ∨ clusterSize ≠ 2 ^ Nat.log2 clusterSize then
    .error (.error .invalidNewVirtualSize)
  else if ¬ (9 ≤ Nat.log2 clusterSize ∧ Nat.log2 clusterSize ≤ 21) then
    .error (.error .invalidNewVirtualSize)
  else .ok (Nat.log2 clusterSize)

/-- `u64::checked_next_multiple_of`, for a nonzero multiple. -/
def nextMultipleOf (n multiple : Nat) : Except Stop Nat :=
  let aligned := divCeil n multiple * multiple
  if aligned < 2 ^ 64 then .ok aligned else .error (.error .headerMismatch)

/-! ## Counting blocks and sizing the appended tables -/

/-- Entry `i` of a table of big-endian words. -/
def wordAt (table : Buffer) (i : Nat) : Nat := table.be (i * 8) 8

/-- `count_existing_refcount_blocks`: the nonzero entries among the first `n`. -/
def populated (table : Buffer) : Nat → Nat
  | 0 => 0
  | n + 1 => populated table n + if wordAt table n ≠ 0 then 1 else 0

def countExistingRefcountBlocks (table : Buffer) : Nat := populated table (table.len / 8)

/-- Which tables have to grow. -/
def decideAction (currentL1Entries currentTableClusters currentBlockCount targetL1Entries
    targetTableClusters targetBlockCount : Nat) : Qcow2GrowAction :=
  let l1Grows := currentL1Entries < targetL1Entries
  let refcountGrows := currentBlockCount < targetBlockCount ∨
    currentTableClusters < targetTableClusters
  if refcountGrows then .l1AndRefcountGrow
  else if l1Grows then .l1Grow
  else .headerOnly

/-- What an append of an L1 of `l1Clusters` clusters, `blockCount` refcount blocks and a table of
`tableClusters` clusters makes of the file: its size in clusters. -/
def appendedClusters (fileSize clusterSize l1Clusters currentTableClusters existingBlockCount
    blockCount tableClusters : Nat) : Nat :=
  (fileSize + l1Clusters * clusterSize
    + (if currentTableClusters < tableClusters then tableClusters * clusterSize else 0)
    + (blockCount - existingBlockCount) * clusterSize) / clusterSize

/-- The loop of `compute_append_requirements`, from a block count and a table size. -/
def appendLoop (fileSize clusterSize perBlock l1Clusters currentTableClusters
    existingBlockCount : Nat) : Nat → Nat → Nat → Except Stop (Nat × Nat)
  | 0, _, _ => .error .outOfFuel
  | fuel + 1, blockCount, tableClusters =>
    let total := appendedClusters fileSize clusterSize l1Clusters currentTableClusters
      existingBlockCount blockCount tableClusters
    let neededBlockCount := max (divCeil total perBlock) (max existingBlockCount 1)
    let neededTableClusters := max (divCeil (neededBlockCount * 8) clusterSize) currentTableClusters
    if neededBlockCount = blockCount ∧ neededTableClusters = tableClusters then
      .ok (blockCount, tableClusters)
    else appendLoop fileSize clusterSize perBlock l1Clusters currentTableClusters
      existingBlockCount fuel neededBlockCount neededTableClusters

/-- `compute_append_requirements`: the block count and the table clusters. -/
def computeAppendRequirements (fuel fileSize clusterSize perBlock l1Clusters currentTableClusters
    existingBlockCount : Nat) : Except Stop (Nat × Nat) :=
  appendLoop fileSize clusterSize perBlock l1Clusters (max currentTableClusters 1)
    existingBlockCount fuel (max existingBlockCount 1) (max currentTableClusters 1)

/-- The block and table counts a grow of this file to `l1Entries` L1 entries needs. -/
def Qcow2ResizeGrowQuery.appendRequirements (fuel l1Entries existingBlockCount : Nat) :
    Except Stop (Nat × Nat) :=
  computeAppendRequirements fuel q.currentFileSize q.clusterSize q.perBlock
    (l1Clusters l1Entries q.clusterSize) q.currentRefcountTableClusters existingBlockCount

/-- The flavour of a grow and its block and table counts. -/
def Qcow2ResizeGrowQuery.effectiveCounts (fuel : Nat) (target : Qcow2Layout)
    (existingBlockCount : Nat) : Except Stop (Nat × Nat) :=
  if q.currentL1Entries < target.l1Entries then
    q.appendRequirements fuel target.l1Entries existingBlockCount
  else .ok (target.refcountBlockCount, target.refcountTableClusters)

/-- The flavour `decide_action` gives for those counts. -/
def Qcow2ResizeGrowQuery.actionFor (target : Qcow2Layout) (existingBlockCount : Nat)
    (counts : Nat × Nat) : Qcow2GrowAction :=
  decideAction q.currentL1Entries q.currentRefcountTableClusters existingBlockCount target.l1Entries
    counts.2 counts.1

/-! ## The blocks a grow needs -/

def qcow2MaxRequiredBlocks : Nat := 16

/-- `RequiredBlocks::add`. -/
def addRequired (required : List Nat) (blockIdx : Nat) : Except Stop (List Nat) :=
  if blockIdx ∈ required then .ok required
  else if qcow2MaxRequiredBlocks ≤ required.length then .error (.error .scratchTooSmall)
  else .ok (required ++ [blockIdx])

/-- Add the blocks of the clusters `[first, first + count)`. -/
def addBlocksOf (perBlock first count : Nat) (required : List Nat) : Except Stop (List Nat) :=
  (range' first count).foldlM (fun required c => addRequired required (c / perBlock)) required

/-- The blocks a new L1 needs. -/
def addL1GrowthBlocks (target : Qcow2Layout) (required : List Nat) : Except Stop (List Nat) := do
  let required ← addBlocksOf q.perBlock (q.currentFileSize / q.clusterSize)
    (l1Clusters target.l1Entries q.clusterSize) required
  addBlocksOf q.perBlock (q.currentL1TableOffset / q.clusterSize) q.oldL1Clusters required

/-- Where the appended tables of a full grow go. -/
structure AppendLayout where
  blockCount : Nat
  tableClusters : Nat
  relocates : Bool
  newBlocks : Nat
  l1Offset : Nat
  l1Clusters : Nat
  tableOffset : Nat
  blocksOffset : Nat
  totalFileSize : Nat

/-- The file layout after a full grow with the given block and table counts. -/
def Qcow2ResizeGrowQuery.appendLayout (l1Entries existingBlockCount : Nat) (counts : Nat × Nat) :
    AppendLayout :=
  let clusters := l1Clusters l1Entries q.clusterSize
  let relocates : Bool := q.currentRefcountTableClusters < counts.2
  let newBlocks := counts.1 - existingBlockCount
  let tableOffset := q.currentFileSize + clusters * q.clusterSize
  let blocksOffset := tableOffset + if relocates then counts.2 * q.clusterSize else 0
  { blockCount := counts.1
    tableClusters := counts.2
    relocates
    newBlocks
    l1Offset := q.currentFileSize
    l1Clusters := clusters
    tableOffset
    blocksOffset
    totalFileSize := blocksOffset + newBlocks * q.clusterSize }

/-- The appended clusters that existing blocks count: `[first, first + count)`. -/
def Qcow2ResizeGrowQuery.overlap (existingBlockCount : Nat) (lay : AppendLayout) : Nat × Nat :=
  let first := q.currentFileSize / q.clusterSize
  (first, min (existingBlockCount * q.perBlock) (lay.totalFileSize / q.clusterSize) - first)

def addL1AndRefcountGrowthBlocks (fuel : Nat) (target : Qcow2Layout) (existingBlockCount : Nat)
    (required : List Nat) : Except Stop (List Nat) := do
  let counts ← q.appendRequirements fuel target.l1Entries existingBlockCount
  let lay := q.appendLayout target.l1Entries existingBlockCount counts
  let overlap := q.overlap existingBlockCount lay
  let required ← addBlocksOf q.perBlock overlap.1 overlap.2 required
  let required ← addBlocksOf q.perBlock (q.currentL1TableOffset / q.clusterSize)
    q.oldL1Clusters required
  if lay.relocates then
    addBlocksOf q.perBlock (q.currentRefcountTableOffset / q.clusterSize)
      q.currentRefcountTableClusters required
  else .ok required

/-- `compute_grow_query`: the indices of the refcount blocks to stage. -/
def computeGrowQuery (fuel : Nat) : Except Stop (Qcow2GrowAction × List Nat) := do
  failIf (q.newVirtualSize = 0) (.error .invalidNewVirtualSize)
  validateIncompat q.currentIncompatibleFeatures
  validateNoBitmaps q.currentAutoclearFeatures
  failIf (q.newVirtualSize < q.currentVirtualSize ∧
    q.allowShrink = false) (.error .shrinkWithoutFlag)
  failIf (q.newVirtualSize < q.currentVirtualSize) (.error .unsupportedShrink)
  failIf (q.preallocation = .metadata) (.error .preallocationUnsupported)
  failIf (q.extendedL2 ∧ q.preallocation ≠ .off) (.error .preallocationUnsupported)
  let clusterBits ← clusterBitsFrom q.clusterSize
  let alignedFileSize ← nextMultipleOf q.currentFileSize q.clusterSize
  let q := { q with currentFileSize := alignedFileSize }
  if q.newVirtualSize = q.currentVirtualSize then .ok (.headerOnly, [])
  else
    let target ← ofCreate (computeLayout q.newVirtualSize clusterBits q.refcountBits q.extendedL2)
    let existingBlockCount := countExistingRefcountBlocks q.existingRefcountTable
    let counts ← q.effectiveCounts fuel target existingBlockCount
    let action := q.actionFor target existingBlockCount counts
    match action with
    | .headerOnly => .ok (action, [])
    | .l1Grow => do
        let required ← addL1GrowthBlocks q target []
        .ok (action, required)
    | .l1AndRefcountGrow => do
        let required ← addL1AndRefcountGrowthBlocks q fuel target existingBlockCount []
        .ok (action, required)

/-! ## Staging refcount blocks -/

/-- `PLANNER_SCRATCH_LIMIT`, the size of the planner's scratch buffer. -/
def plannerScratchLimit : Nat := 8 * 1024 * 1024

/-- `allocate_staging`: the end of the next staging slot. -/
def allocateStaging (nextStaging clusterSize : Nat) : Except Stop Nat :=
  if plannerScratchLimit < nextStaging + clusterSize then .error (.error .scratchTooSmall)
  else .ok (nextStaging + clusterSize)

/-- `ensure_block_staged`: the staged bytes of a refcount block. -/
def ensureBlockStaged (blockIdx : Nat) : Except Stop Buffer :=
  match opts.existingRefcountBlocks.lookup blockIdx with
  | some block => .ok block
  | none => .error (.error .scratchTooSmall)

/-- Where a refcount block is. -/
def blockOffsetInFile (table : Buffer) (blockIdx : Nat) : Except Stop Nat :=
  if table.len < blockIdx * 8 + 8 then .error (.error .scratchTooSmall)
  else if wordAt table blockIdx = 0 then .error (.error .headerMismatch)
  else .ok (wordAt table blockIdx)

/-- Set one count of a block. -/
def setRefcount (block : Buffer) (localIdx refcountBits value : Nat) : Except Stop Buffer :=
  match setRefcountInBlock block localIdx refcountBits value with
  | .ok block => .ok block
  | .error _ => .error (.error .invalidNewVirtualSize)

/-- Staged blocks with their indices, in the order they were staged, and the next free scratch
byte. -/
structure Slots where
  blocks : List (Nat × Buffer)
  nextStaging : Nat

/-- Replace the block of an index. -/
def replaceBlock (blocks : List (Nat × Buffer)) (blockIdx : Nat) (block : Buffer) :
    List (Nat × Buffer) :=
  blocks.map fun slot => if slot.1 = blockIdx then (slot.1, block) else slot

/-- Set the count of cluster `c` in its staged block, staging it on first touch: the step that the
overlap loop, `stage_cleanup_decrement` and `decrement_cluster` share. -/
def stageEntry (maxBlocks : Nat) (seed : Nat → Except Stop Buffer) (value : Nat)
    (st : Slots) (c : Nat) : Except Stop Slots := do
  let blockIdx := c / opts.perBlock
  let localIdx := c % opts.perBlock
  match st.blocks.lookup blockIdx with
  | some block => do
      let block ← setRefcount block localIdx opts.refcountBits value
      .ok { st with blocks := replaceBlock st.blocks blockIdx block }
  | none => do
      failIf (maxBlocks ≤ st.blocks.length) (.error .scratchTooSmall)
      let nextStaging ← allocateStaging st.nextStaging opts.clusterSize
      let block ← seed blockIdx
      let block ← setRefcount block localIdx opts.refcountBits value
      .ok { blocks := st.blocks ++ [(blockIdx, block)], nextStaging }

/-- The overlap loop of a full grow. -/
def stageOverlap (st : Slots) (c : Nat) : Except Stop Slots :=
  stageEntry opts 4 (ensureBlockStaged opts) 1 st c

/-- The seed of a cleanup slot: the overlap slot of the same block where there is one. -/
def cleanupSeed (overlap : List (Nat × Buffer)) (blockIdx : Nat) : Except Stop Buffer :=
  match overlap.lookup blockIdx with
  | some block => .ok block
  | none => ensureBlockStaged opts blockIdx

def stageCleanupDecrement (overlap : List (Nat × Buffer)) (st : Slots) (c : Nat) :
    Except Stop Slots :=
  stageEntry opts 8 (cleanupSeed opts overlap) 0 st c

/-- `decrement_cluster` of the shrink planner. -/
def decrementCluster (st : Slots) (hostOffset : Nat) : Except Stop Slots :=
  stageEntry opts 64 (ensureBlockStaged opts) 0 st (hostOffset / opts.clusterSize)

/-- A `BlockSlot`: the block with the increments, where it has any, and with both increments and
decrements, where it has decrements. -/
structure BlockSlot where
  blockIdx : Nat
  increment : Option Buffer
  final : Option Buffer

/-- The slots of `plan_l1_grow` and the next free scratch byte. -/
structure BlockSlots where
  slots : List BlockSlot
  nextStaging : Nat

def maxBlocksTouched : Nat := 16

/-- Replace the slot of a block. -/
def replaceSlot (slots : List BlockSlot) (slot : BlockSlot) : List BlockSlot :=
  slots.map fun s => if s.blockIdx = slot.blockIdx then slot else s

/-- `set_refcount` on an optional block. -/
def setRefcountWhere (block : Option Buffer) (localIdx refcountBits value : Nat) :
    Except Stop (Option Buffer) :=
  match block with
  | none => .ok none
  | some block => do
      let block ← setRefcount block localIdx refcountBits value
      .ok (some block)

/-- `stage_increment` for cluster `c`. -/
def stageIncrement (st : BlockSlots) (c : Nat) : Except Stop BlockSlots := do
  let blockIdx := c / opts.perBlock
  let localIdx := c % opts.perBlock
  match st.slots.find? fun slot => slot.blockIdx = blockIdx with
  | some slot =>
    match slot.increment with
    | some increment => do
        let increment ← setRefcount increment localIdx opts.refcountBits 1
        let final ← setRefcountWhere slot.final localIdx opts.refcountBits 1
        .ok { st with
          slots := replaceSlot st.slots { blockIdx, increment := some increment, final } }
    | none => do
        let nextStaging ← allocateStaging st.nextStaging opts.clusterSize
        let block ← ensureBlockStaged opts blockIdx
        let increment ← setRefcount block localIdx opts.refcountBits 1
        let final ← setRefcountWhere slot.final localIdx opts.refcountBits 1
        .ok {
          slots := replaceSlot st.slots { blockIdx, increment := some increment, final }
          nextStaging }
  | none => do
      failIf (maxBlocksTouched ≤ st.slots.length) (.error .scratchTooSmall)
      let nextStaging ← allocateStaging st.nextStaging opts.clusterSize
      let block ← ensureBlockStaged opts blockIdx
      let increment ← setRefcount block localIdx opts.refcountBits 1
      .ok { slots := st.slots ++ [{ blockIdx, increment := some increment, final :=
        none }], nextStaging }

/-- `stage_decrement` for cluster `c`. -/
def stageDecrement (st : BlockSlots) (c : Nat) : Except Stop BlockSlots := do
  let blockIdx := c / opts.perBlock
  let localIdx := c % opts.perBlock
  match st.slots.find? fun slot => slot.blockIdx = blockIdx with
  | some slot =>
    match slot.final with
    | some final => do
        let final ← setRefcount final localIdx opts.refcountBits 0
        .ok { st with
          slots :=
            replaceSlot st.slots { blockIdx, increment := slot.increment, final := some final } }
    | none => do
        let nextStaging ← allocateStaging st.nextStaging opts.clusterSize
        match slot.increment with
        | none => .error .panic
        | some increment => do
            let final ← setRefcount increment localIdx opts.refcountBits 0
            .ok {
              slots := replaceSlot st.slots
                { blockIdx, increment := slot.increment, final := some final }
              nextStaging }
  | none => do
      failIf (maxBlocksTouched ≤ st.slots.length) (.error .scratchTooSmall)
      let nextStaging ← allocateStaging st.nextStaging opts.clusterSize
      let block ← ensureBlockStaged opts blockIdx
      let final ← setRefcount block localIdx opts.refcountBits 0
      .ok { slots := st.slots ++
        [{ blockIdx, increment := none, final := some final }], nextStaging }

/-- The patches that write staged blocks back, in order. -/
def pushBlocks (table : Buffer) : List (Nat × Buffer) → ResizePlan → Except Stop ResizePlan
  | [], plan => .ok plan
  | (blockIdx, block) :: blocks, plan => do
      let offset ← blockOffsetInFile table blockIdx
      let plan ← plan.push offset block
      pushBlocks table blocks plan

/-! ## The grow planners -/

/-- A region of `clusters` clusters with the existing L1 at its start and zeroes after it. -/
def l1Region (clusters : Nat) : Buffer :=
  ⟨clusters * opts.clusterSize,
    ByteMap.splice (fun _ => 0) 0 (min opts.existingL1.len (opts.currentL1Entries * 8))
    opts.existingL1.bytes⟩

/-- The header of the image with its L1 and its refcount table at the given places. -/
def headerFor (virtualSize l1Entries l1Offset tableOffset tableClusters : Nat) :
    Except Stop Buffer := do
  let clusterBits ← clusterBitsFrom opts.clusterSize
  ofCreate (buildHeader {
    clusterBits
    clusterSize := opts.clusterSize
    virtualSize
    refcountBits := opts.refcountBits
    extendedL2 := opts.extendedL2
    l1Entries
    l1Offset
    refcountTableOffset := tableOffset
    refcountTableClusters := tableClusters
    refcountBlockCount := 0 } opts.lazyRefcounts)

/-- A grow within the L1. -/
def planHeaderOnly : Except Stop ResizePlan := do
  failIf (plannerScratchLimit < opts.clusterSize) (.error .scratchTooSmall)
  let header ← headerFor opts opts.newVirtualSize opts.currentL1Entries opts.currentL1TableOffset
    opts.currentRefcountTableOffset opts.currentRefcountTableClusters
  ({ action := .grow, totalFileSize := opts.currentFileSize, patches :=
    [] } : ResizePlan).push 0 header

/-- The blocks that carry increments. -/
def incrementsOf (slots : List BlockSlot) : List (Nat × Buffer) :=
  slots.filterMap fun slot => slot.increment.map fun block => (slot.blockIdx, block)

/-- The blocks that carry decrements. -/
def finalsOf (slots : List BlockSlot) : List (Nat × Buffer) :=
  slots.filterMap fun slot => slot.final.map fun block => (slot.blockIdx, block)

/-- A grow with a new L1. -/
def planL1Grow (target : Qcow2Layout) : Except Stop ResizePlan := do
  let clusters := l1Clusters target.l1Entries opts.clusterSize
  let l1End := opts.clusterSize + clusters * opts.clusterSize
  failIf (plannerScratchLimit < l1End) (.error .scratchTooSmall)
  let st ← (range' (opts.currentFileSize / opts.clusterSize) clusters).foldlM (stageIncrement opts)
    { slots := [], nextStaging := l1End }
  let st ← (range' (opts.currentL1TableOffset / opts.clusterSize) opts.oldL1Clusters).foldlM
    (stageDecrement opts) st
  let header ← headerFor opts opts.newVirtualSize target.l1Entries opts.currentFileSize
    opts.currentRefcountTableOffset opts.currentRefcountTableClusters
  let plan : ResizePlan := {
    action := .grow
    totalFileSize := opts.currentFileSize + clusters * opts.clusterSize
    patches := [] }
  let plan ← plan.push opts.currentFileSize (l1Region opts clusters)
  let plan ← pushBlocks opts.existingRefcountTable (incrementsOf st.slots) plan
  let plan ← plan.push 0 header
  pushBlocks opts.existingRefcountTable (finalsOf st.slots) plan

section

variable (existingBlockCount : Nat) (lay : AppendLayout)

/-- The new refcount table: the existing entries and, from `existingBlockCount` on, the new
blocks. -/
def newTable : ByteMap :=
  (range lay.newBlocks).foldl
    (fun table i => writeBe 8 ((existingBlockCount + i) * 8) (lay.blocksOffset +
      i * opts.clusterSize) table)
    (ByteMap.splice (fun _ =>
      0) 0 (min opts.existingRefcountTable.len (lay.tableClusters * opts.clusterSize))
      opts.existingRefcountTable.bytes)

/-- New refcount block `i`: a count of one for every cluster of the new file that it covers. -/
def newBlock (i : Nat) : Except Stop Buffer :=
  let first := (existingBlockCount + i) * opts.perBlock
  (range opts.perBlock).foldlM (fun block j =>
      if first + j < lay.totalFileSize / opts.clusterSize then setRefcount block j
        opts.refcountBits 1
      else .ok block)
    ⟨opts.clusterSize, fun _ => 0⟩

/-- The new refcount blocks one after the other. -/
def newBlocks : Except Stop Buffer :=
  (range lay.newBlocks).foldlM (fun (region : Buffer) i => do
      let block ← newBlock opts existingBlockCount lay i
      .ok (region.patch (i * opts.clusterSize) block))
    ⟨lay.newBlocks * opts.clusterSize, fun _ => 0⟩

end

/-- A grow with a new L1 and refcount table. -/
def planL1AndRefcountGrow (fuel : Nat) (target : Qcow2Layout) (existingBlockCount : Nat) :
    Except Stop ResizePlan := do
  let counts ← opts.appendRequirements fuel target.l1Entries existingBlockCount
  let lay := opts.appendLayout target.l1Entries existingBlockCount counts
  let updatesInPlace := lay.relocates = false ∧ 0 < lay.newBlocks
  let tableStaging :=
    if lay.relocates = true ∨ updatesInPlace then lay.tableClusters * opts.clusterSize else 0
  let blocksEnd := opts.clusterSize + lay.l1Clusters * opts.clusterSize + tableStaging
    + lay.newBlocks * opts.clusterSize
  failIf (plannerScratchLimit < blocksEnd) (.error .scratchTooSmall)
  -- the last new entry has to fit in the staged table
  failIf ((lay.relocates = true ∨ updatesInPlace) ∧ 0 < lay.newBlocks ∧
      tableStaging < (existingBlockCount + lay.newBlocks) * 8)
    (.error .scratchTooSmall)
  -- copying the existing L1 into a smaller region is a slice panic
  failIf (lay.l1Clusters * opts.clusterSize < min opts.existingL1.len (opts.currentL1Entries * 8))
    .panic
  let table : Buffer := ⟨lay.tableClusters * opts.clusterSize, newTable opts existingBlockCount lay⟩
  let blocks ← newBlocks opts existingBlockCount lay
  let tableOffset := if lay.relocates then lay.tableOffset else opts.currentRefcountTableOffset
  let header ← headerFor opts opts.newVirtualSize target.l1Entries lay.l1Offset tableOffset
    lay.tableClusters
  let overlapRange := opts.overlap existingBlockCount lay
  let overlap ← (range' overlapRange.1 overlapRange.2).foldlM (stageOverlap opts)
    { blocks := [], nextStaging := blocksEnd }
  let cleanup ← (range' (opts.currentL1TableOffset / opts.clusterSize) opts.oldL1Clusters).foldlM
    (stageCleanupDecrement opts overlap.blocks) { blocks := [], nextStaging := overlap.nextStaging }
  let oldTable := if lay.relocates then
      range' (opts.currentRefcountTableOffset / opts.clusterSize) opts.currentRefcountTableClusters
    else []
  let cleanup ← oldTable.foldlM (stageCleanupDecrement opts overlap.blocks) cleanup
  let plan : ResizePlan := { action := .grow, totalFileSize := lay.totalFileSize, patches := [] }
  let plan ← plan.push lay.l1Offset (l1Region opts lay.l1Clusters)
  let plan ← plan.pushIf (lay.relocates = true) lay.tableOffset table
  let plan ← plan.pushIf (0 < lay.newBlocks) lay.blocksOffset blocks
  let plan ← plan.pushIf updatesInPlace opts.currentRefcountTableOffset table
  let plan ← pushBlocks opts.existingRefcountTable overlap.blocks plan
  let plan ← plan.push 0 header
  pushBlocks opts.existingRefcountTable cleanup.blocks plan

/-! ## The shrink planner -/

/-- The staged L2 table of an L1 entry. -/
def lookupL2 (l1Index : Nat) : Except Stop Buffer :=
  match opts.existingL2.lookup l1Index with
  | some table => .ok table
  | none => .error (.error .scratchTooSmall)

/-- Word `i` of the staged L1; out of range is a slice panic. -/
def l1Word (i : Nat) : Except Stop Nat :=
  if opts.existingL1.len < i * 8 + 8 then .error .panic else .ok (wordAt opts.existingL1 i)

/-- `walk_l2_for_discard` over a whole table: every nonzero entry's host offset is decremented,
under the mask of a plain entry. -/
def walkL2ForDiscard (table : Buffer) (st : Slots) : Except Stop Slots :=
  let size := l2EntrySize opts.extendedL2
  (range (opts.clusterSize / size)).foldlM (fun st j =>
      if table.len < j * size + 8 then .error (.error .scratchTooSmall)
      else
        let l2e := table.be (j * size) 8
        if l2e = 0 then .ok st
        else if opts.allowShrink = false then .error (.error .shrinkBelowAllocated)
        else decrementCluster opts st (hostOf l2e))
    st

/-- What the discard of whole L1 entries keeps: the rewritten L1 and the staged blocks. -/
structure Discard where
  l1 : ByteMap
  slots : Slots

/-- Discard L1 entry `i` and everything its table names. -/
def discardL1Entry (st : Discard) (i : Nat) : Except Stop Discard := do
  let l1Entry ← l1Word opts i
  if l1Entry = 0 then .ok st
  else do
    let table ← lookupL2 opts i
    let slots ← walkL2ForDiscard opts table st.slots
    let slots ← decrementCluster opts slots (hostOf l1Entry)
    .ok { l1 := writeBe 8 (i * 8) 0 st.l1, slots }

/-- What the straddled table's walk keeps: the rewritten table, whether it is to be written, and the
staged blocks. -/
structure Straddle where
  table : ByteMap
  emit : Bool
  slots : Slots

/-- Clear one entry of the straddled table. -/
def clearEntry (off size : Nat) (table : ByteMap) : ByteMap :=
  let table := writeBe 8 off 0 table
  if size = 16 then writeBe 8 (off + 8) 0 table else table

/-- Discard the entry `j` of the straddled table if it lies above the new size. -/
def discardStraddled (table : Buffer) (baseVirtual newVirtualSize : Nat) (st : Straddle) (j : Nat) :
    Except Stop Straddle := do
  let size := l2EntrySize opts.extendedL2
  let l2e := table.be (j * size) 8
  if baseVirtual + j * opts.clusterSize < newVirtualSize then .ok st
  else if l2e = 0 then .ok { st with table := clearEntry (j * size) size st.table, emit := true }
  else do
    let slots ← decrementCluster opts st.slots (hostOf l2e)
    .ok { table := clearEntry (j * size) size st.table, emit := true, slots }

/-- The straddled part of a shrink. -/
def discardStraddle (newVirtualSize : Nat) (slots : Slots) : Except Stop Straddle := do
  let coverage := l2Coverage opts.clusterSize opts.extendedL2
  if newVirtualSize % coverage = 0 then .ok { table := fun _ => 0, emit := false, slots }
  else do
    let i := newVirtualSize / coverage % 2 ^ 32
    let l1Entry ← l1Word opts i
    if l1Entry = 0 then .ok { table := fun _ => 0, emit := false, slots }
    else do
      let table ← lookupL2 opts i
      (range (opts.clusterSize / l2EntrySize opts.extendedL2)).foldlM
        (discardStraddled opts table (i * coverage) newVirtualSize)
        { table := table.bytes, emit := false, slots }

/-- `plan_shrink`. -/
def planShrink : Except Stop ResizePlan := do
  let _clusterBits ← clusterBitsFrom opts.clusterSize
  let newVirtualSize := opts.newVirtualSize / opts.clusterSize * opts.clusterSize
  failIf (newVirtualSize < opts.clusterSize) (.error .invalidNewVirtualSize)
  let coverage := l2Coverage opts.clusterSize opts.extendedL2
  let firstDiscarded := divCeil newVirtualSize coverage % 2 ^ 32
  let straddleEnd := opts.clusterSize + opts.oldL1Clusters * opts.clusterSize + opts.clusterSize
  failIf (plannerScratchLimit < straddleEnd) (.error .scratchTooSmall)
  let discarded := range' firstDiscarded (opts.currentL1Entries - firstDiscarded)
  let st ← discarded.foldlM (discardL1Entry opts)
    { l1 := (l1Region opts opts.oldL1Clusters).bytes
      slots := { blocks := [], nextStaging := straddleEnd } }
  let straddle ← discardStraddle opts newVirtualSize st.slots
  let header ← headerFor opts newVirtualSize opts.currentL1Entries opts.currentL1TableOffset
    opts.currentRefcountTableOffset opts.currentRefcountTableClusters
  let plan : ResizePlan :=
    { action := .shrink, totalFileSize := opts.currentFileSize, patches := [] }
  let plan ← plan.pushIf (straddle.emit = true)
    (hostOf (wordAt opts.existingL1 (newVirtualSize / coverage % 2 ^ 32)))
    ⟨opts.clusterSize, straddle.table⟩
  let plan ← plan.pushIf (∃ i ∈ discarded, wordAt opts.existingL1 i ≠ 0) opts.currentL1TableOffset
    ⟨opts.oldL1Clusters * opts.clusterSize, st.l1⟩
  let plan ← pushBlocks opts.existingRefcountTable straddle.slots.blocks plan
  plan.push 0 header

/-! ## The planner -/

/-- `plan_grow`, which `plan_resize_qcow2` calls for every request. -/
def planGrow (fuel : Nat) : Except Stop ResizePlan := do
  failIf (opts.newVirtualSize = 0) (.error .invalidNewVirtualSize)
  validateIncompat opts.currentIncompatibleFeatures
  validateNoBitmaps opts.currentAutoclearFeatures
  if opts.newVirtualSize < opts.currentVirtualSize then
    if opts.allowShrink then planShrink opts else .error (.error .shrinkWithoutFlag)
  else if opts.newVirtualSize = opts.currentVirtualSize then
    .ok { action := .noOp, totalFileSize := opts.currentFileSize, patches := [] }
  else do
    failIf (opts.preallocation = .metadata) (.error .preallocationUnsupported)
    failIf (opts.extendedL2 ∧ opts.preallocation ≠ .off) (.error .preallocationUnsupported)
    let clusterBits ← clusterBitsFrom opts.clusterSize
    let alignedFileSize ← nextMultipleOf opts.currentFileSize opts.clusterSize
    let alignedOpts := { opts with currentFileSize := alignedFileSize }
    let target ← ofCreate (computeLayout opts.newVirtualSize clusterBits opts.refcountBits
      opts.extendedL2)
    let existingBlockCount := countExistingRefcountBlocks opts.existingRefcountTable
    let counts ← alignedOpts.effectiveCounts fuel target existingBlockCount
    match opts.actionFor target existingBlockCount counts with
    | .headerOnly => planHeaderOnly opts
    | .l1Grow => planL1Grow alignedOpts target
    | .l1AndRefcountGrow => planL1AndRefcountGrow alignedOpts fuel target existingBlockCount

end Instar.Resize
