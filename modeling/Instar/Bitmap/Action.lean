import Instar.Bitmap.Directory
import Instar.Qcow2.Refcount

/-!
# The bitmap actions

`crates/bitmap/src/action.rs` and `merge.rs`: each action checks what it needs and then changes the
staged refcount blocks and writes a new directory.  Nothing here touches the disk.  The data
clusters of a bitmap are known to its table only, which is on disk, so `remove` and `clear` report
the table for the caller to walk.
-/

namespace Instar.Bitmap

open Qcow2

/-! ## Geometry -/

/-- `div_round_up`, with its saturating addition. -/
def divRoundUp (a b : Nat) : Nat := if b = 0 then 0 else min (a + (b - 1)) (2 ^ 64 - 1) / b

/-- The bytes of a serialized bitmap. -/
def bitmapBytesNeeded (virtualSize granularity : Nat) : Nat :=
  if granularity = 0 then 0 else divRoundUp (divRoundUp virtualSize granularity) 8

/-- The entries of a bitmap table. -/
def bitmapTableSizeEntries (serializedBytes clusterSize : Nat) : Nat :=
  if clusterSize = 0 then 0 else divRoundUp serializedBytes clusterSize

def defaultGranularity (clusterSize : Nat) : Nat := min (max clusterSize 4096) 65536

def granularityBitsValid (bits : Nat) : Prop := 9 ≤ bits ∧ bits ≤ 31

instance (bits : Nat) : Decidable (granularityBitsValid bits) := inferInstanceAs (Decidable (_ ∧ _))

/-- `BitmapGeometry`, without the cluster bits, which no action looks at. -/
structure BitmapGeometry where
  clusterSize : Nat
  refcountBits : Nat
  virtualSize : Nat
  refblockCount : Nat
  hostRefblocksStart : Nat

def maxTableClusters : Nat := 8

def supportedRefcountBits : Nat := 16

def tableClusterCount (tableSize clusterSize : Nat) : Nat := divCeil (tableSize * 8) clusterSize

/-! ## Refcounts -/

def mapAllocErr : SnapshotError → BitmapError
  | .unsupported => .unsupportedRefcountWidth
  | .refcountExhausted | .allocationFailed => .noSpace
  | .invalidConfig | .misalignedAccess => .internalOverflow
  | _ => .parseFailed

section Refcounts

variable (geom : BitmapGeometry)

def entriesPerRefblock : Except BitmapError Nat := do
  failIf (geom.clusterSize = 0 ∨ geom.refcountBits = 0) .internalOverflow
  let entries := geom.clusterSize * 8 / geom.refcountBits
  failIf (entries = 0) .internalOverflow
  .ok entries

/-- `refblock_byte_range_for_cluster`: where the block of a cluster starts and the cluster's entry
in it. -/
def refblockRangeForCluster (hostOffset : Nat) : Except BitmapError (Nat × Nat) := do
  let epr ← entriesPerRefblock geom
  failIf (hostOffset < geom.hostRefblocksStart) .internalOverflow
  let rel := hostOffset - geom.hostRefblocksStart
  failIf (rel % geom.clusterSize ≠ 0) .internalOverflow
  let clusterIndex := rel / geom.clusterSize
  failIf (geom.refblockCount ≤ clusterIndex / epr) .internalOverflow
  .ok (clusterIndex / epr * geom.clusterSize, clusterIndex % epr)

/-- `set_cluster_refcount`. -/
def setClusterRefcount (refblocks : Buffer) (hostOffset value : Nat) :
    Except BitmapError Buffer := do
  let range ← refblockRangeForCluster geom hostOffset
  failIf (refblocks.len < range.1 + geom.clusterSize) .internalOverflow
  match setRefcountInBlock (refblocks.slice range.1 geom.clusterSize) range.2
    geom.refcountBits value with
  | .error e => .error (mapAllocErr e)
  | .ok block => .ok (refblocks.patch range.1 block)

/-- The clusters of a table at `tableOffset`. -/
def tableClusters (tableOffset tableClusters : Nat) : List Nat :=
  (List.range tableClusters).map fun i => tableOffset + i * geom.clusterSize

/-- Whether every cluster of a table has a staged refcount; nothing is changed yet. -/
def checkTableClusters (tableOffset count : Nat) : Except BitmapError Unit :=
  (tableClusters geom tableOffset count).foldlM (fun _ host => do
    failIf (2 ^ 64 ≤ host) .internalOverflow
    let _ ← refblockRangeForCluster geom host
    .ok ()) ()

/-- Set the refcounts of the clusters of a table to zero. -/
def freeTableClusters (refblocks : Buffer) (tableOffset count : Nat) : Except BitmapError Buffer :=
  (tableClusters geom tableOffset count).foldlM (fun refblocks host =>
    setClusterRefcount geom refblocks host 0) refblocks

end Refcounts

/-! ## Actions -/

/-- What an action leaves. -/
structure ActionOutcome where
  newDirLen : Nat
  newNbBitmaps : Nat
  extensionNowPresent : Bool
  tableClustersToZero : List Nat
  freedTableOffset : Nat
  freedTableSize : Nat
  zeroFreedTable : Bool

section Actions

variable (oldDir : Buffer) (oldLen nbBitmaps : Nat) (name : List UInt8) (geom : BitmapGeometry)
  (outDir : Buffer)

/-- The entry of a bitmap that is added: enabled, and with an empty table. -/
def newEntry (tableOffset tableEntries granularityBits : Nat) : BitmapDirEntry :=
  ⟨tableOffset, tableEntries, bmeFlagAuto, granularityBits, name⟩

section

variable (granularityBits : Nat)

/-- The entries of the table of a new bitmap. -/
def newTableEntries : Nat :=
  bitmapTableSizeEntries (bitmapBytesNeeded geom.virtualSize (2 ^ granularityBits)) geom.clusterSize

/-- The clusters `action_add` allocates: a table takes one even without entries. The number of
entries is cut to 32 bits before the check. -/
def newTableClusters : Nat :=
  max (tableClusterCount (newTableEntries geom granularityBits % 2 ^ 32) geom.clusterSize) 1

/-- `action_add`: the outcome, the new directory, and the refcount blocks and cursor it leaves. -/
def actionAdd (refblocks : Buffer) (cursor : AllocCursor) :
    Except BitmapError (ActionOutcome × ByteMap × Buffer × AllocCursor) := do
  failIf (geom.refcountBits ≠ supportedRefcountBits) .unsupportedRefcountWidth
  failIf (name.length = 0 ∨ bmeMaxNameSize < name.length) .nameTooLong
  failIf (¬ granularityBitsValid granularityBits) .granularityRange
  failIf (qcow2MaxBitmaps ≤ nbBitmaps) .tooManyBitmaps
  let found ← findBitmap oldDir nbBitmaps name
  failIf found.isSome .bitmapExists
  let clusters := newTableClusters geom granularityBits
  failIf (maxTableClusters < clusters) .noSpace
  failIf (2 ^ 32 ≤ newTableEntries geom granularityBits) .internalOverflow
  match allocContiguousClustersInRefblocks refblocks geom.clusterSize geom.refcountBits
    geom.refblockCount geom.hostRefblocksStart clusters cursor with
  | (.error e, _, _) => .error (mapAllocErr e)
  | (.ok tableOffset, refblocks, cursor) => do
    let built ← buildDirectoryWithAdded oldDir oldLen
      (newEntry name tableOffset (newTableEntries geom granularityBits) granularityBits) outDir
    failIf (2 ^ 64 ≤ tableOffset + (clusters - 1) * geom.clusterSize) .internalOverflow
    .ok ({ newDirLen := built.1
           newNbBitmaps := nbBitmaps + 1
           extensionNowPresent := true
           tableClustersToZero := tableClusters geom tableOffset clusters
           freedTableOffset := 0
           freedTableSize := 0
           zeroFreedTable := false }, built.2, refblocks, cursor)

end

/-- `action_remove`: the outcome, the new directory and the refcount blocks. -/
def actionRemove (refblocks : Buffer) : Except BitmapError (ActionOutcome × ByteMap × Buffer) := do
  failIf (geom.refcountBits ≠ supportedRefcountBits) .unsupportedRefcountWidth
  let found ← foundBitmap oldDir nbBitmaps name .bitmapNotFound
  let entry := found.entry
  let clusters := tableClusterCount entry.bitmapTableSize geom.clusterSize
  checkTableClusters geom entry.bitmapTableOffset clusters
  let refblocks ← freeTableClusters geom refblocks entry.bitmapTableOffset clusters
  let built ← buildDirectoryWithout oldDir oldLen nbBitmaps found.index outDir
  .ok ({ newDirLen := built.1
         newNbBitmaps := nbBitmaps - 1
         extensionNowPresent := decide (nbBitmaps - 1 ≠ 0)
         tableClustersToZero := []
         freedTableOffset := entry.bitmapTableOffset
         freedTableSize := entry.bitmapTableSize
         zeroFreedTable := false }, built.2, refblocks)

/-- `action_clear`: the outcome and the new directory, which is a copy of the old one.  The refcount
blocks stay as they are: the table is kept. -/
def actionClear : Except BitmapError (ActionOutcome × ByteMap) := do
  failIf (geom.refcountBits ≠ supportedRefcountBits) .unsupportedRefcountWidth
  let found ← foundBitmap oldDir nbBitmaps name .bitmapNotFound
  failIf found.entry.isInUse .bitmapInUse
  let entry := found.entry
  checkTableClusters geom entry.bitmapTableOffset (tableClusterCount entry.bitmapTableSize
    geom.clusterSize)
  let expected ← directoryByteLen oldDir nbBitmaps
  failIf (oldLen ≠ expected) .internalOverflow
  failIf (oldDir.len < oldLen) .internalOverflow
  failIf (outDir.len < oldLen) .scratchTooSmall
  .ok ({ newDirLen := oldLen
         newNbBitmaps := nbBitmaps
         extensionNowPresent := true
         tableClustersToZero := []
         freedTableOffset := entry.bitmapTableOffset
         freedTableSize := entry.bitmapTableSize
         zeroFreedTable := true }, outDir.bytes.splice 0 oldLen oldDir.bytes)

/-- The flags of an entry that is enabled or disabled. -/
def withAuto (flags : Nat) (enable : Bool) : Nat :=
  if enable then flags ||| bmeFlagAuto else flags &&& (2 ^ 32 - 1 - bmeFlagAuto)

/-- Set or clear the auto flag of a bitmap. -/
def setAutoFlag (enable : Bool) : Except BitmapError (ActionOutcome × ByteMap) := do
  let found ← foundBitmap oldDir nbBitmaps name .bitmapNotFound
  failIf found.entry.isInUse .bitmapInUse
  let built ← buildDirectoryReplacing oldDir oldLen nbBitmaps found.index
    { found.entry with flags := withAuto found.entry.flags enable } outDir
  .ok ({ newDirLen := built.1
         newNbBitmaps := nbBitmaps
         extensionNowPresent := true
         tableClustersToZero := []
         freedTableOffset := 0
         freedTableSize := 0
         zeroFreedTable := false }, built.2)

def actionEnable : Except BitmapError (ActionOutcome × ByteMap) :=
  setAutoFlag oldDir oldLen nbBitmaps name outDir true

def actionDisable : Except BitmapError (ActionOutcome × ByteMap) :=
  setAutoFlag oldDir oldLen nbBitmaps name outDir false

end Actions

/-! ## Bitmap tables -/

def bmeTableEntryOffsetMask : Nat := 0x00fffffffffffe00

def bmeTableEntryReservedMask : Nat := 0xff000000000001fe

def bmeTableEntryFlagAllOnes : Nat := 1

/-- A decoded entry of a bitmap table. -/
inductive BitmapTableEntry where
  | allZeroes
  | allOnes
  | allocated (offset : Nat)
  deriving DecidableEq, Repr

/-- The entry can be decoded. -/
def validateBitmapTableEntry (raw : Nat) : Bool :=
  if raw &&& bmeTableEntryReservedMask ≠ 0 then false
  else if raw &&& bmeTableEntryOffsetMask ≠ 0 ∧ raw &&& bmeTableEntryFlagAllOnes ≠ 0 then false
  else true

def decodeBitmapTableEntry (raw : Nat) : Option BitmapTableEntry :=
  if validateBitmapTableEntry raw = false then none
  else if raw &&& bmeTableEntryOffsetMask ≠ 0 then some
    (.allocated (raw &&& bmeTableEntryOffsetMask))
  else if raw &&& bmeTableEntryFlagAllOnes ≠ 0 then some .allOnes
  else some .allZeroes

def encodeBitmapTableEntry : BitmapTableEntry → Nat
  | .allZeroes => 0
  | .allOnes => bmeTableEntryFlagAllOnes
  | .allocated off => off &&& bmeTableEntryOffsetMask

/-! ## Merging -/

/-- `MergeSpec`; the granularity is not looked at afterwards. -/
structure MergeSpec where
  dest : BitmapDirEntry
  source : BitmapDirEntry
  tableSize : Nat
  selfMerge : Bool

/-- The bitmaps of a merge. -/
def mergeValidate (dir : Buffer) (nbBitmaps : Nat) (destName sourceName : List UInt8) :
    Except BitmapError MergeSpec := do
  let dest ← foundBitmap dir nbBitmaps destName .bitmapNotFound
  let source ← foundBitmap dir nbBitmaps sourceName .mergeSourceNotFound
  failIf dest.entry.isInUse .bitmapInUse
  failIf source.entry.isInUse .bitmapInUse
  failIf (dest.entry.granularityBits ≠ source.entry.granularityBits) .incompatibleMerge
  failIf (dest.entry.bitmapTableSize ≠ source.entry.bitmapTableSize) .incompatibleMerge
  .ok ⟨dest.entry, source.entry, dest.entry.bitmapTableSize, decide (destName = sourceName)⟩

/-- `or_bitmap_data`, on buffers of one cluster. -/
def orBitmapData (dst src : ByteMap) : ByteMap := fun i => dst i ||| src i

/-- How a source cluster is merged. -/
inductive MergeClusterAction where
  | skip
  | copyAllOnes
  | orIntoExisting
  | allocDestFromSource
  deriving DecidableEq, Repr

/-- The table of `merge_cluster_action`. -/
def mergeActionFor : BitmapTableEntry → BitmapTableEntry → MergeClusterAction
  | .allZeroes, _ => .skip
  | _, .allOnes => .skip
  | .allOnes, _ => .copyAllOnes
  | .allocated _, .allZeroes => .allocDestFromSource
  | .allocated _, .allocated _ => .orIntoExisting

/-- `merge_cluster_action`. -/
def mergeClusterAction (sourceEntry destEntry : Nat) : Except BitmapError MergeClusterAction :=
  match decodeBitmapTableEntry sourceEntry with
  | none => .error .parseFailed
  | some source =>
    match decodeBitmapTableEntry destEntry with
    | none => .error .parseFailed
    | some dest => .ok (mergeActionFor source dest)

end Instar.Bitmap
