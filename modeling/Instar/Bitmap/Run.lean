import Instar.Bitmap.Action
import Instar.Lib.Attempt
import Instar.Lib.SectorDevice

/-!
# The bitmap operation

`operations/bitmap`: the header, the directory and the refcount blocks are staged, the actions run
on what is staged, and only then is anything written: the autoclear bit of the bitmaps is cleared,
the tables that have to be zero, the directory, the refcount blocks and the bitmaps extension go to
disk, and at the end the bit is set again.  A merge works on the disk itself, between clearing and
setting the bit.

Planning only reads, so it is a function of the device; what writes is a computation of `Attempt` on
it.
-/

namespace Instar.Bitmap

open Qcow2 Attempt BitmapsExtension

/-! ## Device access -/

/-- `read_input_byte_range`. -/
def readInput (d : Device) (off len : Nat) : Except BitmapError ByteMap :=
  match d.readRange off len zeros with
  | .error _ => .error .readFailed
  | .ok bytes => .ok bytes

/-- A computation that works on the device and may stop. -/
abbrev Op := Attempt BitmapError Device

/-- `write_input_byte_range`. -/
def writeInput (off : Nat) (buf : Buffer) : Op Unit := fun d =>
  match d.writeRange off buf.len buf.bytes with
  | (.error _, d) => (.error .writeFailed, d)
  | (.ok _, d) => (.ok (), d)

/-- `fsync_input`, whose answer is not looked at. -/
def fsyncInput : Op Unit := fun d => (.ok (), d.fsync.2)

/-- `read_input_byte_range` in the middle of writes. -/
def readNow (off len : Nat) : Op ByteMap := fun d => (readInput d off len, d)

/-- Change a feature word in place. -/
def rmwFeatureWord (off : Nat) (f : Nat → Nat) : Op Unit := do
  let bytes ← readNow off 8
  writeInput off ⟨8, .ofBe (f (bytes.be 0 8)) 8⟩

/-! ## What the host asks for -/

/-- The action codes. -/
inductive ActionCode where
  | add
  | remove
  | clear
  | enable
  | disable
  | merge
  | other (code : Nat)
  deriving DecidableEq, Repr

def maxBitmapActions : Nat := 8

def maxMergeSources : Nat := 8

def bitmapNameBuf : Nat := 1024

/-- What the host has found out about the image. -/
structure Probed where
  clusterSize : Nat
  version : Nat
  refcountBits : Nat
  virtualSize : Nat
  autoclearFeatures : Nat
  incompatibleFeatures : Nat
  nbBitmaps : Nat
  bitmapDirectoryOffset : Nat
  bitmapDirectorySize : Nat
  deriving DecidableEq, Repr

/-- `BitmapConfig`: the actions and the name with their lengths, the names to merge as lengths of
the pieces of a pool, and what the host has probed. -/
structure BitmapConfig where
  actions : List ActionCode
  name : List UInt8
  granularity : Nat
  mergeSourceLens : List Nat
  mergeSourcePool : List UInt8
  probed : Probed

/-- `BitmapResult`, without the action it names. -/
structure BitmapResult where
  error : Option BitmapError
  actionsApplied : Nat
  resultingNbBitmaps : Nat
  deriving DecidableEq, Repr

/-! ## Staging -/

def autoclearFeaturesOffset : Nat := 88

def autoclearBitmapsBit : Nat := 1

def bitmapDirLimit : Nat := 64 * 1024

def rtLimit : Nat := 64 * 1024

def refblocksLimit : Nat := 2 * 1024 * 1024

def maxRefblocks : Nat := 32

def maxClusterSize : Nat := 2 * 1024 * 1024

section

variable (header : Buffer)

/-- The autoclear word of a header. -/
def autoclearOf : Nat :=
  if autoclearFeaturesOffset + 8 ≤ header.len then header.be autoclearFeaturesOffset 8 else 0

/-- The records a reader of the header extensions comes to. -/
def recordsOf : List ExtensionRecord :=
  if header.be 4 4 < 3 then []
  else if header.len < 104 then []
  else recordsFrom header (header.len / 8 + 1) (header.be 100 4)

/-- What `parse_header_extensions` reports of the bitmaps: the last record that parses. -/
def bitmapsExtension : Option BitmapsExtension :=
  (((recordsOf header).filter fun r => r.type = extBitmaps).filterMap fun r =>
    parseBitmapsExtension (header.slice r.body r.len)).getLast?

/-- The autoclear bit that says that the bitmaps are consistent. -/
def bitmapsConsistent : Prop := autoclearOf header &&& autoclearBitmapsBit ≠ 0

instance (header : Buffer) : Decidable (bitmapsConsistent header) :=
  inferInstanceAs (Decidable (_ ≠ _))

/-- `find_bitmaps_ext_body_offset`: the first record, whether it parses or not. -/
def findBitmapsExtBodyOffset : Option Nat :=
  ((recordsOf header).find? fun r => r.type = extBitmaps).map ExtensionRecord.body

end

/-- `StagedRefblocks`, with the staged blocks and where they are on disk. -/
structure StagedRefblocks where
  offsets : List Nat
  blocks : Buffer

/-- The refcount blocks at the given offsets, one behind the other. -/
def readRefblocks (d : Device) (clusterSize : Nat) : List Nat → Nat → ByteMap →
    Except BitmapError ByteMap
  | [], _, blocks => .ok blocks
  | off :: rest, k, blocks => do
      let bytes ← readInput d off clusterSize
      readRefblocks d clusterSize rest (k + 1) (blocks.splice (k * clusterSize) clusterSize bytes)

/-- `stage_refblocks`. -/
def stageRefblocks (d : Device) (hdr : QcowHeader) : Except BitmapError StagedRefblocks := do
  let rtRead := min (hdr.refcountTableClusters * hdr.clusterSize) rtLimit
  let rt ← readInput d hdr.refcountTableOffset rtRead
  let entries := (List.range (rtRead / 8)).map fun i => rt.be (i * 8) 8 &&& l1OffsetMask
  let populated := entries.takeWhile (· ≠ 0)
  failIf ((entries.dropWhile (· ≠ 0)).any (· ≠ 0) = true) .parseFailed
  failIf (populated.length = 0 ∨ maxRefblocks < populated.length) .scratchTooSmall
  failIf (refblocksLimit < populated.length * hdr.clusterSize) .scratchTooSmall
  let blocks ← readRefblocks d hdr.clusterSize populated 0 zeros
  .ok ⟨populated, ⟨populated.length * hdr.clusterSize, blocks⟩⟩

/-- What `run_qcow2` has before it comes to the actions. -/
structure Staging where
  hdr : QcowHeader
  header : Buffer
  ext : Option BitmapsExtension
  dir : ByteMap
  refblocks : StagedRefblocks

namespace Staging

variable (sg : Staging)

/-- The bitmaps in the directory. -/
def nbBitmaps : Nat := (sg.ext.map BitmapsExtension.nbBitmaps).getD 0

/-- Where the directory is. -/
def dirOffset : Nat := (sg.ext.map BitmapsExtension.bitmapDirectoryOffset).getD 0

/-- The bytes of the directory. -/
def dirSize : Nat := (sg.ext.map BitmapsExtension.bitmapDirectorySize).getD 0

/-- The geometry the actions get. -/
def geom : BitmapGeometry where
  clusterSize := sg.hdr.clusterSize
  refcountBits := 16
  virtualSize := sg.hdr.virtualSize
  refblockCount := sg.refblocks.offsets.length
  hostRefblocksStart := 0

end Staging

/-- The sector sizes `run_qcow2` works with. -/
def SectorSizeOk (sectorSize : Nat) : Prop :=
  512 ≤ sectorSize ∧ sectorSize ≤ 65536 ∧ ∃ k ≤ 16, sectorSize = 2 ^ k

instance (sectorSize : Nat) : Decidable (SectorSizeOk sectorSize) :=
  inferInstanceAs (Decidable (_ ∧ _ ∧ _))

/-- The actions are allowed on inconsistent bitmaps. -/
def AllRemove (actions : List ActionCode) : Prop :=
  actions ≠ [] ∧ ∀ a ∈ actions.take maxBitmapActions, a = .remove

instance (actions : List ActionCode) : Decidable (AllRemove actions) :=
  inferInstanceAs (Decidable (_ ∧ _))

/-- Read and parse the header: its first sector for the size of a cluster, then the cluster. -/
def stageHeader (d : Device) : Except BitmapError (QcowHeader × Buffer) := do
  failIf (¬ SectorSizeOk d.sectorSize) .parseFailed
  failIf (d.readOk 0 = false) .readFailed
  match QcowHeader.parse ⟨d.sectorSize, d.bytes⟩ with
  | none => .error .parseFailed
  | some hdr0 => do
    failIf (maxClusterSize < hdr0.clusterSize) .scratchTooSmall
    let bytes ← if d.sectorSize < hdr0.clusterSize then readInput d 0 hdr0.clusterSize
      else .ok d.bytes
    match QcowHeader.parse ⟨hdr0.clusterSize, bytes⟩ with
    | none => .error .parseFailed
    | some hdr => .ok (hdr, ⟨hdr0.clusterSize, bytes⟩)

/-- The bitmap directory, read into scratch memory that holds `scratch`. -/
def stageDirectory (d : Device) (ext : Option BitmapsExtension) (scratch : ByteMap) :
    Except BitmapError ByteMap :=
  match ext with
  | none => .ok scratch
  | some ext =>
    if bitmapDirLimit < ext.bitmapDirectorySize then .error .scratchTooSmall
    else
      match d.readRange ext.bitmapDirectoryOffset ext.bitmapDirectorySize scratch with
      | .error _ => .error .readFailed
      | .ok dir => .ok dir

/-- What the guest finds, to be compared with what the host has probed. -/
def probedOf (hdr : QcowHeader) (header : Buffer) (ext : Option BitmapsExtension) : Probed where
  clusterSize := hdr.clusterSize
  version := hdr.version
  refcountBits := hdr.refcountBits
  virtualSize := hdr.virtualSize
  autoclearFeatures := autoclearOf header
  incompatibleFeatures := hdr.incompatibleFeatures
  nbBitmaps := (ext.map nbBitmaps).getD 0
  bitmapDirectoryOffset := (ext.map bitmapDirectoryOffset).getD 0
  bitmapDirectorySize := (ext.map bitmapDirectorySize).getD 0

/-- The part of `run_qcow2` that comes before the actions; `scratch` is what the directory buffer
holds. -/
def stageAll (d : Device) (config : BitmapConfig) (scratch : ByteMap) :
    Except BitmapError Staging := do
  let read ← stageHeader d
  let hdr := read.1
  let header := read.2
  failIf (hdr.version < 3) .unsupportedVersion
  failIf (hdr.incompatibleFeatures &&& (incompatDirty ||| incompatCorrupt) ≠ 0 ∨ hdr.dirty = true ∨
    hdr.corrupt = true) .parseFailed
  failIf (hdr.refcountBits ≠ 16) .unsupportedRefcountWidth
  let ext := bitmapsExtension header
  failIf (ext.isSome = true ∧ ¬ bitmapsConsistent header ∧ ¬ AllRemove config.actions) .bitmapInUse
  failIf (config.probed ≠ probedOf hdr header ext) .headerMismatch
  let dir ← stageDirectory d ext scratch
  let refblocks ← stageRefblocks d hdr
  failIf (config.actions.length = 0 ∨ maxBitmapActions < config.actions.length) .unsupportedAction
  .ok ⟨hdr, header, ext, dir, refblocks⟩

/-! ## Refcounts of data clusters -/

section

variable (clusterSize refblockCount : Nat) (refblocks : Buffer)

/-- `set_refcount_in_block` to zero on the block `rb_lookup` finds. -/
def freeCluster (off : Nat) : Except BitmapError Buffer :=
  let epr := clusterSize * 8 / 16
  let clusterIndex := off / clusterSize
  if refblockCount ≤ clusterIndex / epr then .error .internalOverflow
  else
    let rbStart := clusterIndex / epr * clusterSize
    if refblocks.len < rbStart + clusterSize then .error .internalOverflow
    else
      match setRefcountInBlock (refblocks.slice rbStart clusterSize) (clusterIndex % epr) 16 0 with
      | .error _ => .error .internalOverflow
      | .ok block => .ok (refblocks.patch rbStart block)

/-- Free consecutive clusters. -/
def freeClusterRun (start count : Nat) :
    Except BitmapError Buffer :=
  (List.range count).foldlM (fun refblocks k => do
    failIf (2 ^ 64 ≤ start + k * clusterSize) .internalOverflow
    freeCluster clusterSize refblockCount refblocks (start + k * clusterSize)) refblocks

/-- Free the data cluster of one word of a bitmap table. -/
def freeTableWord (raw : Nat) :
    Except BitmapError Buffer :=
  match decodeBitmapTableEntry raw with
  | none => .error .parseFailed
  | some (.allocated off) => freeCluster clusterSize refblockCount refblocks off
  | some _ => .ok refblocks

end

/-- One cluster of a table in `free_bitmap_data_clusters`: chunk `k` of a table of `tableSize`
words. -/
def freeTableChunk (d : Device) (clusterSize refblockCount tableOffset tableSize : Nat)
    (refblocks : Buffer) (k : Nat) : Except BitmapError Buffer := do
  let perChunk := clusterSize / 8
  let take := min perChunk (tableSize - k * perChunk)
  failIf (2 ^ 64 ≤ tableOffset + k * clusterSize) .internalOverflow
  let table ← readInput d (tableOffset + k * clusterSize) (take * 8)
  (List.range take).foldlM (fun refblocks i =>
    freeTableWord clusterSize refblockCount refblocks (table.be (i * 8) 8)) refblocks

def freeBitmapDataClusters (d : Device) (clusterSize refblockCount : Nat) (refblocks : Buffer)
    (tableOffset tableSize : Nat) : Except BitmapError Buffer :=
  if tableSize = 0 ∨ tableOffset = 0 then .ok refblocks
  else
    (List.range (divCeil tableSize (clusterSize / 8))).foldlM
      (freeTableChunk d clusterSize refblockCount tableOffset tableSize) refblocks

/-! ## The action loop -/

def maxZeroClusters : Nat := maxBitmapActions * maxTableClusters

/-- What `run_actions` carries from action to action: both directory buffers, the length and number
of bitmaps of the current one, the refcount blocks, the cursor, and the clusters to be zeroed. -/
structure ActionState where
  dir : ByteMap
  spare : ByteMap
  len : Nat
  nb : Nat
  refblocks : Buffer
  cursor : AllocCursor
  zeros : List Nat
  extensionPresent : Bool

/-- `ZeroList::push`, for several offsets. -/
def pushZeros (zeros offsets : List Nat) : Except BitmapError (List Nat) :=
  if maxZeroClusters < zeros.length + offsets.length then .error .scratchTooSmall
  else .ok (zeros ++ offsets)

/-- The state after an action: its directory is the next action's, and the buffers change places. -/
def ActionState.next (st : ActionState) (outcome : ActionOutcome) (dir : ByteMap)
    (refblocks : Buffer) (cursor : AllocCursor) (zeros : List Nat) : ActionState :=
  ⟨dir, st.dir, outcome.newDirLen, outcome.newNbBitmaps, refblocks, cursor, zeros,
    outcome.extensionNowPresent⟩

section Actions

variable (d : Device) (geom : BitmapGeometry) (name : List UInt8) (granularityBits : Nat)

/-- Free the data clusters of the bitmap an action was about, unless its table is waiting to be
zeroed. -/
def freeData (refblocks : Buffer) (zeros : List Nat) (outcome : ActionOutcome) :
    Except BitmapError Buffer :=
  if outcome.freedTableOffset ∈ zeros then .ok refblocks
  else
    freeBitmapDataClusters d geom.clusterSize geom.refblockCount refblocks outcome.freedTableOffset
      outcome.freedTableSize

/-- The arms of the loop of `run_actions`. -/
def runAction (st : ActionState) (opcode : ActionCode) : Except BitmapError ActionState :=
  let oldDir : Buffer := ⟨bitmapDirLimit, st.dir⟩
  let outDir : Buffer := ⟨bitmapDirLimit, st.spare⟩
  match opcode with
  | .add => do
    let r ← actionAdd oldDir st.len st.nb name geom outDir granularityBits st.refblocks st.cursor
    let zeros ← pushZeros st.zeros r.1.tableClustersToZero
    .ok (st.next r.1 r.2.1 r.2.2.1 r.2.2.2 zeros)
  | .remove => do
    let r ← actionRemove oldDir st.len st.nb name geom outDir st.refblocks
    let refblocks ← freeData d geom r.2.2 st.zeros r.1
    .ok (st.next r.1 r.2.1 refblocks st.cursor st.zeros)
  | .clear => do
    let r ← actionClear oldDir st.len st.nb name geom outDir
    let refblocks ← freeData d geom st.refblocks st.zeros r.1
    let zeros ← pushZeros st.zeros (tableClusters geom r.1.freedTableOffset
      (tableClusterCount r.1.freedTableSize geom.clusterSize))
    .ok (st.next r.1 r.2 refblocks st.cursor zeros)
  | .enable => do
    let r ← actionEnable oldDir st.len st.nb name outDir
    .ok (st.next r.1 r.2 st.refblocks st.cursor st.zeros)
  | .disable => do
    let r ← actionDisable oldDir st.len st.nb name outDir
    .ok (st.next r.1 r.2 st.refblocks st.cursor st.zeros)
  | .merge => .error .unsupportedAction
  | .other _ => .error .unsupportedAction

/-- The loop of `run_actions`. -/
def applyActions (st : ActionState) (actions : List ActionCode) : Except BitmapError ActionState :=
  actions.foldlM (runAction d geom name granularityBits) st

end Actions

/-- `bytes_to_bits`, on the range of a 64-bit number. -/
def bytesToBits (bytes : Nat) : Option Nat := (List.range 64).find? fun k => bytes = 2 ^ k

/-- The state the action loop starts from; `spare` is what the second directory buffer holds. -/
def Staging.start (sg : Staging) (spare : ByteMap) : ActionState where
  dir := sg.dir
  spare := spare
  len := sg.dirSize
  nb := sg.nbBitmaps
  refblocks := sg.refblocks.blocks
  cursor := ⟨0, 0, 0⟩
  zeros := []
  extensionPresent := decide (0 < sg.nbBitmaps)

/-- The checks of `run_actions` and its loop. -/
def planActions (d : Device) (config : BitmapConfig) (sg : Staging) (spare : ByteMap) :
    Except BitmapError ActionState := do
  failIf (config.name.length = 0 ∨ bitmapNameBuf < config.name.length) .nameTooLong
  let granularity := if config.granularity = 0 then defaultGranularity sg.hdr.clusterSize
    else config.granularity
  match bytesToBits granularity with
  | none => .error .granularityRange
  | some bits => do
    failIf (¬ granularityBitsValid bits) .granularityRange
    applyActions d sg.geom config.name bits (sg.start spare) config.actions

/-! ## Writing back -/

section WriteBack

variable (sg : Staging)

/-- Where the directory goes, and the refcount blocks that say so. -/
def placeDirectory (st : ActionState) : Except BitmapError (Nat × Buffer) :=
  let cs := sg.hdr.clusterSize
  let count := sg.refblocks.offsets.length
  let oldClusters := if sg.dirOffset ≠ 0 then divCeil sg.dirSize cs else 0
  let newClusters := if 0 < st.nb then max (divCeil st.len cs) 1 else 0
  if st.nb = 0 then do
    let refblocks ← freeClusterRun cs count st.refblocks sg.dirOffset oldClusters
    .ok (0, refblocks)
  else if sg.dirOffset ≠ 0 ∧ newClusters ≤ oldClusters then
    if newClusters < oldClusters then do
      failIf (2 ^ 64 ≤ sg.dirOffset + newClusters * cs) .internalOverflow
      let refblocks ← freeClusterRun cs count st.refblocks (sg.dirOffset + newClusters * cs)
        (oldClusters - newClusters)
      .ok (sg.dirOffset, refblocks)
    else .ok (sg.dirOffset, st.refblocks)
  else
    match allocContiguousClustersInRefblocks st.refblocks cs 16 count 0 newClusters ⟨0, 0, 0⟩ with
    | (.error _, _, _) => .error .noSpace
    | (.ok newOffset, refblocks, _) =>
      if sg.dirOffset ≠ 0 then do
        let refblocks ← freeClusterRun cs count refblocks sg.dirOffset oldClusters
        .ok (newOffset, refblocks)
      else .ok (newOffset, refblocks)

/-- Clear the autoclear bit of the bitmaps. -/
def clearAutoclear : Op Unit := do
  rmwFeatureWord autoclearFeaturesOffset (· &&& complU64 autoclearBitmapsBit)
  fsyncInput

/-- Set the autoclear bit of the bitmaps. -/
def setAutoclear : Op Unit := do
  rmwFeatureWord autoclearFeaturesOffset (· ||| autoclearBitmapsBit)
  fsyncInput

/-- The refcount blocks and where they go. -/
def refblockPatches (refblocks : Buffer) : List (Nat × Buffer) :=
  sg.refblocks.offsets.mapIdx fun k off =>
    (off, refblocks.slice (k * sg.hdr.clusterSize) sg.hdr.clusterSize)

/-- What goes to disk besides the header: zeros for new and cleared tables, the directory if there
is one left, and the refcount blocks. -/
def clusterPatches (st : ActionState) (dirOffset : Nat) (refblocks : Buffer) :
    List (Nat × Buffer) :=
  st.zeros.map (fun off => (off, ⟨sg.hdr.clusterSize, zeros⟩)) ++
    (if 0 < st.nb ∧ dirOffset ≠ 0 ∧ 0 < st.len then [(dirOffset, ⟨st.len, st.dir⟩)] else []) ++
    refblockPatches sg refblocks

/-- Write the patches one after the other. -/
def writePatches (ps : List (Nat × Buffer)) : Op Unit := forEach (fun p => writeInput p.1 p.2) ps

/-- The body of the bitmaps extension. -/
def extensionBody (nb dirSize dirOffset : Nat) : Buffer :=
  if nb = 0 then serializeBitmapsExtension 0 0 0 else serializeBitmapsExtension nb dirSize dirOffset

/-- A new record and the end of the list behind it. -/
def newRecord (body : Buffer) : Buffer :=
  ⟨40, zeros
    |>.splice 0 4 (.ofBe extBitmaps 4)
    |>.splice 4 4 (.ofBe 24 4)
    |>.splice 8 24 body.bytes⟩

/-- What `write_bitmaps_extension` writes: the body of the record there is, or a new record in place
of the end of the list. -/
def extensionPatch (nb dirSize dirOffset : Nat) : Except BitmapError (List (Nat × Buffer)) :=
  let body := extensionBody nb dirSize dirOffset
  match findBitmapsExtBodyOffset sg.header with
  | some bodyOffset => .ok [(bodyOffset, body)]
  | none =>
    if nb = 0 then .ok []
    else
      match headerExtensionAreaEnd sg.header (sg.header.be 100 4) with
      | none => .error .parseFailed
      | some extEndAfter =>
        let extEnd := extEndAfter - 8
        if sg.hdr.clusterSize < extEnd + 40 then .error .scratchTooSmall
        else .ok [(extEnd, newRecord body)]

/-- Set the autoclear bit again if there are bitmaps left. -/
def restoreAutoclear (st : ActionState) : Op Unit :=
  if st.extensionPresent = true ∧ 0 < st.nb then setAutoclear else pure ()

/-- `write_back`. -/
def writeBack (st : ActionState) : Op Unit := do
  let placed ← ofExcept (placeDirectory sg st)
  clearAutoclear
  writePatches (clusterPatches sg st placed.1 placed.2)
  fsyncInput
  let extension ← ofExcept (extensionPatch sg st.nb st.len placed.1)
  writePatches extension
  fsyncInput
  restoreAutoclear st

end WriteBack

/-! ## Merging on disk -/

/-- What a merge works on. -/
structure MergeState where
  dev : Device
  refblocks : Buffer
  cursor : AllocCursor

/-- A step of a merge. -/
abbrev MergeOp := Attempt BitmapError MergeState

/-- A step that works on the device only. -/
def onDevice {α : Type} (m : Op α) : MergeOp α := fun s =>
  ((m s.dev).1, { s with dev := (m s.dev).2 })

def allocErrToCode : SnapshotError → BitmapError
  | .refcountExhausted => .noSpace
  | .unsupported => .unsupportedRefcountWidth
  | _ => .internalOverflow

/-- Allocate one data cluster. -/
def allocData (clusterSize refblockCount : Nat) : MergeOp Nat := fun s =>
  match allocContiguousClustersInRefblocks s.refblocks clusterSize 16 refblockCount
    0 1 s.cursor with
  | (.error e, _, _) => (.error (allocErrToCode e), s)
  | (.ok off, refblocks, cursor) => (.ok off, { s with refblocks := refblocks, cursor := cursor })

/-- Free the data cluster of a word of the destination, if it has one. -/
def freeDestData (clusterSize refblockCount : Nat) (raw : Nat) : MergeOp Unit := fun s =>
  match decodeBitmapTableEntry raw with
  | some (.allocated off) =>
    match freeCluster clusterSize refblockCount s.refblocks off with
    | .error e => (.error e, s)
    | .ok refblocks => (.ok (), { s with refblocks := refblocks })
  | _ => (.ok (), s)

def allocOffset (raw : Nat) : Except BitmapError Nat :=
  match decodeBitmapTableEntry raw with
  | some (.allocated off) => .ok off
  | _ => .error .internalOverflow

section Merge

variable (clusterSize refblockCount : Nat)

/-- The arms of the loop of `merge_one_source`. -/
def mergeWord (srcRaw dstRaw dstWordOff : Nat) : MergeClusterAction → MergeOp Unit
  | .skip => pure ()
  | .copyAllOnes => do
    freeDestData clusterSize refblockCount dstRaw
    onDevice (writeInput dstWordOff ⟨8, .ofBe (encodeBitmapTableEntry .allOnes) 8⟩)
  | .orIntoExisting => do
    let srcOff ← ofExcept (allocOffset srcRaw)
    let dstOff ← ofExcept (allocOffset dstRaw)
    let src ← onDevice (readNow srcOff clusterSize)
    let dst ← onDevice (readNow dstOff clusterSize)
    onDevice (writeInput dstOff ⟨clusterSize, orBitmapData dst src⟩)
  | .allocDestFromSource => do
    let srcOff ← ofExcept (allocOffset srcRaw)
    let newOff ← allocData clusterSize refblockCount
    let src ← onDevice (readNow srcOff clusterSize)
    onDevice (writeInput newOff ⟨clusterSize, src⟩)
    onDevice (writeInput dstWordOff ⟨8, .ofBe (encodeBitmapTableEntry (.allocated newOff)) 8⟩)

/-- One round of the loop of `merge_one_source`. -/
def mergeEntry (sourceTableOffset destTableOffset : Nat) (i : Nat) : MergeOp Unit := do
  let _ ← ofExcept (failIf (2 ^ 64 ≤ sourceTableOffset + i * 8) .internalOverflow)
  let _ ← ofExcept (failIf (2 ^ 64 ≤ destTableOffset + i * 8) .internalOverflow)
  let src ← onDevice (readNow (sourceTableOffset + i * 8) 8)
  let dst ← onDevice (readNow (destTableOffset + i * 8) 8)
  let action ← ofExcept (mergeClusterAction (src.be 0 8) (dst.be 0 8))
  mergeWord clusterSize refblockCount (src.be 0 8) (dst.be 0 8) (destTableOffset + i * 8) action

/-- Merge one source, entry by entry. -/
def mergeOneSource (spec : MergeSpec) : MergeOp Unit :=
  forEach (mergeEntry clusterSize refblockCount spec.source.bitmapTableOffset
    spec.dest.bitmapTableOffset) (List.range spec.tableSize)

end Merge

section

variable (config : BitmapConfig)

/-- `merge_source_name`, for a name that is not empty. -/
def mergeSourceName (k : Nat) : Except BitmapError (List UInt8) :=
  let start := (config.mergeSourceLens.take k).sum
  let len := config.mergeSourceLens.getD k 0
  if config.mergeSourcePool.length < start + len then .error .mergeSourceNotFound
  else if len = 0 then .error .mergeSourceNotFound
  else .ok ((config.mergeSourcePool.drop start).take len)

/-- The spec of source `k`. -/
def mergeSpec (sg : Staging) (k : Nat) : Except BitmapError MergeSpec := do
  let source ← mergeSourceName config k
  mergeValidate ⟨sg.dirSize, sg.dir⟩ sg.nbBitmaps config.name source

/-- The checks of `run_merge`: whether every source is the destination itself. -/
def planMerge (sg : Staging) : Except BitmapError Bool := do
  failIf (config.name.length = 0 ∨ bitmapNameBuf < config.name.length) .nameTooLong
  failIf (config.mergeSourceLens.length = 0 ∨
    maxMergeSources < config.mergeSourceLens.length) .unsupportedAction
  (List.range config.mergeSourceLens.length).foldlM (fun allSelf k => do
    let spec ← mergeSpec config sg k
    .ok (allSelf && spec.selfMerge)) true

/-- One source of a merge. -/
def mergeSource (sg : Staging) (k : Nat) : MergeOp Unit := do
  let spec ← ofExcept (mergeSpec config sg k)
  if spec.selfMerge then pure ()
  else mergeOneSource sg.hdr.clusterSize sg.refblocks.offsets.length spec

def writeBackMerge (sg : Staging) : MergeOp Unit := do
  onDevice clearAutoclear
  forEach (mergeSource config sg) (List.range config.mergeSourceLens.length)
  onDevice fsyncInput
  let refblocks ← fun s => (.ok s.refblocks, s)
  onDevice (writePatches (refblockPatches sg refblocks))
  onDevice fsyncInput
  onDevice setAutoclear

/-! ## The operation -/

/-- `make_result` for a request that was refused or failed. -/
def BitmapResult.failed (e : BitmapError) : BitmapResult := ⟨some e, 0, config.probed.nbBitmaps⟩

/-- Plan the actions and write back. -/
def runActions (sg : Staging) (spare : ByteMap) : Op BitmapResult := fun d =>
  match planActions d config sg spare with
  | .error e => (.error e, d)
  | .ok st =>
    match writeBack sg st d with
    | (.error e, d) => (.error e, d)
    | (.ok (), d) => (.ok ⟨none, config.actions.length, st.nb⟩, d)

/-- Plan a merge and write back. -/
def runMerge (sg : Staging) : Op BitmapResult := fun d =>
  match planMerge config sg with
  | .error e => (.error e, d)
  | .ok true => (.ok ⟨none, 1, sg.nbBitmaps⟩, d)
  | .ok false =>
    match writeBackMerge config sg ⟨d, sg.refblocks.blocks, ⟨0, 0, 0⟩⟩ with
    | (.error e, s) => (.error e, s.dev)
    | (.ok (), s) => (.ok ⟨none, 1, sg.nbBitmaps⟩, s.dev)

/-- The dispatch of `run_qcow2`: a merge has to be the sole action. -/
def runStaged (sg : Staging) (spare : ByteMap) : Op BitmapResult :=
  if ActionCode.merge ∈ config.actions then
    if config.actions = [.merge] then runMerge config sg else stop .unsupportedAction
  else runActions config sg spare

/-- `run_qcow2`; `scratch` and `spare` are what the two directory buffers hold when it starts. -/
def runQcow2 (scratch spare : ByteMap) (d : Device) : BitmapResult × Device :=
  match stageAll d config scratch with
  | .error e => (.failed config e, d)
  | .ok sg =>
    match runStaged config sg spare d with
    | (.error e, d) => (.failed config e, d)
    | (.ok result, d) => (result, d)

end

end Instar.Bitmap
