import Instar.Read.Ownership

/-!
# Reading VHD and VHDX layers

The block tables of a VHD and a VHDX, and the two arms of `read_chain_virtual_cluster`.  Both look
up the block of the first byte of a chunk and serve the whole chunk from it.  `VhdState.held` and
`VhdxState.held` say byte by byte what an image has of its own.
-/

namespace Instar.Read

open Fallible Ensures

/-- A raw device has a byte of its own everywhere. -/
def Inputs.rawHeld (inp : Inputs) (d x : Nat) : Contribution :=
  .gives (if x / inp.sectorSize < (inp.device d).capacity then (inp.device d).bytes x else 0)

variable {σ : Type}

theorem readRawSectors_gives {inp : Inputs} {I : σ → Prop} (d off len : Nat) :
    Ensures I (inp.readRawSectors d off len)
      (fun out => ∀ i < len, inp.rawHeld d (off + i) = .gives (out i)) :=
  (Inputs.readRawSectors_ensures d off len).mono fun _ hout i hi =>
    congrArg Contribution.gives (Option.some.inj (hout i hi))

theorem readRawSectors_held {inp : Inputs} {I : σ → Prop} (d off len : Nat)
    (layers : List (Nat → Contribution)) :
    Ensures I (inp.readRawSectors d off len) (Gives (layered (inp.rawHeld d :: layers)) off len) :=
  (readRawSectors_gives d off len).mono fun _ => .of_gives

/-! ## VHD -/

/-- `DISK_TYPE_FIXED`, `DISK_TYPE_DYNAMIC` and `DISK_TYPE_DIFFERENCING`. -/
inductive VhdDiskType where
  | fixed
  | dynamic
  | differencing
deriving DecidableEq, Repr

/-- `VHD_COOKIE`: "conectix". -/
def vhdCookie : Nat := 0x636f6e6563746978

/-- `CXSPARSE_COOKIE`: "cxsparse". -/
def cxsparseCookie : Nat := 0x6378737061727365

def batUnallocated : Nat := 0xFFFFFFFF

/-- The fields of a VHD that reads need.  A fixed VHD has no blocks. -/
structure VhdState where
  diskType : VhdDiskType
  blockSize : Nat
  block_pow : diskType ≠ .fixed → 0 < blockSize ∧ blockSize &&& (blockSize - 1) = 0
  maxTableEntries : Nat
  tableOffset : Nat

variable {below : Nat → Nat → Fallible ReaderState ByteMap} {layers : List (Nat → Contribution)}
  {behind : Nat}

namespace VhdState

def initFixed : VhdState := ⟨.fixed, 0, fun h => absurd rfl h, 0, 0⟩

/-- The dynamic header, 1024 bytes at `off`, which may go on into the next sector. -/
def readDynamicHeader {σ : Type} (inp : Inputs) (d off : Nat) : Fallible σ ByteMap := do
  let sector ← ofOption (inp.readInputSector d (off / inp.sectorSize))
  let inSector := off % inp.sectorSize
  if 1024 ≤ inp.sectorSize - inSector then pure (sector.drop inSector)
  else do
    let _ ← require (off / inp.sectorSize + 1 < (inp.device d).capacity)
    let next ← ofOption (inp.readInputSector d (off / inp.sectorSize + 1))
    pure ((sector.drop inSector).append (inp.sectorSize - inSector)
      (ByteMap.splice (fun _ => 0) 0 inp.sectorSize next))

/-- The rest of `init` for an image with a block table. -/
def initSparse (inp : Inputs) (d dataOffset : Nat) (ty : VhdDiskType) :
    Fallible ReaderState VhdState := do
  let actualSize ← ofOption (checkedU64 ((inp.device d).capacity * inp.sectorSize))
  let _ ← require (dataOffset < actualSize)
  let header ← readDynamicHeader inp d dataOffset
  let _ ← require (header.be 0 8 = cxsparseCookie)
  let blockSize := header.be 32 4
  let block ← require (0 < blockSize ∧ blockSize &&& (blockSize - 1) = 0)
  let maxTableEntries := header.be 28 4
  let _ ← require (maxTableEntries ≠ 0)
  let tableOffset := header.be 16 8
  let _ ← require (tableOffset < actualSize)
  let batEnd ← ofOption (checkedU64 (tableOffset + maxTableEntries * 4))
  let _ ← require (batEnd ≤ actualSize)
  pure ⟨ty, blockSize, fun _ => block.down, maxTableEntries, tableOffset⟩

/-- `VhdState::init`.  The footer is in the first sector, or in the last one of a fixed VHD. -/
def init (inp : Inputs) (d : Nat) : Fallible ReaderState VhdState := do
  let first ← ofOption (inp.readInputSector d 0)
  let footer := ByteMap.splice (fun _ => 0) 0 inp.sectorSize first
  if footer.be 0 8 = vhdCookie then
    if footer.be 60 4 = 2 then pure initFixed
    else if footer.be 60 4 = 3 then initSparse inp d (footer.be 16 8) .dynamic
    else if footer.be 60 4 = 4 then initSparse inp d (footer.be 16 8) .differencing
    else fail
  else do
    let _ ← require (0 < (inp.device d).capacity)
    let last ← ofOption (inp.readInputSector d ((inp.device d).capacity - 1))
    let _ ← require ((ByteMap.splice (fun _ => 0) 0 inp.sectorSize last).be 0 8 = vhdCookie)
    pure initFixed

variable (st : VhdState)

/-- `block_data_offset`: the length of a block's bitmap, in whole 512-byte sectors. -/
def blockDataOffset : Nat := (Qcow2.divCeil (st.blockSize / 512) 8 + 511) / 512 * 512

/-- The bitmap of a block: the most significant bit of a byte is its first sector. -/
def bitmapLayout : BitmapLayout where
  granule := 512
  granule_pos := by decide
  sectors := st.blockSize / 512
  bitmapBytes := st.blockDataOffset
  childOwned byte sector := byte.toNat.testBit (7 - sector % 8)
  slack := 0

section

variable (inp : Inputs) (d off : Nat)

/-- The BAT entry of a virtual offset, read through the cache; `none` for an unallocated block. -/
def batEntry : Fallible ReaderState (Option Nat) :=
  let blockIdx := off / st.blockSize
  if st.maxTableEntries ≤ blockIdx then pure none
  else do
    let batByteOffset ← ofOption (checkedU64 (st.tableOffset + blockIdx * 4))
    let entry ← readBeCached inp d .first batByteOffset 4
    pure (if entry = batUnallocated then none else some entry)

/-- `block_lookup`: the host offset of an allocated place. -/
def blockLookup : Fallible ReaderState (Option Nat) := do
  let entry ← st.batEntry inp d off
  pure (entry.map fun e => e * 512 + st.blockDataOffset + off % st.blockSize)

/-- `differencing_block_lookup`: where the bitmap of the block is, and the sector of the place.  A
block without a bitmap is refused. -/
def differencingBlockLookup :
    Fallible ReaderState (Option (Nat × Nat)) := do
  let _ ← require (st.blockDataOffset ≠ 0)
  let entry ← st.batEntry inp d off
  pure (entry.map fun e => (e * 512, off % st.blockSize / 512))

end

/-- A byte of a block's bitmap, as `read_sector_bitmap_run` fetches it. -/
def fetchBitmapByte (inp : Inputs) (d bitmapHost i : Nat) : Fallible ReaderState UInt8 := do
  let byteOffset ← ofOption (checkedU64 (bitmapHost + i))
  readByteCached inp d .second byteOffset

/-- The read of a chunk that is wholly the child's: `host` may lie inside a sector. -/
def readPlain {σ : Type} (inp : Inputs) (d host len : Nat) : Fallible σ ByteMap :=
  if host % inp.sectorSize = 0 then inp.readClusterSectors d host len
  else inp.readOffsetSectors d host len

section

variable (inp : Inputs) (d behind : Nat) (below : Nat → Nat → Fallible ReaderState ByteMap)

/-- The chunk of an allocated block of a differencing image. -/
def readShared (host off len : Nat) : Fallible ReaderState ByteMap := do
  match ← st.differencingBlockLookup inp d off with
  | none => fail
  | some (bitmapHost, firstSector) =>
    st.bitmapLayout.composeChunk (fetchBitmapByte inp d bitmapHost) inp d host firstSector
      (off % 512) behind below (readPlain inp d host len) off len

/-- The VHD arm of `read_chain_virtual_cluster`; `behind` counts the devices behind this one. -/
def arm (off len : Nat) : Fallible ReaderState ByteMap :=
  if st.diskType = .fixed then inp.readRawSectors d off len
  else do
    match ← st.blockLookup inp d off with
    | none =>
      if st.diskType = .differencing ∧ behind = 0 then fail
      else below off len
    | some host =>
      if st.diskType = .differencing then st.readShared inp d behind below host off len
      else readPlain inp d host len

end

/-- The BAT entry of a virtual offset. -/
def entryAt (bytes : ByteMap) (x : Nat) : Option Nat :=
  let entry := bytes.be (st.tableOffset + x / st.blockSize * 4) 4
  if st.maxTableEntries ≤ x / st.blockSize then none
  else if entry = batUnallocated then none
  else some entry

/-- Whether the image has a place of an allocated block for itself. -/
def childOwns (bytes : ByteMap) (entry x : Nat) : Bool :=
  st.bitmapLayout.owned (bytes.drop (entry * 512)) (x % st.blockSize)

/-- What the image has of its own at the virtual offset `x`. -/
def held (inp : Inputs) (d x : Nat) : Contribution :=
  if st.diskType = .fixed then inp.rawHeld d x
  else
    match st.entryAt (inp.device d).bytes x with
    | none => .absent
    | some entry =>
      if st.diskType = .differencing ∧ st.childOwns (inp.device d).bytes entry x =
        false then .absent
      else .gives ((inp.device d).bytes (entry * 512 + st.blockDataOffset + x % st.blockSize))

end VhdState

/-! ## VHDX -/

/-- `SB_BLOCK_SIZE`: the length of a sector bitmap block. -/
def sbBlockSize : Nat := 1024 * 1024

/-- `ranges_overlap`; a range whose end is no `u64` counts as overlapping. -/
def rangesOverlap (offset len regionOffset regionLen : Nat) : Bool :=
  if len = 0 ∨ regionLen = 0 then false
  else if 2 ^ 64 ≤ offset + len ∨ 2 ^ 64 ≤ regionOffset + regionLen then true
  else offset < regionOffset + regionLen && regionOffset < offset + len

/-- The fields of a VHDX that reads need, with what `VhdxState::init` has checked of them. -/
structure VhdxState where
  blockSize : Nat
  block_pow : ∃ k, 20 ≤ k ∧ k ≤ 28 ∧ blockSize = 2 ^ k
  virtualDiskSize : Nat
  logicalSectorSize : Nat
  sector_eq : logicalSectorSize = 512 ∨ logicalSectorSize = 4096
  batOffset : Nat
  sbBatEntryBound : Nat
  regions : List (Nat × Nat)
  hasParent : Bool

/-- The states of a payload block, with the file offset of a block that has data. -/
inductive VhdxBlock where
  | notPresent
  | zero
  | present (fileOffset : Nat)
  | partiallyPresent (fileOffset : Nat)
deriving DecidableEq, Repr

namespace VhdxState

variable (st : VhdxState)

/-- `chunk_ratio`: the payload blocks that share a sector bitmap block. -/
def chunkRatio : Nat := 2 ^ 23 * st.logicalSectorSize / st.blockSize

/-- The sector bitmap of a chunk group: the least significant bit of a byte is its first sector. -/
def bitmapLayout : BitmapLayout where
  granule := st.logicalSectorSize
  granule_pos := by rcases st.sector_eq with h | h <;> rw [h] <;> decide
  sectors := st.chunkRatio * st.blockSize / st.logicalSectorSize
  bitmapBytes := sbBlockSize
  childOwned byte sector := byte.toNat.testBit (sector % 8)
  slack := st.logicalSectorSize - 1

def blockOverlapsADeclaredRegion (offset len : Nat) : Bool :=
  st.regions.any fun region => rangesOverlap offset len region.1 region.2

/-- `BAT_ENTRY_OFFSET_MASK` clears the low 20 bits of an entry. -/
def entryOffset (entry : Nat) : Nat := entry / 2 ^ 20 * 2 ^ 20

/-- `BAT_ENTRY_STATE_MASK` keeps the low 3 bits of an entry. -/
def entryState (entry : Nat) : Nat := entry % 8

/-- How a payload entry of the BAT is read. -/
def classifyEntry (entry : Nat) : Option VhdxBlock :=
  let fileOffset := entryOffset entry
  match entryState entry with
  | 0 | 1 | 3 => some .notPresent
  | 2 => some .zero
  | 6 =>
    if fileOffset = 0 then none
    else if st.blockOverlapsADeclaredRegion fileOffset st.blockSize then none
    else some (.present fileOffset)
  | 7 =>
    if st.hasParent = false then none
    else if fileOffset = 0 then none
    else if st.blockOverlapsADeclaredRegion fileOffset st.blockSize then none
    else some (.partiallyPresent fileOffset)
  | _ => none

/-- Where the BAT entry of a payload block is.  Every `chunkRatio` payload entries are followed by
one for their sector bitmap.  The sum is not checked. -/
def batByteOffset (blockIndex : Nat) : Nat :=
  (st.batOffset + (blockIndex + blockIndex / st.chunkRatio) * 8) % 2 ^ 64

/-- `block_lookup`; the host offset of a place is the file offset of its block and the place in
it. -/
def blockLookup (inp : Inputs) (d off : Nat) : Fallible ReaderState VhdxBlock :=
  let blockIndex := off / st.blockSize
  if Qcow2.divCeil st.virtualDiskSize st.blockSize ≤ blockIndex then pure .notPresent
  else do
    let entry ← readLeCached inp d .first (st.batByteOffset blockIndex) 8
    ofOption (st.classifyEntry entry)

/-- `sb_bat_index`: the BAT index of the sector bitmap entry of a payload block. -/
def sbBatIndex (blockIndex : Nat) : Nat :=
  blockIndex / st.chunkRatio * (st.chunkRatio + 1) + st.chunkRatio

/-- The file offset a sector bitmap entry of the BAT names. -/
def classifySbEntry (entry : Nat) : Option Nat :=
  if entryState entry ≠ 6 then none
  else if entryOffset entry = 0 then none
  else if st.blockOverlapsADeclaredRegion (entryOffset entry) sbBlockSize then none
  else some (entryOffset entry)

/-- The place of a virtual offset in its chunk group. -/
def inGroup (off : Nat) : Nat :=
  off - off / st.blockSize / st.chunkRatio * st.chunkRatio * st.blockSize

/-- `sector_bitmap_lookup`: the file offset of the bitmap, and the sector of the place in its
group. -/
def sectorBitmapLookup (inp : Inputs) (d off : Nat) : Fallible ReaderState (Nat × Nat) := do
  let sbIndex ← ofOption (checkedU64 (st.sbBatIndex (off / st.blockSize)))
  let _ ← require (sbIndex < st.sbBatEntryBound)
  let entryByteOffset ← ofOption (checkedU64 (st.batOffset + sbIndex * 8))
  let entry ← readLeCached inp d .first entryByteOffset 8
  let bitmapHost ← ofOption (st.classifySbEntry entry)
  let _ ← require (st.inGroup off / st.logicalSectorSize < 2 ^ 32)
  pure (bitmapHost, st.inGroup off / st.logicalSectorSize)

/-- The VHDX arm of `read_chain_virtual_cluster`; `behind` counts the devices behind this one. -/
def arm (inp : Inputs) (d behind : Nat) (below : Nat → Nat → Fallible ReaderState ByteMap)
    (off len : Nat) : Fallible ReaderState ByteMap := do
  let intra := off % st.blockSize
  match ← st.blockLookup inp d off with
  | .notPresent => if st.hasParent = true ∧ behind = 0 then fail else below off len
  | .zero => pure fun _ => 0
  | .present fileOffset => do
      let host ← ofOption (checkedU64 (fileOffset + intra))
      inp.readClusterSectors d host len
  | .partiallyPresent fileOffset => do
      let host ← ofOption (checkedU64 (fileOffset + intra))
      let _ ← require (len ≤ st.blockSize - intra)
      let (bitmapHost, firstSector) ← st.sectorBitmapLookup inp d off
      st.bitmapLayout.composeChunk (VhdState.fetchBitmapByte inp d bitmapHost) inp
        d host firstSector
        (off % st.logicalSectorSize) behind below (inp.readClusterSectors d host len) off len

/-- The block of a virtual offset. -/
def blockAt (bytes : ByteMap) (x : Nat) : Option VhdxBlock :=
  if Qcow2.divCeil st.virtualDiskSize st.blockSize ≤ x / st.blockSize then some .notPresent
  else st.classifyEntry (bytes.le (st.batByteOffset (x / st.blockSize)) 8)

/-- The file offset of the sector bitmap of a virtual offset. -/
def bitmapAt (bytes : ByteMap) (x : Nat) : Option Nat :=
  st.classifySbEntry (bytes.le (st.batOffset + st.sbBatIndex (x / st.blockSize) * 8) 8)

/-- What the image has of its own at the virtual offset `x`. -/
def held (inp : Inputs) (d x : Nat) : Contribution :=
  match st.blockAt (inp.device d).bytes x with
  | none => .refused
  | some .notPresent => .absent
  | some .zero => .gives 0
  | some (.present fileOffset) => .gives ((inp.device d).bytes (fileOffset + x % st.blockSize))
  | some (.partiallyPresent fileOffset) =>
    match st.bitmapAt (inp.device d).bytes x with
    | none => .refused
    | some bitmapHost =>
      if st.bitmapLayout.owned ((inp.device d).bytes.drop bitmapHost) (st.inGroup x) = true then
        .gives ((inp.device d).bytes (fileOffset + x % st.blockSize))
      else .absent

end VhdxState

end Instar.Read
