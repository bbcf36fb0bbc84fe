import Instar.Operations.Output
import Instar.Read.Calls
import Mathlib.Data.Nat.Digits.Defs

/-!
# Conversion to a sparse VMDK

`convert_to_vmdk` writes the grains of the window one after the other.  Each grain table has its
place in front of the first grain it names; the grain directory follows the last grain, and the
header and the descriptor are written at the end.  One buffer serves as grain table, directory,
header and descriptor in turn; what is cleared of it before each use is one sector of the output
device.
-/

namespace Instar.Convert

open Fallible Read

/-- `align_up`, which masks off the low bits: the next multiple of a power of two. -/
def alignUp (val align : Nat) : Nat := (val + align - 1) / align * align

/-! ## Header and descriptor -/

/-- Bytes of a list, and zeros behind them. -/
def ofList (bytes : List UInt8) : ByteMap := fun i => bytes.getD i 0

/-- Write a little-endian field of `n` bytes. -/
def putLe (buf : ByteMap) (off n v : Nat) : ByteMap := buf.splice off n (.ofLe v)

/-- `build_sparse_header`. -/
def buildSparseHeader (buf : ByteMap) (capacitySectors grainSizeSectors numGtesPerGt gdOffsetSectors
    overheadSectors : Nat) : ByteMap :=
  let buf := putLe buf 0 4 vmdk4Magic
  let buf := putLe buf 4 4 1
  let buf := putLe buf 8 4 1
  let buf := putLe buf 12 8 capacitySectors
  let buf := putLe buf 20 8 grainSizeSectors
  let buf := putLe buf 28 8 1
  let buf := putLe buf 36 8 20
  let buf := putLe buf 44 4 numGtesPerGt
  let buf := putLe buf 48 8 0
  let buf := putLe buf 56 8 gdOffsetSectors
  let buf := putLe buf 64 8 overheadSectors
  -- the bytes by which a reader tells that line ends were left alone
  buf.splice 73 4 (ofList [10, 32, 13, 10])

/-- The bytes of an ASCII text. -/
def ascii (text : String) : List UInt8 := text.toList.map fun c => UInt8.ofNat c.toNat

/-- `format_u64`: the decimal digits. -/
def formatU64 (v : Nat) : List UInt8 :=
  if v = 0 then ascii "0" else (Nat.digits 10 v).reverse.map fun digit => UInt8.ofNat (48 + digit)

/-- The pieces `build_descriptor` puts one after the other. -/
def descriptorPieces (capacitySectors : Nat) : List (List UInt8) :=
  [ascii "# Disk DescriptorFile\n", ascii "version=1\n", ascii "CID=fffffffe\n",
    ascii "parentCID=ffffffff\n", ascii "createType=\"monolithicSparse\"\n\n",
    ascii "# Extent description\n", ascii "RW ", formatU64 capacitySectors,
    ascii " SPARSE \"output.vmdk\"\n\n", ascii "# The Disk Data Base\n", ascii "#DDB\n"]

/-- Put pieces one after the other into a buffer of `len` bytes; a piece that does not fit is left
out. -/
def putPieces (len : Nat) : List (List UInt8) → Nat → ByteMap → ByteMap
  | [], _, buf => buf
  | piece :: rest, pos, buf =>
    putPieces len rest (pos + piece.length)
      (if pos + piece.length ≤ len then buf.splice pos piece.length (ofList piece) else buf)

/-- `build_descriptor`, for a buffer of `len` bytes. -/
def buildDescriptor (len : Nat) (buf : ByteMap) (offset capacitySectors : Nat) : ByteMap :=
  putPieces len (descriptorPieces capacitySectors) offset buf

/-! ## The job -/

def descSectors : Nat := 20

/-- `DEFAULT_NUM_GTES_PER_GT`. -/
def gtesPerGt : Nat := 512

/-- The size of a grain table in bytes. -/
def gtBytes : Nat := gtesPerGt * 4

/-- What `convert_to_vmdk` works with besides the chain.  `gdLimit` is the room the scratch memory
has for the grain directory. -/
structure VmdkJob where
  dev : OutputDevice
  sector_pow : ∃ k, 9 ≤ k ∧ k ≤ 16 ∧ dev.sectorSize = 2 ^ k
  grainSize : Nat
  grain_pow : ∃ k, 12 ≤ k ∧ grainSize = 2 ^ k
  skipZeros : Bool
  readStart : Nat
  outVsize : Nat
  declaredSize : Nat
  gdLimit : Nat

/-- The variables of the loops: the allocator, the data and table buffers, the place of the current
grain table, if it has one, and the grain directory. -/
structure VmdkLoop where
  nextFreeByte : Nat
  bufData : ByteMap
  bufGt : ByteMap
  gtByteOffset : Option Nat
  gd : ByteMap

namespace VmdkJob

variable (job : VmdkJob)

def grainSizeSectors : Nat := job.grainSize / 512

def capacitySectors : Nat := (job.declaredSize + 511) / 512

def totalGrains : Nat := (job.capacitySectors + job.grainSizeSectors - 1) / job.grainSizeSectors

def sectorsPerGt : Nat := gtesPerGt * job.grainSizeSectors

/-- The number of directory entries, which is kept in 32 bits. -/
def numGdEntries : Nat := (job.capacitySectors + job.sectorsPerGt - 1) / job.sectorsPerGt % 2 ^ 32

def gdBytes : Nat := job.numGdEntries * 4

/-- Grain data starts behind the header and the descriptor. -/
def grainDataStart : Nat :=
  (512 + descSectors * 512 + job.dev.sectorSize - 1) / job.dev.sectorSize * job.dev.sectorSize

/-- How much of a grain lies in the window. -/
def thisChunk (grain : Nat) : Nat :=
  if job.outVsize - grain * job.grainSize < job.grainSize then job.outVsize - grain * job.grainSize
  else job.grainSize

variable (read : Nat → Nat → Fallible ReaderState ByteMap)

/-- Read the part of a grain that lies in the window; there may be none. -/
def readGrain (grain : Nat) (bufData : ByteMap) : Fallible ConvertState ByteMap :=
  if 0 < job.thisChunk grain then do
    let data ← onReader (read (job.readStart + grain * job.grainSize) (job.thisChunk grain))
    pure (bufData.splice 0 (job.thisChunk grain) data)
  else pure bufData

/-- Give the current grain table its place, if it has none. -/
def allocateGt (st : VmdkLoop) : VmdkLoop :=
  match st.gtByteOffset with
  | some _ => st
  | none => { st with
      gtByteOffset := some (alignUp st.nextFreeByte job.dev.sectorSize)
      nextFreeByte := alignUp st.nextFreeByte job.dev.sectorSize +
        alignUp gtBytes job.dev.sectorSize }

/-- Write a grain whose data is in the buffer, and enter it in the table. -/
def writeGrain (firstGrain grain : Nat) (st : VmdkLoop) : Fallible ConvertState VmdkLoop := do
  let st := job.allocateGt st
  let grainByteOffset := alignUp st.nextFreeByte job.dev.sectorSize
  let bufData := st.bufData.splice (job.thisChunk grain) (job.grainSize - job.thisChunk grain)
    fun _ => 0
  job.dev.writeBytesToOutput bufData grainByteOffset job.grainSize
  pure { st with
    nextFreeByte := grainByteOffset + alignUp job.grainSize job.dev.sectorSize
    bufData
    bufGt := putLe st.bufGt ((grain - firstGrain) * 4) 4 (grainByteOffset / 512) }

/-- One grain. -/
def grainRound (firstGrain grain : Nat) (st : VmdkLoop) : Fallible ConvertState VmdkLoop := do
  let bufData ← job.readGrain read grain st.bufData
  if job.skipZeros = true ∧ isAllZeros bufData (job.thisChunk grain) = true then
    pure { st with bufData }
  else job.writeGrain firstGrain grain { st with bufData }

/-- Write the grain table that was filled, and enter it in the directory. -/
def flushGt (gdIdx : Nat) (st : VmdkLoop) : Fallible ConvertState VmdkLoop :=
  match st.gtByteOffset with
  | none => pure st
  | some gtByteOffset => do
      job.dev.writeBytesToOutput st.bufGt gtByteOffset (alignUp gtBytes job.dev.sectorSize)
      pure { st with gd := putLe st.gd (gdIdx * 4) 4 (gtByteOffset / 512) }

/-- One grain table.  A sector of the buffer is cleared. -/
def tableRound (gdIdx : Nat) (st : VmdkLoop) : Fallible ConvertState VmdkLoop := do
  let firstGrain := gdIdx * gtesPerGt
  let lastGrain := min (firstGrain + gtesPerGt) job.totalGrains
  let st ← forRange (job.grainRound read firstGrain) (lastGrain - firstGrain) firstGrain
    { st with bufGt := st.bufGt.splice 0 job.dev.sectorSize fun _ => 0, gtByteOffset := none }
  job.flushGt gdIdx st

/-- The directory, at the end of the image. -/
def writeGd (st : VmdkLoop) : Fallible ConvertState ByteMap := do
  let oss := job.dev.sectorSize
  let buf := (st.bufGt.splice 0 oss fun _ => 0).splice 0 job.gdBytes st.gd
  job.dev.writeBytesToOutput buf (alignUp st.nextFreeByte oss) (max (alignUp job.gdBytes oss) oss)
  pure buf

/-- The header and the descriptor, in one sector if they fit. -/
def writeHeader (gdByteOffset : Nat) (buf : ByteMap) : Fallible ConvertState Unit :=
  let oss := job.dev.sectorSize
  let header := buildSparseHeader (buf.splice 0 oss fun _ =>
    0) job.capacitySectors job.grainSizeSectors
    gtesPerGt (gdByteOffset / 512) (job.grainDataStart / 512)
  if 512 + descSectors * 512 ≤ oss then
    job.dev.writeBytesToOutput (buildDescriptor oss header 512 job.capacitySectors) 0 oss
  else do
    job.dev.writeBytesToOutput header 0 (alignUp 512 oss)
    let desc := buildDescriptor oss (header.splice 0 oss fun _ => 0) 0 job.capacitySectors
    job.dev.writeBytesToOutput desc 512 (alignUp (descSectors * 512) oss)

/-- The variables at the start; the scratch memory is zero. -/
def start (bufData : ByteMap) : VmdkLoop :=
  ⟨job.grainDataStart, bufData, fun _ => 0, none, fun _ => 0⟩

/-- `convert_to_vmdk`. -/
def run (bufData : ByteMap) : Fallible ConvertState Unit := do
  let _ ← require ((job.gdBytes + 7) / 8 * 8 ≤ job.gdLimit)
  let st ← forRange (job.tableRound read) job.numGdEntries 0 (job.start bufData)
  let buf ← job.writeGd st
  job.writeHeader (alignUp st.nextFreeByte job.dev.sectorSize) buf

end VmdkJob

/-- `convert_to_vmdk` for a chain of `n` devices; `bufData` is what was in the data buffer
before. -/
def convertToVmdk (cx : ChainReader) (n : Nat) (job : VmdkJob) (bufData : ByteMap) :
    Fallible ConvertState Unit :=
  job.run (cx.readRange n 0) bufData

end Instar.Convert
