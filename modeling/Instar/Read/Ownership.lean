import Instar.Read.Qcow2

/-!
# Sector ownership in differencing images

A differencing image shares a block with its parent, and a bitmap says sector by sector which of the
two a sector belongs to.  The VHD and the VHDX reader walk it in the same way and differ in the size
of a sector, the order of the bits in a byte, and the length of the bitmap.  This module has the
walk, and `BitmapLayout.owned` says whose a byte is.
-/

namespace Instar.Read

open Fallible

/-- `read_u8_cached`. -/
def readByteCached (inp : Inputs) (d : Nat) (slot : CacheSlot) (off : Nat) :
    Fallible ReaderState UInt8 := do
  let field ← readCached inp d slot off 1
  pure (field 0)

/-- The geometry of a sector bitmap. -/
structure BitmapLayout where
  /-- The bytes one bit stands for. -/
  granule : Nat
  granule_pos : 0 < granule
  /-- The sectors the bitmap describes. -/
  sectors : Nat
  /-- The length of the bitmap. -/
  bitmapBytes : Nat
  /-- `sector_bit_is_child_owned`. -/
  childOwned : UInt8 → Nat → Bool
  /-- What is added before a length is divided into sectors; the sum must be a `u64`. -/
  slack : Nat

/-- How a chunk is shared with the parent (`VhdChunkOwnership`, `VhdxChunkOwnership`). -/
inductive ChunkOwnership where
  | allChild
  | allParent
  | mixed
deriving DecidableEq, Repr

namespace BitmapLayout

variable (lay : BitmapLayout) (fetchByte : Nat → Fallible ReaderState UInt8)

/-- The loop of `coalesce_ownership_run`: extend a run of `sectors` sectors. -/
def extendRun (firstSector wanted : Nat) (childOwned : Bool) :
    Nat → Nat → UInt8 → Nat → Fallible ReaderState Nat
  | 0, _, _, sectors => pure sectors
  | fuel + 1, byteIndex, bitmapByte, sectors =>
    let sector := firstSector + sectors
    if wanted ≤ sectors then pure sectors
    else if sector / 8 = byteIndex then
      if lay.childOwned bitmapByte sector ≠ childOwned then pure sectors
      else extendRun firstSector wanted childOwned fuel byteIndex bitmapByte (sectors + 1)
    else if lay.bitmapBytes ≤ sector / 8 then pure sectors
    else do
      let bitmapByte ← fetchByte (sector / 8)
      if lay.childOwned bitmapByte sector ≠ childOwned then pure sectors
      else extendRun firstSector wanted childOwned fuel (sector / 8) bitmapByte (sectors + 1)

/-- `coalesce_ownership_run`: the owner of a sector, and how many sectors from there on it owns. -/
def coalesceOwnershipRun (firstSector sectorCount : Nat) : Fallible ReaderState (Bool × Nat) :=
  if sectorCount = 0 ∨ lay.bitmapBytes = 0 ∨ lay.sectors ≤ firstSector then fail
  else if lay.bitmapBytes ≤ firstSector / 8 then fail
  else do
    let wanted := min sectorCount (lay.sectors - firstSector)
    let bitmapByte ← fetchByte (firstSector / 8)
    let childOwned := lay.childOwned bitmapByte firstSector
    let sectors ← lay.extendRun fetchByte firstSector wanted childOwned wanted (firstSector / 8)
      bitmapByte 1
    pure (childOwned, sectors)

/-- `next_vhd_ownership_run` and its VHDX sibling: the owner of the next bytes, how many they are,
and how many sectors the walk moves on. -/
def nextOwnershipRun (sector sectorByte remaining : Nat) :
    Fallible ReaderState (Bool × Nat × Nat) := do
  let span ← ofOption (checkedU64 (sectorByte + remaining + lay.slack))
  let wanted := Qcow2.divCeil (span - lay.slack) lay.granule
  let _ ← require (wanted < 2 ^ 32)
  let run ← lay.coalesceOwnershipRun fetchByte sector wanted
  let _ ← require (sectorByte ≤ run.2 * lay.granule)
  pure (run.1, min (run.2 * lay.granule - sectorByte) remaining, run.2)

/-- The loop of `classify_vhd_chunk_ownership` and its VHDX sibling; `seen` is `any_child` and
`any_parent`. -/
def classifyRuns : Nat → Nat → Nat → Nat → Bool × Bool → Fallible ReaderState (Bool × Bool)
  | 0, _, _, remaining, seen => if remaining = 0 then pure seen else fail
  | fuel + 1, sector, sectorByte, remaining, seen =>
    if remaining = 0 then pure seen
    else do
      let run ← lay.nextOwnershipRun fetchByte sector sectorByte remaining
      let _ ← require (sector + run.2.2 < 2 ^ 32)
      classifyRuns fuel (sector + run.2.2) 0 (remaining - run.2.1) (seen.1 || run.1,
        seen.2 || !run.1)

/-- `classify_vhd_chunk_ownership` and its VHDX sibling. -/
def classifyChunk (firstSector firstSectorByte chunkSize : Nat) :
    Fallible ReaderState ChunkOwnership := do
  let seen ← lay.classifyRuns fetchByte chunkSize firstSector firstSectorByte chunkSize (false,
    false)
  pure (if seen.1 && seen.2 then .mixed else if seen.2 then .allParent else .allChild)

/-- One run of `read_vhd_child_runs`: the child's own bytes replace those of the parent. -/
def overlayRun (inp : Inputs) (d hostByteOffset served n : Nat) (childOwned : Bool)
    (buf : ByteMap) : Fallible ReaderState ByteMap :=
  if childOwned then do
    let runHost ← ofOption (checkedU64 (hostByteOffset + served))
    let bytes ← inp.readOffsetSectors d runHost n
    pure (buf.splice served n bytes)
  else pure buf

/-- `read_vhd_child_runs` and its VHDX sibling. -/
def readChildRuns (inp : Inputs) (d hostByteOffset : Nat) :
    Nat → Nat → Nat → Nat → Nat → ByteMap → Fallible ReaderState ByteMap
  | 0, _, _, _, remaining, buf => if remaining = 0 then pure buf else fail
  | fuel + 1, sector, sectorByte, served, remaining, buf =>
    if remaining = 0 then pure buf
    else do
      let run ← lay.nextOwnershipRun fetchByte sector sectorByte remaining
      let buf ← overlayRun inp d hostByteOffset served run.2.1 run.1 buf
      let _ ← require (sector + run.2.2 < 2 ^ 32)
      readChildRuns inp d hostByteOffset fuel (sector + run.2.2) 0 (served + run.2.1)
        (remaining - run.2.1) buf

/-- A chunk of a shared block: the child's own, the parent's, or the parent's with the child's runs
over it.  `behind` counts the devices behind the child. -/
def composeChunk (inp : Inputs) (d hostByteOffset firstSector firstSectorByte behind : Nat)
    (below : Nat → Nat → Fallible ReaderState ByteMap) (plain : Fallible ReaderState ByteMap)
    (off len : Nat) : Fallible ReaderState ByteMap := do
  match ← lay.classifyChunk fetchByte firstSector firstSectorByte len with
  | .allChild => plain
  | .allParent => if behind = 0 then fail else below off len
  | .mixed =>
    if behind = 0 then fail
    else do
      let buf ← below off len
      lay.readChildRuns fetchByte inp d hostByteOffset len firstSector firstSectorByte 0 len buf

/-! ## Ownership by position -/

/-- Whether the child owns the byte at position `p` of what the bitmap describes. -/
def owned (bitmap : ByteMap) (p : Nat) : Bool :=
  lay.childOwned (bitmap (p / lay.granule / 8)) (p / lay.granule)

end BitmapLayout

end Instar.Read
