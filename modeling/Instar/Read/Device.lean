import Instar.Lib.Pieces

/-!
# The input devices

An operation sees its inputs through the call table: a device has a capacity in sectors and is read
one whole sector at a time.  This module models the sector readers every format arm of the chain
reader ends in, and the one-sector caches through which the tables of an image are read.

Each reader has one lemma: what it returns is the bytes of the device it was asked for.
-/

namespace Instar.Read

open Fallible ByteMap

/-- A device: its size in sectors, its bytes, and the sectors that can be read. -/
structure InputDevice where
  capacity : Nat
  bytes : ByteMap
  readable : Nat → Bool

/-- The devices of an operation and their common sector size. -/
structure Inputs where
  sectorSize : Nat
  sectorSize_pos : 0 < sectorSize
  device : Nat → InputDevice

theorem sector_pos : 0 < 512 := by decide

/-- The two sector caches of a device. `first` serves the L1 table, grain directory or BAT, `second`
the L2 or grain tables. -/
inductive CacheSlot where
  | first
  | second
deriving DecidableEq, Repr

/-- A sector cache: the sector it holds, if any, and the bytes of that sector. -/
structure SectorCache where
  sector : Option Nat
  bytes : ByteMap

/-- What the calls of a reader share: the sector caches, the staging buffer and the virtual offset
of the unit it holds (`none` for the source's `u64::MAX`). -/
structure ReaderState where
  cache : Nat → CacheSlot → SectorCache
  stagingClusterOffset : Option Nat
  staging : ByteMap

/-- Nothing cached; the staging buffer holds whatever was in memory. -/
def ReaderState.fresh (staging : ByteMap) : ReaderState :=
  ⟨fun _ _ => ⟨none, fun _ => 0⟩, none, staging⟩

/-- Fill a sector cache. -/
def ReaderState.setCache (s : ReaderState) (d : Nat) (slot : CacheSlot) (c : SectorCache) :
    ReaderState :=
  { s with cache := fun d' slot' => if d' = d ∧ slot' = slot then c else s.cache d' slot' }

variable {bytes : ByteMap}

namespace Inputs

variable (inp : Inputs) {σ : Type}

/-- `read_input_sector`: a whole sector, or nothing. -/
def readInputSector (d sector : Nat) : Option ByteMap :=
  if (inp.device d).readable sector then
    some ((inp.device d).bytes.drop (sector * inp.sectorSize))
  else none

theorem readInputSector_eq {d sector : Nat} (h : inp.readInputSector d sector = some bytes) :
    bytes = (inp.device d).bytes.drop (sector * inp.sectorSize) := by
  unfold readInputSector at h
  split at h
  · exact (Option.some.inj h).symm
  · cases h

/-- The device size in bytes, as `saturating_mul` gives it. -/
def capBytes (d : Nat) : Nat := min ((inp.device d).capacity * inp.sectorSize) (2 ^ 64 - 1)

/-- Read the sector of byte `cur` and skip to that byte. -/
def sectorFrom (d cur : Nat) : Fallible σ ByteMap := do
  let sector ← ofOption (inp.readInputSector d (cur / inp.sectorSize))
  pure (sector.drop (cur % inp.sectorSize))

/-- The bytes of a device. -/
def byteOf (d : Nat) : Nat → Option UInt8 := fun x => some ((inp.device d).bytes x)

/-- The bytes of a device, with zeros from its last sector on. -/
def rawByteOf (d : Nat) : Nat → Option UInt8 :=
  fun x => some (if x / inp.sectorSize < (inp.device d).capacity then (inp.device d).bytes x else 0)

/-- The bytes from `cur` to the end of its sector, or as many as are left. -/
def toSectorEnd (cur rest : Nat) : Nat := min (inp.sectorSize - cur % inp.sectorSize) rest

/-- `read_cluster_sectors`: `len` bytes from the byte offset `off`.  The source's `sector` and
`sector_off` are `cur / sectorSize` and `cur % sectorSize`. -/
def readClusterSectors (d off len : Nat) : Fallible σ ByteMap :=
  if off % inp.sectorSize = 0 ∧ inp.sectorSize ≤ len ∧ len % inp.sectorSize = 0 then
    -- whole sectors, straight into the buffer
    pieces (fun _ _ => inp.sectorSize) (fun cur _ =>
      inp.sectorFrom d cur) (len / inp.sectorSize) off len
  else pieces inp.toSectorEnd (fun cur _ => inp.sectorFrom d cur) len off len

/-- `read_offset_sectors`: the tail of the first sector, then the sectors after it. -/
def readOffsetSectors (d off len : Nat) : Fallible σ ByteMap := do
  let firstUseful := inp.sectorSize - off % inp.sectorSize
  let head ← inp.sectorFrom d off
  if len ≤ firstUseful then pure head
  else do
    let rest ← pieces inp.toSectorEnd (fun cur _ => inp.sectorFrom d cur) (len - firstUseful)
      (off + firstUseful) (len - firstUseful)
    pure (head.append firstUseful rest)

/-- The next piece of a raw read: from the capacity on, everything that is left. -/
def rawNext (d cur rest : Nat) : Nat :=
  if (inp.device d).capacity ≤ cur / inp.sectorSize then rest else inp.toSectorEnd cur rest

/-- One piece of a raw read: a sector, or zeros past the capacity. -/
def rawPiece (d cur : Nat) : Fallible σ ByteMap :=
  if (inp.device d).capacity ≤ cur / inp.sectorSize then pure fun _ => 0 else inp.sectorFrom d cur

/-- `read_raw_sectors`: `len` bytes from `off`, zeros from the capacity on.  An aligned read takes
at least one sector. -/
def readRawSectors (d off len : Nat) : Fallible σ ByteMap :=
  if off % inp.sectorSize = 0 ∧ len % inp.sectorSize = 0 then
    let readSize := if len < inp.sectorSize then inp.sectorSize else len
    pieces (inp.rawNext d) (fun cur _ => inp.rawPiece d cur) readSize off readSize
  else pieces (inp.rawNext d) (fun cur _ => inp.rawPiece d cur) len off len

/-! ## What the readers return -/

variable {inp} {I : σ → Prop}

theorem sectorFrom_ensures (d cur n : Nat) :
    Ensures I (inp.sectorFrom d cur) (Gives (inp.byteOf d) cur n) := by
  refine (Ensures.ofOption fun _ h => inp.readInputSector_eq h).bind fun sector hsector => .pure ?_
  intro i _
  have hcur : cur / inp.sectorSize * inp.sectorSize + cur % inp.sectorSize = cur :=
    Nat.div_add_mod' cur inp.sectorSize
  show some _ = some _
  rw [hsector, drop_drop, hcur, drop_apply]

theorem toSectorEnd_le (cur rest : Nat) : inp.toSectorEnd cur rest ≤ rest := min_le_right _ _

theorem sectorSteps_ensures (d fuel off len : Nat) :
    Ensures I (pieces inp.toSectorEnd (fun cur _ => inp.sectorFrom d cur) fuel off len)
      (Gives (inp.byteOf d) off len) :=
  pieces_ensures (fun cur rest _ => toSectorEnd_le cur rest)
    (fun cur _ _ _ _ => sectorFrom_ensures d cur _) fuel le_rfl le_rfl

theorem wholeSectors_ensures (d off : Nat) {n len : Nat} (hlen : len = n * inp.sectorSize) :
    Ensures I (pieces (fun _ _ => inp.sectorSize) (fun cur _ => inp.sectorFrom d cur) n off len)
      (Gives (inp.byteOf d) off len) := by
  induction n generalizing off len with
  | zero =>
    rw [zero_mul] at hlen
    exact .ite (fun h => .pure (h ▸ Gives.empty _ _ _)) (fun h => absurd hlen h)
  | succ n ih =>
    rw [Nat.succ_mul] at hlen
    refine .ite (fun h => .pure (h ▸ Gives.empty _ _ _)) (fun _ => ?_)
    refine (sectorFrom_ensures d off inp.sectorSize).bind fun head hhead => ?_
    have hrest : len - inp.sectorSize = n * inp.sectorSize := by omega
    refine (ih (off + inp.sectorSize) hrest).bind fun rest hrest => .pure ?_
    have hwhole := hhead.append hrest
    rwa [show inp.sectorSize + (len - inp.sectorSize) = len by omega] at hwhole

theorem readClusterSectors_ensures (d off len : Nat) :
    Ensures I (inp.readClusterSectors d off len) (Gives (inp.byteOf d) off len) := by
  refine .ite (fun h => ?_) (fun _ => sectorSteps_ensures d len off len)
  exact wholeSectors_ensures d off (Nat.div_mul_cancel (Nat.dvd_of_mod_eq_zero h.2.2)).symm

theorem readOffsetSectors_ensures (d off len : Nat) :
    Ensures I (inp.readOffsetSectors d off len) (Gives (inp.byteOf d) off len) := by
  refine (sectorFrom_ensures d off len).bind fun head hhead => ?_
  refine .ite (fun _ => .pure hhead) (fun h => ?_)
  refine (sectorSteps_ensures d _ _ _).bind fun rest hrest => .pure ?_
  have hwhole := (hhead.take (n := inp.sectorSize - off % inp.sectorSize) (by omega)).append hrest
  rwa [show inp.sectorSize - off % inp.sectorSize + (len - (inp.sectorSize - off % inp.sectorSize))
    = len by omega] at hwhole

theorem rawNext_le (d cur rest : Nat) : inp.rawNext d cur rest ≤ rest := by
  unfold rawNext
  split
  · exact le_rfl
  · exact toSectorEnd_le cur rest

/-- A piece of a raw read lies on one side of the capacity. -/
theorem rawPiece_ensures (d cur rest : Nat) :
    Ensures I (inp.rawPiece d cur) (Gives (inp.rawByteOf d) cur (inp.rawNext d cur rest)) := by
  have hpos := inp.sectorSize_pos
  refine .ite (fun h => .pure ?_) (fun h => ?_)
  · intro i _
    have hsector : cur / inp.sectorSize ≤ (cur + i) / inp.sectorSize :=
      Nat.div_le_div_right (by omega)
    simp only [rawByteOf, if_neg (show ¬ (cur + i) / inp.sectorSize <
      (inp.device d).capacity by omega)]
  · refine (sectorFrom_ensures d cur (inp.toSectorEnd cur rest)).mono fun out hout i hi => ?_
    rw [rawNext, if_neg h] at hi
    have hin : cur % inp.sectorSize + i < inp.sectorSize := by
      unfold toSectorEnd at hi
      omega
    have hcur := Nat.div_add_mod cur inp.sectorSize
    have hsector : (cur + i) / inp.sectorSize = cur / inp.sectorSize := by
      rw [show cur + i = inp.sectorSize * (cur / inp.sectorSize) +
        (cur % inp.sectorSize + i) by omega, Nat.mul_add_div hpos, Nat.div_eq_of_lt hin, add_zero]
    simp only [rawByteOf, hsector, if_pos (Nat.lt_of_not_le h)]
    exact hout i hi

theorem rawSteps_ensures (d fuel off len : Nat) :
    Ensures I (pieces (inp.rawNext d) (fun cur _ => inp.rawPiece d cur) fuel off len)
      (Gives (inp.rawByteOf d) off len) :=
  pieces_ensures (fun cur rest _ => rawNext_le d cur rest)
    (fun cur rest _ _ _ => rawPiece_ensures d cur rest) fuel le_rfl le_rfl

theorem readRawSectors_ensures (d off len : Nat) :
    Ensures I (inp.readRawSectors d off len) (Gives (inp.rawByteOf d) off len) := by
  refine .ite (fun _ => ?_) (fun _ => rawSteps_ensures d len off len)
  refine (rawSteps_ensures d _ off _).mono fun out hout => hout.take ?_
  split <;> omega

end Inputs

/-! ## Cached reads of table entries -/

variable (inp : Inputs)

/-- Every sector cache holds the sector it names. -/
def CachesValid (s : ReaderState) : Prop :=
  ∀ d slot n, (s.cache d slot).sector = some n →
    inp.readInputSector d n = some (s.cache d slot).bytes

section

variable (d : Nat) (slot : CacheSlot) (off width : Nat)

/-- `cached_read!`: the bytes of a field of `width` bytes at `off`, through a one-sector cache.  A
field that leaves its sector is refused. -/
def readCached : Fallible ReaderState ByteMap :=
  fun s =>
    let sector := off / inp.sectorSize
    let inSector := off % inp.sectorSize
    if inp.sectorSize < inSector + width then (none, s)
    else if (inp.device d).capacity ≤ sector then (none, s)
    else if (s.cache d slot).sector = some sector then
      (some ((s.cache d slot).bytes.drop inSector), s)
    else
      match inp.readInputSector d sector with
      | none => (none, s)
      | some bytes => (some (bytes.drop inSector), s.setCache d slot ⟨some sector, bytes⟩)

/-- `read_u64_be_cached` and its 32-bit sibling. -/
def readBeCached : Fallible ReaderState Nat := do
  let field ← readCached inp d slot off width
  pure (field.be 0 width)

end

/-- A field that only some images have; it defaults to 0. -/
def readBeWhen (c : Prop) [Decidable c] (d : Nat) (slot : CacheSlot) (off width : Nat) :
    Fallible ReaderState Nat :=
  if c then readBeCached inp d slot off width else pure 0

/-- `read_u32_le_cached` and its 64-bit sibling. -/
def readLeCached (d : Nat) (slot : CacheSlot) (off width : Nat) : Fallible ReaderState Nat := do
  let field ← readCached inp d slot off width
  pure (field.le 0 width)

variable {inp}

theorem CachesValid.fresh (staging : ByteMap) : CachesValid inp (ReaderState.fresh staging) :=
  fun _ _ _ h => nomatch h

theorem CachesValid.setCache {s : ReaderState} (h : CachesValid inp s) {d n : Nat}
    {slot : CacheSlot}
    (hread : inp.readInputSector d n = some bytes) :
    CachesValid inp (s.setCache d slot ⟨some n, bytes⟩) := by
  intro d' slot' n' hn'
  simp only [ReaderState.setCache] at hn' ⊢
  by_cases heq : d' = d ∧ slot' = slot
  · rw [if_pos heq] at hn' ⊢
    obtain ⟨rfl, rfl⟩ := heq
    cases hn'
    exact hread
  · rw [if_neg heq] at hn' ⊢
    exact h d' slot' n' hn'

/-- What a reader needs of the shared state, and that its cached reads keep. -/
structure Stable (inp : Inputs) (I : ReaderState → Prop) : Prop where
  valid : ∀ s, I s → CachesValid inp s
  setCache : ∀ s d slot n bytes, I s → inp.readInputSector d n = some bytes →
    I (s.setCache d slot ⟨some n, bytes⟩)

variable {I : ReaderState → Prop} (hI : Stable inp I)

include hI

theorem readCached_ensures (d : Nat) (slot : CacheSlot) (off width : Nat) :
    Ensures I (readCached inp d slot off width) (fun field =>
      field = (inp.device d).bytes.drop off) := by
  have hoff : off / inp.sectorSize * inp.sectorSize + off % inp.sectorSize = off :=
    Nat.div_add_mod' off inp.sectorSize
  have hfield : ∀ bytes, inp.readInputSector d (off / inp.sectorSize) = some bytes →
      bytes.drop (off % inp.sectorSize) = (inp.device d).bytes.drop off := by
    intro bytes hread
    rw [inp.readInputSector_eq hread, drop_drop, hoff]
  intro s hs
  unfold readCached
  dsimp only
  split
  · exact ⟨hs, fun _ h => nomatch h⟩
  split
  · exact ⟨hs, fun _ h => nomatch h⟩
  split
  · -- a hit: the cache holds what a read would give
    rename_i hhit
    refine ⟨hs, fun field hres => ?_⟩
    cases hres
    exact hfield _ (hI.valid s hs d slot _ hhit)
  · cases hread : inp.readInputSector d (off / inp.sectorSize) with
    | none => exact ⟨hs, fun _ h => nomatch h⟩
    | some bytes =>
      refine ⟨hI.setCache s d slot _ bytes hs hread, fun field hres => ?_⟩
      cases hres
      exact hfield bytes hread

theorem readBeCached_ensures (d : Nat) (slot : CacheSlot) (off width : Nat) :
    Ensures I (readBeCached inp d slot off width) (fun v =>
      v = (inp.device d).bytes.be off width) := by
  refine (readCached_ensures hI d slot off width).bind fun field hfield => .pure ?_
  rw [hfield, be_drop, add_zero]

theorem readBeWhen_ensures (c : Prop) [Decidable c] (d : Nat) (slot : CacheSlot) (off width : Nat) :
    Ensures I (readBeWhen inp c d slot off width)
      (fun v => v = if c then (inp.device d).bytes.be off width else 0) := by
  refine .ite (fun h => ?_) (fun h => .pure (by rw [if_neg h]))
  rw [if_pos h]
  exact readBeCached_ensures hI d slot off width

theorem readLeCached_ensures (d : Nat) (slot : CacheSlot) (off width : Nat) :
    Ensures I (readLeCached inp d slot off width) (fun v =>
      v = (inp.device d).bytes.le off width) := by
  refine (readCached_ensures hI d slot off width).bind fun field hfield => .pure ?_
  rw [hfield, le_drop, add_zero]

end Instar.Read
