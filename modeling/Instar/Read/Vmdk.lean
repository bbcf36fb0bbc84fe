import Instar.Read.Qcow2

/-!
# Reading a sparse VMDK layer

The grain directory and grain tables of a monolithic VMDK, and the VMDK arm of
`read_chain_virtual_cluster` for a chunk inside one grain.
-/

namespace Instar.Read

open Fallible Ensures

/-- `GD_AT_END`: the header of a stream-optimised image, whose directory the footer names. -/
def gdAtEnd : Nat := 2 ^ 64 - 1

def vmdk4Magic : Nat := 0x564D444B

/-- `GRAIN_MARKER_SIZE`: the header of a compressed grain. -/
def grainMarkerSize : Nat := 12

/-- The fields of a VMDK header that reads need. -/
structure VmdkState where
  grainSizeSectors : Nat
  grain_pos : 0 < grainSizeSectors
  grain_pow : grainSizeSectors &&& (grainSizeSectors - 1) = 0
  numGtesPerGt : Nat
  gdOffsetSectors : Nat
  numGdEntries : Nat
  hasZeroGrain : Bool
  isCompressed : Bool

/-- The outcome of looking up a virtual offset. -/
inductive GrainLookup where
  | unallocated
  | zeroed
  | standard (hostOffset : Nat)
  | compressed (markerOffset : Nat)
deriving DecidableEq, Repr

namespace VmdkState

/-- `read_footer_gd_offset`: the directory offset in the footer, 1024 bytes before the end of the
file.  The footer must lie in one sector. -/
def readFooterGdOffset {σ : Type} (inp : Inputs) (d actualFileSize : Nat) : Fallible σ Nat := do
  let _ ← require (1024 ≤ actualFileSize)
  let footer := actualFileSize - 1024
  let _ ← require (footer / inp.sectorSize < (inp.device d).capacity)
  let sector ← ofOption (inp.readInputSector d (footer / inp.sectorSize))
  let inSector := footer % inp.sectorSize
  let _ ← require (inSector + 79 ≤ inp.sectorSize)
  let _ ← require (sector.le inSector 4 = vmdk4Magic)
  let _ ← require (sector.le (inSector + 56) 8 ≠ gdAtEnd)
  pure (sector.le (inSector + 56) 8)

/-- The directory offset of the header, or of the footer when the header defers to it. -/
def gdOffset {σ : Type} (inp : Inputs) (d actualFileSize headerOffset : Nat) : Fallible σ Nat :=
  if headerOffset = gdAtEnd then readFooterGdOffset inp d actualFileSize else pure headerOffset

/-- `VmdkState::init`.  The header is parsed from a zeroed buffer that holds the first sector. -/
def init (inp : Inputs) (d actualFileSize : Nat) : Fallible ReaderState VmdkState := do
  let sector ← ofOption (inp.readInputSector d 0)
  let header := ByteMap.splice (fun _ => 0) 0 inp.sectorSize sector
  let version := header.le 4 4
  let flags := header.le 8 4
  let capacitySectors := header.le 12 8
  let grainSizeSectors := header.le 20 8
  let numGtesPerGt := header.le 44 4
  let _ ← ofOption (checkedU64 (capacitySectors * 512))
  let _ ← ofOption (checkedU64 (grainSizeSectors * 512))
  let _ ← require (version ≠ 0 ∧ version ≤ 3)
  let _ ← require (capacitySectors ≠ 0)
  let grain ← require (grainSizeSectors ≠ 0 ∧ grainSizeSectors &&& (grainSizeSectors - 1) = 0)
  let _ ← require (numGtesPerGt ≠ 0)
  let sectorsPerGt ← ofOption (checkedU64 (numGtesPerGt * grainSizeSectors))
  let rounded ← ofOption (checkedU64 (capacitySectors + (sectorsPerGt - 1)))
  let numGdEntries := rounded / sectorsPerGt
  let _ ← require (numGdEntries < 2 ^ 32 ∧ numGdEntries ≠ 0)
  let gdOffsetSectors ← gdOffset inp d actualFileSize (header.le 56 8)
  let actualSize ← ofOption (checkedU64 ((inp.device d).capacity * inp.sectorSize))
  let gdByteOffset ← ofOption (checkedU64 (gdOffsetSectors * 512))
  let _ ← require (gdByteOffset < actualSize)
  let gdEnd ← ofOption (checkedU64 (gdByteOffset + numGdEntries * 4))
  let _ ← require (gdEnd ≤ actualSize)
  pure {
    grainSizeSectors
    grain_pos := pos_of_ne_zero grain.down.1
    grain_pow := grain.down.2
    numGtesPerGt
    gdOffsetSectors
    numGdEntries
    hasZeroGrain := flags &&& 2 ^ 2 ≠ 0
    isCompressed := flags &&& 2 ^ 16 ≠ 0 }

variable (st : VmdkState)

def grainSizeBytes : Nat := st.grainSizeSectors * 512

/-- How a grain table entry is read. -/
def classifyGte (gte : Nat) : GrainLookup :=
  if gte = 0 then .unallocated
  else if st.hasZeroGrain = true ∧ gte = 1 then .zeroed
  else if st.isCompressed = true then .compressed (gte * 512)
  else .standard (gte * 512)

/-- `VmdkState::grain_lookup`. -/
def grainLookup (inp : Inputs) (d off : Nat) : Fallible ReaderState GrainLookup := do
  let virtualSector := off / 512
  let sectorsPerGt ← ofOption (checkedU64 (st.numGtesPerGt * st.grainSizeSectors))
  let gdIndex := virtualSector / sectorsPerGt
  let gtIndex := virtualSector / st.grainSizeSectors % st.numGtesPerGt
  if st.numGdEntries ≤ gdIndex then pure .unallocated
  else do
    let gdByteOffset ← ofOption (checkedU64 (st.gdOffsetSectors * 512 + gdIndex * 4))
    let gdEntry ← readLeCached inp d .first gdByteOffset 4
    if gdEntry = 0 then pure .unallocated
    else do
      let gtByteOffset ← ofOption (checkedU64 (gdEntry * 512 + gtIndex * 4))
      let actualSize ← ofOption (checkedU64 ((inp.device d).capacity * inp.sectorSize))
      let _ ← require (gtByteOffset < actualSize)
      let gte ← readLeCached inp d .second gtByteOffset 4
      pure (st.classifyGte gte)

/-- The compressed bytes after a grain marker of `size` bytes of data. -/
def readGrainData {σ : Type} (inp : Inputs) (d marker size : Nat) : Fallible σ (List UInt8) := do
  let totalNeeded := grainMarkerSize + size
  let _ ← require (totalNeeded ≤ compressedBufSize)
  let firstSector := marker / inp.sectorSize
  let sectorsToRead := Qcow2.divCeil (marker + totalNeeded) inp.sectorSize - firstSector
  let _ ← require (sectorsToRead * inp.sectorSize ≤ compressedBufSize)
  let _ ← require (firstSector + sectorsToRead ≤ (inp.device d).capacity)
  let buf ← pieces (fun _ _ => inp.sectorSize) (fun cur _ => inp.sectorFrom d cur) sectorsToRead
    (firstSector * inp.sectorSize) (sectorsToRead * inp.sectorSize)
  pure (buf.window (marker % inp.sectorSize + grainMarkerSize) size)

/-- What `read_compressed_grain` decodes: the marker gives the length of the data, and an empty
grain is all zeros. The first sector is read again, to the same bytes. -/
def loadGrain (inp : Inputs) (d marker : Nat) : Fallible ReaderState (Method × Stream) := do
  let firstSector := marker / inp.sectorSize
  let markerOff := marker % inp.sectorSize
  let _ ← require (firstSector < (inp.device d).capacity)
  let sector ← ofOption (inp.readInputSector d firstSector)
  let _ ← require (markerOff + grainMarkerSize ≤ inp.sectorSize)
  let compressedSize := sector.le (markerOff + 8) 4
  if compressedSize = 0 then pure (.zlib, .empty)
  else do
    let bytes ← readGrainData inp d marker compressedSize
    pure (.zlib, .data bytes)

/-- The VMDK arm of `read_chain_virtual_cluster` for a chunk inside one grain. -/
def arm (codec : Codec) (inp : Inputs) (d : Nat)
    (below : Nat → Nat → Fallible ReaderState ByteMap) (off len : Nat) :
    Fallible ReaderState ByteMap := do
  match ← st.grainLookup inp d off with
  | .unallocated => below off len
  | .zeroed => pure fun _ => 0
  | .standard hostOffset =>
    let intra := off % st.grainSizeBytes
    let readSize := if len < st.grainSizeBytes - intra then len else st.grainSizeBytes - intra
    inp.readClusterSectors d (hostOffset + intra) readSize
  | .compressed marker =>
    readCompressedUnit codec st.grainSizeBytes (loadGrain inp d marker) off len

/-! ## What the image holds -/

/-- The grain table entry of a virtual offset, if a table covers it. -/
def gteAt (bytes : ByteMap) (x : Nat) : Option Nat :=
  let gdIndex := x / 512 / (st.numGtesPerGt * st.grainSizeSectors)
  let gtIndex := x / 512 / st.grainSizeSectors % st.numGtesPerGt
  let gdEntry := bytes.le (st.gdOffsetSectors * 512 + gdIndex * 4) 4
  if st.numGdEntries ≤ gdIndex then none
  else if gdEntry = 0 then none
  else some (bytes.le (gdEntry * 512 + gtIndex * 4) 4)

/-- What a lookup that reads its tables decides. -/
def verdict (bytes : ByteMap) (x : Nat) : GrainLookup :=
  match st.gteAt bytes x with
  | none => .unallocated
  | some gte => st.classifyGte gte

/-- What the compressed grain at a marker inflates to. -/
def inflated (codec : Codec) (bytes : ByteMap) (marker : Nat) : Option ByteMap :=
  let size := bytes.le (marker + 8) 4
  codec.expand st.grainSizeBytes
    (.zlib, if size = 0 then .empty else .data (bytes.window (marker + grainMarkerSize) size))

/-- What the image has of its own at the virtual offset `x`. -/
def held (codec : Codec) (inp : Inputs) (d x : Nat) : Contribution :=
  match st.verdict (inp.device d).bytes x with
  | .unallocated => .absent
  | .zeroed => .gives 0
  | .standard hostOffset => .gives ((inp.device d).bytes (hostOffset + x % st.grainSizeBytes))
  | .compressed marker =>
    match st.inflated codec (inp.device d).bytes marker with
    | some out => .gives (out (x % st.grainSizeBytes))
    | none => .refused

theorem grainSizeBytes_pos : 0 < st.grainSizeBytes := mul_pos st.grain_pos (by decide)

variable {st} {inp : Inputs} {I : ReaderState → Prop} {d off len : Nat} {codec : Codec}

theorem grainLookup_ensures (hI : Stable inp I) (off : Nat) :
    Ensures I (st.grainLookup inp d off) (fun v => v = st.verdict (inp.device d).bytes off) := by
  refine (ofOption fun _ h => checkedU64_eq h).bind fun sectorsPerGt hper => ?_
  rw [hper]
  unfold verdict gteAt
  refine .ite (fun h => .pure (by rw [if_pos h])) (fun h => ?_)
  rw [if_neg h]
  refine (ofOption fun _ h => checkedU64_eq h).bind fun gdByteOffset hgd => ?_
  refine (readLeCached_ensures hI d .first gdByteOffset 4).bind fun gdEntry hentry => ?_
  rw [hgd] at hentry
  rw [← hentry]
  refine .ite (fun h => .pure (by rw [if_pos h])) (fun h => ?_)
  rw [if_neg h]
  refine (ofOption fun _ h => checkedU64_eq h).bind fun gtByteOffset hgt => ?_
  refine (ofOption (Q := fun _ => True) fun _ _ => trivial).bind fun actualSize _ => ?_
  refine require.bind fun _ _ => ?_
  refine (readLeCached_ensures hI d .second gtByteOffset 4).bind fun gte hgte => .pure ?_
  rw [hgte, hgt]

/-- The places of one grain share their verdict. -/
theorem verdict_congr {bytes : ByteMap} {x y : Nat}
    (h : x / st.grainSizeBytes = y / st.grainSizeBytes) :
    st.verdict bytes x = st.verdict bytes y := by
  have hgrain : x / 512 / st.grainSizeSectors = y / 512 / st.grainSizeSectors := by
    rw [Nat.div_div_eq_div_mul, Nat.div_div_eq_div_mul, mul_comm 512]
    exact h
  have htable : x / 512 / (st.numGtesPerGt * st.grainSizeSectors) =
      y / 512 / (st.numGtesPerGt * st.grainSizeSectors) := by
    rw [mul_comm, ← Nat.div_div_eq_div_mul, ← Nat.div_div_eq_div_mul, hgrain]
  unfold verdict gteAt
  rw [hgrain, htable]

theorem readGrainData_ensures {σ : Type} {I : σ → Prop} (marker size : Nat) :
    Ensures I (readGrainData inp d marker size)
      (fun bytes => bytes = (inp.device d).bytes.window (marker + grainMarkerSize) size) := by
  refine require.bind fun _ _ => ?_
  refine require.bind fun _ _ => ?_
  refine require.bind fun _ _ => ?_
  refine (Inputs.wholeSectors_ensures d _ rfl).bind fun buf hbuf => .pure ?_
  have hpos := inp.sectorSize_pos
  have hoff := Nat.div_add_mod' marker inp.sectorSize
  -- the last sector read covers the end of the data
  have hroom : marker + (grainMarkerSize + size) ≤
      Qcow2.divCeil (marker + (grainMarkerSize + size)) inp.sectorSize * inp.sectorSize := by
    unfold Qcow2.divCeil
    have hceil := Nat.div_add_mod' (marker + (grainMarkerSize + size) + inp.sectorSize - 1)
      inp.sectorSize
    have hmod := Nat.mod_lt (marker + (grainMarkerSize + size) + inp.sectorSize - 1) hpos
    omega
  refine ByteMap.window_congr fun i hi => ?_
  have hbyte := hbuf (marker % inp.sectorSize + grainMarkerSize + i) (by
    rw [Nat.sub_mul]
    omega)
  rw [show marker / inp.sectorSize * inp.sectorSize +
    (marker % inp.sectorSize + grainMarkerSize + i)
    = marker + grainMarkerSize + i by omega] at hbyte
  exact (Option.some.inj hbyte).symm

theorem loadGrain_ensures (marker : Nat) : Ensures I (loadGrain inp d marker) (fun stream =>
    codec.expand st.grainSizeBytes stream = st.inflated codec (inp.device d).bytes marker) := by
  have hoff := Nat.div_add_mod' marker inp.sectorSize
  refine require.bind fun _ _ => ?_
  refine (ofOption fun _ h => inp.readInputSector_eq h).bind fun sector hsector => ?_
  refine require.bind fun _ _ => ?_
  have hsize : sector.le (marker % inp.sectorSize + 8) 4 =
      (inp.device d).bytes.le (marker + 8) 4 := by
    rw [hsector, ByteMap.le_drop, ← add_assoc, hoff]
  unfold inflated
  dsimp only
  rw [hsize]
  refine .ite (fun h => .pure (by rw [if_pos h])) (fun h => ?_)
  rw [if_neg h]
  refine (readGrainData_ensures marker _).bind fun bytes hbytes => .pure ?_
  rw [hbytes]

/-- What the VMDK arm asks of the staging buffer at `off`. -/
structure Staged (st : VmdkState) (codec : Codec) (inp : Inputs) (I : ReaderState → Prop)
    (d off : Nat) : Prop where
  inflates : ∀ marker, st.verdict (inp.device d).bytes off = .compressed marker →
    ∀ s stream, (loadGrain inp d marker s).1 = some stream →
    (codec.expand st.grainSizeBytes stream).isSome
  unit : ∀ marker, st.verdict (inp.device d).bytes off = .compressed marker →
    StagedUnit I st.grainSizeBytes (off - off % st.grainSizeBytes)
      (st.inflated codec (inp.device d).bytes marker)

/-- The VMDK arm has the content of the stack whose top layer the image is. -/
theorem arm_ensures {layers : List (Nat → Contribution)}
    {below : Nat → Nat → Fallible ReaderState ByteMap}
    (hI : Stable inp I) (hin : off % st.grainSizeBytes + len ≤ st.grainSizeBytes)
    (hbelow : Descends I (st.held codec inp d) (layered layers) below off (off + len))
    (hstaged : Staged st codec inp I d off) : Ensures I (st.arm codec inp d below off len)
      (Gives (layered (st.held codec inp d :: layers)) off len) := by
  have hmod := Nat.mod_lt off st.grainSizeBytes_pos
  refine (grainLookup_ensures hI off).bind fun v hv => ?_
  have hsame : ∀ k, off % st.grainSizeBytes + k < st.grainSizeBytes →
      st.verdict (inp.device d).bytes (off + k) = v := fun k hk => by
    rw [verdict_congr (same_unit hk).1, hv]
  have hplace : ∀ k, off % st.grainSizeBytes + k < st.grainSizeBytes →
      (off + k) % st.grainSizeBytes = off % st.grainSizeBytes + k := fun k hk => (same_unit hk).2
  cases v with
  | unallocated =>
    have habsent : Absent (st.held codec inp d) off len := fun x hx hx' => by
      have hverdict := hsame (x - off) (by omega)
      rw [Nat.add_sub_cancel' hx] at hverdict
      rw [held, hverdict]
    exact hbelow.whole habsent
  | zeroed => exact .pure (.of_gives fun i hi => by rw [held, hsame i (by omega)])
  | standard hostOffset =>
    have hsize : (if len < st.grainSizeBytes - off % st.grainSizeBytes then len
        else st.grainSizeBytes - off % st.grainSizeBytes) = len := by
      split <;> omega
    refine (Inputs.readClusterSectors_ensures d _ _).mono fun out hout => .of_gives fun i hi => ?_
    rw [hsize] at hout
    rw [held, hsame i (by omega)]
    simp only [hplace i (by omega), ← add_assoc]
    exact congrArg Contribution.gives (Option.some.inj (hout i hi))
  | compressed marker =>
    have hload : Ensures I (loadGrain inp d marker) (fun stream =>
        codec.expand st.grainSizeBytes stream = st.inflated codec (inp.device d).bytes marker ∧
        (st.inflated codec (inp.device d).bytes marker).isSome) := by
      refine ((loadGrain_ensures marker).and (hstaged.inflates marker hv.symm)).mono
        fun stream h => ⟨h.1, ?_⟩
      rw [← h.1]
      exact h.2
    refine (readCompressedUnit_ensures (hstaged.unit marker hv.symm) hload hin).mono
      fun out hout i hi => ?_
    have hbyte := hout i hi
    cases hout : st.inflated codec (inp.device d).bytes marker with
    | none => simp [unitByte, hout] at hbyte
    | some whole =>
      rw [layered_gives (b := whole ((off + i) % st.grainSizeBytes))]
      · rw [unitByte, hout, Option.map_some,
          show off + i - (off - off % st.grainSizeBytes) = off % st.grainSizeBytes + i by
            have := Nat.mod_le off st.grainSizeBytes
            omega] at hbyte
        rw [hplace i (by omega), hbyte]
      · rw [held, hsame i (by omega)]
        simp only [hout]

end VmdkState

end Instar.Read
