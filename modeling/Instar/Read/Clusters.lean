import Instar.Read.Qcow2

/-!
# Reading Parallels and qcow1 layers

Both arms walk a chunk one cluster at a time, and both read a host range that may run past the end
of the file, where the bytes are zeros.  An unallocated Parallels cluster reads as zeros at once; an
unallocated qcow1 cluster is left to the rest of the chain.  A compressed qcow1 cluster is inflated
into the staging buffer, which then belongs to nobody.
-/

namespace Instar.Read

open Fallible ByteMap Inputs

/-! ## Host ranges that may leave the file -/

/-- The bytes of a device up to its capacity, and zeros after it. -/
def Inputs.capped (inp : Inputs) (d : Nat) : ByteMap :=
  fun p => if p < inp.capBytes d then (inp.device d).bytes p else 0

/-- Read `span` bytes at `host`, filling with zeros what lies past the capacity.  A start inside a
sector goes through the scratch buffer. -/
def readHostSpan {σ : Type} (inp : Inputs) (d host span : Nat) : Fallible σ ByteMap :=
  if inp.capBytes d ≤ host then pure fun _ => 0
  else do
    let readLen := min span (inp.capBytes d - host)
    let bytes ← if host % inp.sectorSize = 0 then inp.readClusterSectors d host readLen
      else inp.readOffsetSectors d host readLen
    pure (bytes.append readLen fun _ => 0)

/-- The compressed bytes of a qcow1 cluster, zeros past the capacity. -/
def readCompressedSpan {σ : Type} (inp : Inputs) (d host size : Nat) : Fallible σ (List UInt8) :=
  if inp.capBytes d ≤ host then pure (window (fun _ => 0) 0 size)
  else
    let readLen := min size (inp.capBytes d - host)
    if readLen = 0 then pure (window (fun _ => 0) 0 size)
    else do
      let bytes ← inp.readClusterSectors d host readLen
      pure ((bytes.append readLen fun _ => 0).window 0 size)

variable {inp : Inputs} {bytes : ByteMap} {σ : Type} {k : Nat}

/-- A prefix of device bytes followed by zeros is what the capped device holds. -/
theorem capped_append {d host span : Nat} (hhost : host < inp.capBytes d)
    (h : Gives (inp.byteOf d) host (min span (inp.capBytes d - host)) bytes) (i : Nat)
    (hi : i < span) :
    bytes.append (min span (inp.capBytes d - host)) (fun _ => 0) i = inp.capped d (host + i) := by
  unfold append capped
  split
  next hin =>
    rw [if_pos (by omega)]
    exact (Option.some.inj (h i hin)).symm
  · rw [if_neg (by omega)]

theorem readHostSpan_ensures {I : σ → Prop} (d host span : Nat) :
    Ensures I (readHostSpan inp d host span) (fun out =>
      ∀ i < span, out i = inp.capped d (host + i)) := by
  refine .ite (fun h => .pure fun i _ => ?_) (fun h => ?_)
  · rw [capped, if_neg (by omega)]
  · have hhost : host < inp.capBytes d := by omega
    refine .ite (fun _ => ?_) (fun _ => ?_)
    · exact (readClusterSectors_ensures d host _).bind fun bytes hbytes =>
        .pure (capped_append hhost hbytes)
    · exact (readOffsetSectors_ensures d host _).bind fun bytes hbytes =>
        .pure (capped_append hhost hbytes)

theorem readCompressedSpan_ensures {I : σ → Prop} (d host size : Nat) :
    Ensures I (readCompressedSpan inp d host size)
      (fun bytes => bytes = (inp.capped d).window host size) := by
  refine .ite (fun h => .pure ?_) (fun h => .ite (fun hzero => .pure ?_) (fun _ => ?_))
  · refine window_congr fun i _ => ?_
    rw [capped, if_neg (by omega)]
  · refine window_congr fun i hi => ?_
    omega
  · refine (readClusterSectors_ensures d host _).bind fun bytes hbytes => .pure ?_
    refine window_congr fun i hi => ?_
    rw [zero_add]
    exact capped_append (by omega) hbytes i hi

/-- The bytes from `cur` to the end of its cluster, or as many as are left. -/
def toClusterEnd (clusterSize cur rest : Nat) : Nat := min rest (clusterSize - cur % clusterSize)

/-! ## Parallels -/

/-- The fields of a Parallels header that reads need. -/
structure ParallelsState where
  clusterSize : Nat
  cluster_pos : 0 < clusterSize
  batEntries : Nat
  offMultiplier : Nat

namespace ParallelsState

/-- `PARALLELS_MAGIC_V1`: "WithoutFreeSpace". -/
def magicV1 : List UInt8 :=
  [0x57, 0x69, 0x74, 0x68, 0x6F, 0x75, 0x74, 0x46, 0x72, 0x65, 0x65, 0x53, 0x70, 0x61, 0x63, 0x65]

/-- `PARALLELS_MAGIC_V2`: "WithouFreSpacExt". -/
def magicExt : List UInt8 :=
  [0x57, 0x69, 0x74, 0x68, 0x6F, 0x75, 0x46, 0x72, 0x65, 0x53, 0x70, 0x61, 0x63, 0x45, 0x78, 0x74]

/-- `ParallelsState::init`, with the header parser. -/
def init (inp : Inputs) (d : Nat) : Fallible ReaderState ParallelsState := do
  let sector ← ofOption (inp.readInputSector d 0)
  let header := splice (fun _ => 0) 0 inp.sectorSize sector
  let isV1 : Bool := header.window 0 16 = magicV1
  let _ ← require (isV1 = true ∨ header.window 0 16 = magicExt)
  let _ ← require (header.le 16 4 = 2)
  let tracks := header.le 28 4
  let hpos ← require (0 < tracks)
  let _ ← require (tracks ≤ 4186127)
  let batEntries := header.le 32 4
  let _ ← require (batEntries ≤ 0x3fffffff)
  let _ ← require (header.le 56 8 = 0)
  let nbSectors := if isV1 then header.le 36 8 % 2 ^ 32 else header.le 36 8
  let _ ← ofOption (checkedU64 (nbSectors * 512))
  let _ ← ofOption (checkedU64 (64 + batEntries * 4 + (inp.sectorSize - 1)))
  pure {
    clusterSize := tracks * 512
    cluster_pos := mul_pos hpos.down (by decide)
    batEntries
    -- a BAT value counts sectors under the first magic and clusters under the second
    offMultiplier := if isV1 then 1 else tracks }

variable (st : ParallelsState)

/-- `block_lookup`: the host offset of an allocated cluster, moved to the offset asked for. -/
def blockLookup (inp : Inputs) (d off : Nat) : Fallible ReaderState (Option Nat) :=
  let clusterIdx := off / st.clusterSize
  if st.batEntries ≤ clusterIdx then pure none
  else do
    let entryOffset ← ofOption (checkedU64 (64 + clusterIdx * 4))
    let entry ← readLeCached inp d .first entryOffset 4
    if entry = 0 then pure none
    else do
      let host ← ofOption (checkedU64 (entry * st.offMultiplier * 512 + off % st.clusterSize))
      pure (some host)

/-- One cluster of the Parallels arm: what is not allocated reads as zeros. -/
def readSpan (inp : Inputs) (d cur span : Nat) : Fallible ReaderState ByteMap := do
  match ← st.blockLookup inp d cur with
  | none => pure fun _ => 0
  | some host => readHostSpan inp d host span

/-- The Parallels arm of `read_chain_virtual_cluster`. -/
def arm (inp : Inputs) (d off len : Nat) : Fallible ReaderState ByteMap :=
  pieces (toClusterEnd st.clusterSize) (fun cur span => st.readSpan inp d cur span) len off len

/-- The host offset of a virtual offset, by the BAT alone. -/
def hostAt (bytes : ByteMap) (x : Nat) : Option Nat :=
  let entry := bytes.le (64 + x / st.clusterSize * 4) 4
  if st.batEntries ≤ x / st.clusterSize then none
  else if entry = 0 then none
  else some (entry * st.offMultiplier * 512 + x % st.clusterSize)

/-- What the image has of its own at the virtual offset `x`. -/
def held (inp : Inputs) (d x : Nat) : Contribution :=
  match st.hostAt (inp.device d).bytes x with
  | none => .absent
  | some host => .gives (inp.capped d host)

variable {st} {I : ReaderState → Prop} {d off len : Nat}

theorem blockLookup_ensures (hI : Stable inp I) (off : Nat) :
    Ensures I (st.blockLookup inp d off) (fun host =>
      host = st.hostAt (inp.device d).bytes off) := by
  unfold blockLookup hostAt
  refine .ite (fun h => .pure (by rw [if_pos h])) (fun h => ?_)
  rw [if_neg h]
  refine (Ensures.ofOption fun _ h => checkedU64_eq h).bind fun entryOffset hoff => ?_
  refine (readLeCached_ensures hI d .first entryOffset 4).bind fun entry hentry => ?_
  rw [hoff] at hentry
  rw [← hentry]
  refine .ite (fun h => .pure (by rw [if_pos h])) (fun h => ?_)
  rw [if_neg h]
  refine (Ensures.ofOption fun _ h => checkedU64_eq h).bind fun host hhost => .pure ?_
  rw [hhost]

/-- Host offsets go on through a cluster. -/
theorem hostAt_add (hk : off % st.clusterSize + k < st.clusterSize) :
    st.hostAt bytes (off + k) = (st.hostAt bytes off).map (· + k) := by
  obtain ⟨hdiv, hmod⟩ := same_unit hk
  unfold hostAt
  dsimp only
  rw [hdiv, hmod]
  split
  · rfl
  · split
    · rfl
    · simp only [Option.map_some, add_assoc]

/-- The Parallels arm has the content of the image with nothing below it. -/
theorem arm_ensures (hI : Stable inp I) :
    Ensures I (st.arm inp d off len) (Gives (layered [st.held inp d]) off len) := by
  refine pieces_ensures (fun cur rest _ => min_le_left _ _) (fun cur rest _ _ hrest =>
    ?_) len le_rfl le_rfl
  refine (blockLookup_ensures hI cur).bind fun host hhost => ?_
  have hplace : ∀ k < toClusterEnd st.clusterSize cur rest,
      st.hostAt (inp.device d).bytes (cur + k) = host.map (· + k) := fun k hk => by
    unfold toClusterEnd at hk
    rw [hostAt_add (by omega), ← hhost]
  cases host with
  | none =>
    refine .pure fun i hi => ?_
    rw [layered_absent (by rw [held, hplace i hi]; rfl)]
    rfl
  | some host =>
    refine (readHostSpan_ensures d host _).mono fun out hout => .of_gives fun i hi => ?_
    rw [held, hplace i hi, hout i hi]
    rfl

end ParallelsState

/-! ## qcow1 -/

/-- The fields of a qcow1 header that reads need. -/
structure Qcow1State where
  clusterBits : Nat
  l2Bits : Nat
  l1Size : Nat
  l1TableOffset : Nat

/-- The outcome of looking up a virtual offset. -/
inductive Qcow1BlockLookup where
  | unallocated
  | allocated (hostByteOffset : Nat)
  | compressed (hostOffset csize : Nat)
deriving DecidableEq, Repr

namespace Qcow1State

/-- `Qcow1State::init`, with the header parser and the L1 size it derives. -/
def init (inp : Inputs) (d : Nat) : Fallible ReaderState Qcow1State := do
  let sector ← ofOption (inp.readInputSector d 0)
  let header := splice (fun _ => 0) 0 inp.sectorSize sector
  let _ ← require (header.be 0 4 = 0x514649fb)
  let _ ← require (header.be 4 4 = 1)
  let size := header.be 24 8
  let _ ← require (1 < size)
  let clusterBits := (header 32).toNat
  let _ ← require (9 ≤ clusterBits ∧ clusterBits ≤ 16)
  let l2Bits := (header 33).toNat
  let _ ← require (6 ≤ l2Bits ∧ l2Bits ≤ 13)
  let cryptMethod := header.be 36 4
  let _ ← require (cryptMethod ≤ 1)
  let _ ← require (header.be 16 4 ≤ 1023)
  let span := 2 ^ (clusterBits + l2Bits)
  let _ ← require (size ≤ 2 ^ 64 - 1 - span)
  let l1Size := (size + (span - 1)) / span
  let _ ← require (l1Size ≤ (2 ^ 31 - 1) / 8)
  let _ ← require (cryptMethod = 0)
  let l1TableOffset := header.be 40 8
  let _ ← ofOption (checkedU64 (l1TableOffset + l1Size * 8 + (inp.sectorSize - 1)))
  pure { clusterBits, l2Bits, l1Size, l1TableOffset }

variable (st : Qcow1State)

def clusterSize : Nat := 2 ^ st.clusterBits

def l2Size : Nat := 2 ^ st.l2Bits

/-- How an L2 entry is read for an offset in its cluster. -/
def classifyEntry (entry inCluster : Nat) : Qcow1BlockLookup :=
  if entry = 0 then .unallocated
  else if entry &&& 2 ^ 63 ≠ 0 then
    .compressed (entry &&& (2 ^ (63 - st.clusterBits) - 1))
      (entry >>> (63 - st.clusterBits) &&& (st.clusterSize - 1))
  else .allocated (entry + inCluster)

/-- A host offset must be a `u64`. -/
def checkHost : Qcow1BlockLookup → Option Qcow1BlockLookup
  | .allocated host => (checkedU64 host).map .allocated
  | v => some v

/-- `Qcow1State::block_lookup`. -/
def blockLookup (inp : Inputs) (d off : Nat) : Fallible ReaderState Qcow1BlockLookup :=
  let l1Index := off / 2 ^ (st.l2Bits + st.clusterBits)
  if st.l1Size ≤ l1Index then pure .unallocated
  else do
    let l1EntryOffset ← ofOption (checkedU64 (st.l1TableOffset + l1Index * 8))
    let l2TableOffset ← readBeCached inp d .first l1EntryOffset 8
    if l2TableOffset = 0 then pure .unallocated
    else do
      let l2Index := off / st.clusterSize % st.l2Size
      let l2EntryOffset ← ofOption (checkedU64 (l2TableOffset + l2Index * 8))
      let entry ← readBeCached inp d .second l2EntryOffset 8
      ofOption (checkHost (st.classifyEntry entry (off % st.clusterSize)))

/-- Inflate a cluster into the staging buffer, which is left without a tag whatever happens. -/
def inflateCluster (codec : Codec) (bytes : List UInt8) : Fallible ReaderState Unit :=
  fun s =>
    let (result, s') := codec.inflateStaging st.clusterSize (.deflate, .data bytes) s
    (result, { s' with stagingClusterOffset := none })

section

variable (codec : Codec) (inp : Inputs) (d : Nat) (below : Nat → Nat → Fallible ReaderState ByteMap)

/-- One cluster of the qcow1 arm. -/
def readSpan (cur span : Nat) :
    Fallible ReaderState ByteMap := do
  match ← st.blockLookup inp d cur with
  | .unallocated => below cur span
  | .allocated host => readHostSpan inp d host span
  | .compressed host csize => do
      let bytes ← readCompressedSpan inp d host csize
      st.inflateCluster codec bytes
      fromStaging (cur % st.clusterSize)

/-- The qcow1 arm of `read_chain_virtual_cluster`. -/
def arm (off len : Nat) :
    Fallible ReaderState ByteMap :=
  pieces (toClusterEnd st.clusterSize) (fun cur span =>
    st.readSpan codec inp d below cur span) len off len

end

/-- The L2 entry of a virtual offset; zero where no table covers it. -/
def entryAt (bytes : ByteMap) (x : Nat) : Nat :=
  let l1Index := x / 2 ^ (st.l2Bits + st.clusterBits)
  let table := bytes.be (st.l1TableOffset + l1Index * 8) 8
  if st.l1Size ≤ l1Index then 0
  else if table = 0 then 0
  else bytes.be (table + x / st.clusterSize % st.l2Size * 8) 8

/-- What a lookup says of a place of its cluster: `inCluster` is the place, and `k` how far it is
from the offset that was looked up. -/
def heldAs (codec : Codec) (inp : Inputs) (d inCluster k : Nat) : Qcow1BlockLookup → Contribution
  | .unallocated => .absent
  | .allocated host => .gives (inp.capped d (host + k))
  | .compressed host csize =>
    match codec.inflate .deflate ((inp.capped d).window host csize) st.clusterSize with
    | some out => .gives (out inCluster)
    | none => .refused

/-- What the image has of its own at the virtual offset `x`. -/
def held (codec : Codec) (inp : Inputs) (d x : Nat) : Contribution :=
  st.heldAs codec inp d (x % st.clusterSize) 0
    (st.classifyEntry (st.entryAt (inp.device d).bytes x) (x % st.clusterSize))

theorem clusterSize_pos : 0 < st.clusterSize := Nat.two_pow_pos _

variable {st} {codec : Codec} {I : ReaderState → Prop} {d off len : Nat}
  {below : Nat → Nat → Fallible ReaderState ByteMap} {layers : List (Nat → Contribution)}

theorem checkHost_eq {v w : Qcow1BlockLookup} (h : checkHost v = some w) : w = v := by
  cases v with
  | unallocated | compressed host csize => exact (Option.some.inj h).symm
  | allocated host =>
    obtain ⟨host', hhost, rfl⟩ := Option.map_eq_some_iff.mp h
    rw [checkedU64_eq hhost]

theorem blockLookup_ensures (hI : Stable inp I) (off : Nat) :
    Ensures I (st.blockLookup inp d off) (fun v =>
      v = st.classifyEntry (st.entryAt (inp.device d).bytes off) (off % st.clusterSize)) := by
  unfold blockLookup entryAt
  refine .ite (fun h => .pure (by rw [if_pos h]; rfl)) (fun h => ?_)
  rw [if_neg h]
  refine (Ensures.ofOption fun _ h => checkedU64_eq h).bind fun l1EntryOffset hl1 => ?_
  refine (readBeCached_ensures hI d .first l1EntryOffset 8).bind fun table htable => ?_
  rw [hl1] at htable
  rw [← htable]
  refine .ite (fun h => .pure (by rw [if_pos h]; rfl)) (fun h => ?_)
  rw [if_neg h]
  refine (Ensures.ofOption fun _ h => checkedU64_eq h).bind fun l2EntryOffset hl2 => ?_
  refine (readBeCached_ensures hI d .second l2EntryOffset 8).bind fun entry hentry => ?_
  rw [hentry, hl2]
  exact .ofOption fun _ h => checkHost_eq h

theorem entryAt_congr {x y : Nat} (h : x / st.clusterSize = y / st.clusterSize) :
    st.entryAt bytes x = st.entryAt bytes y := by
  have hpow : 2 ^ (st.l2Bits + st.clusterBits) = st.clusterSize * st.l2Size := by
    rw [Nat.pow_add, mul_comm]
    rfl
  unfold entryAt
  rw [hpow, ← Nat.div_div_eq_div_mul, ← Nat.div_div_eq_div_mul, h]

/-- What the rest of a cluster holds follows from the lookup of one of its places. -/
theorem held_of_lookup (hk : off % st.clusterSize + k < st.clusterSize) :
    st.held codec inp d (off + k) = st.heldAs codec inp d (off % st.clusterSize + k) k
      (st.classifyEntry (st.entryAt (inp.device d).bytes off) (off % st.clusterSize)) := by
  obtain ⟨hdiv, hmod⟩ := same_unit hk
  unfold held
  rw [entryAt_congr hdiv, hmod]
  unfold classifyEntry
  split_ifs
  · rfl
  · rfl
  · simp only [heldAs, add_assoc, add_zero]

/-- The invariants the qcow1 arm can work under: an untagged staging buffer may hold anything. -/
def Untags (I : ReaderState → Prop) : Prop :=
  ∀ s staging, I s → I { s with staging, stagingClusterOffset := none }

theorem inflateCluster_holds (hU : Untags I) (bytes : List UInt8) (s : ReaderState) (hs : I s) :
    I (st.inflateCluster codec bytes s).2 ∧ ∀ a, (st.inflateCluster codec bytes s).1 = some a →
      Holds (st.inflateCluster codec bytes s).2 st.clusterSize
        (codec.inflate .deflate bytes st.clusterSize) := by
  have hexpand : codec.expand st.clusterSize (.deflate, .data bytes) =
      codec.inflate .deflate bytes st.clusterSize := rfl
  unfold inflateCluster Codec.inflateStaging
  rw [hexpand]
  cases hout : codec.inflate .deflate bytes st.clusterSize with
  | none => exact ⟨hU s _ hs, fun _ h => nomatch h⟩
  | some out =>
    refine ⟨hU s _ hs, fun _ _ i hi => ?_⟩
    show some (out i) = some (s.staging.splice 0 st.clusterSize out i)
    rw [splice_mem (Nat.zero_le i) (by omega), Nat.sub_zero]

/-- One cluster of the arm has the content of the stack. -/
theorem readSpan_ensures {cur span : Nat} (hI : Stable inp I) (hU : Untags I)
    (hpos : 0 < span) (hin : cur % st.clusterSize + span ≤ st.clusterSize)
    (hbelow : Descends I (st.held codec inp d) (layered layers) below cur (cur + span)) :
    Ensures I (st.readSpan codec inp d below cur span)
      (Gives (layered (st.held codec inp d :: layers)) cur span) := by
  refine (blockLookup_ensures hI cur).bind fun v hv => ?_
  have hheld : ∀ k < span, st.held codec inp d (cur + k) =
      st.heldAs codec inp d (cur % st.clusterSize + k) k v := fun k hk => by
    rw [held_of_lookup (by omega), ← hv]
  cases v with
  | unallocated =>
    have habsent : Absent (st.held codec inp d) cur span := fun x hx hx' => by
      have hk := hheld (x - cur) (by omega)
      rwa [Nat.add_sub_cancel' hx] at hk
    exact hbelow.whole habsent
  | allocated host =>
    refine (readHostSpan_ensures d host span).mono fun out hout => .of_gives fun i hi => ?_
    rw [hheld i hi, hout i hi]
    rfl
  | compressed host csize =>
    refine (readCompressedSpan_ensures d host csize).bind fun bytes hbytes => ?_
    refine .bind_state (J := fun _ s => Holds s st.clusterSize
        (codec.inflate .deflate bytes st.clusterSize)) (inflateCluster_holds hU bytes)
      fun _ s hs hholds => ⟨hs, fun out hout => .of_gives fun i hi => ?_⟩
    cases hout
    have hbyte := hholds (cur % st.clusterSize + i) (by omega)
    rw [hbytes] at hbyte
    rw [hheld i hi]
    cases hwhole : codec.inflate .deflate ((inp.capped d).window host csize) st.clusterSize with
    | none => simp [hwhole] at hbyte
    | some whole =>
      rw [hwhole, Option.map_some] at hbyte
      simp only [heldAs, hwhole, Option.some.inj hbyte, drop_apply]

/-- The qcow1 arm has the content of the stack whose top layer the image is. -/
theorem arm_ensures (hI : Stable inp I) (hU : Untags I)
    (hbelow : Descends I (st.held codec inp d) (layered layers) below off (off + len)) :
    Ensures I (st.arm codec inp d below off len)
      (Gives (layered (st.held codec inp d :: layers)) off len) := by
  refine pieces_ensures (fun cur rest _ => min_le_left _ _) (fun cur rest hlo hhi hrest => ?_) len
    le_rfl le_rfl
  have hmod := Nat.mod_lt cur st.clusterSize_pos
  have hpos : 0 < toClusterEnd st.clusterSize cur rest := Nat.lt_min.mpr ⟨hrest, by omega⟩
  exact readSpan_ensures hI hU hpos (by omega) (hbelow.mono hlo (by omega) (by omega))

end Qcow1State

end Instar.Read
