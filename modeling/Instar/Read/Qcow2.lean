import Instar.Lib.Layers
import Instar.Qcow2.Subclusters
import Instar.Read.Staging

/-!
# Reading a qcow2 layer

The state the chain reader keeps of a qcow2 device, the two-level lookup of a virtual offset, and
the qcow2 arm of `read_chain_virtual_cluster` for a chunk inside one cluster.

`Qcow2State.held` says byte by byte what the image has of its own, and `qcow2Arm_ensures` that the
arm returns the content of the stack whose top layer it is.
-/

namespace Instar.Read

open Fallible Qcow2 Ensures

/-- `u64` arithmetic that is refused when it overflows. -/
def checkedU64 (n : Nat) : Option Nat := if n < 2 ^ 64 then some n else none

theorem checkedU64_of_lt {n : Nat} (h : n < 2 ^ 64) : checkedU64 n = some n := if_pos h

theorem checkedU64_eq {n v : Nat} (h : checkedU64 n = some v) : v = n := by
  unfold checkedU64 at h
  split at h
  · exact (Option.some.inj h).symm
  · cases h

/-- Forget the cached sectors of a device. -/
def dropCaches (d : Nat) : Fallible ReaderState Unit :=
  fun s => (some (), { s with
    cache := fun d' slot => if d' = d then ⟨none, (s.cache d' slot).bytes⟩ else s.cache d' slot })

/-- The fields of a qcow2 header that reads need. -/
structure Qcow2State where
  clusterBits : Nat
  bits_ge : 9 ≤ clusterBits
  bits_le : clusterBits ≤ 21
  l1Size : Nat
  l1TableOffset : Nat
  cryptMethod : Nat
  incompatibleFeatures : Nat
  compressionType : Nat
  extendedL2 : Bool
deriving DecidableEq

/-- The outcome of looking up a virtual offset. -/
inductive ClusterLookup where
  | unallocated
  | zero
  | standardSubclusters (l2Entry bitmap : Nat)
  | standard (hostOffset : Nat)
  | compressed (l2Entry : Nat)
  | invalid
  | dataFileRefused (violation : DataFileEntryViolation)
deriving DecidableEq, Repr

namespace Qcow2State

/-- `Qcow2State::init`. The scan for a LUKS header extension cannot refuse the image once the header
length is read, and serves decryption only. -/
def init (inp : Inputs) (d : Nat) : Fallible ReaderState Qcow2State := do
  let version ← readBeCached inp d .first 4 4
  let _ ← require (version = 2 ∨ version = 3)
  let clusterBits ← readBeCached inp d .first 20 4
  let bits ← require (9 ≤ clusterBits ∧ clusterBits ≤ 21)
  let _ ← require (2 ^ clusterBits ≤ maxClusterSize)
  let _virtualSize ← readBeCached inp d .first 24 8
  let cryptMethod ← readBeCached inp d .first 32 4
  let incompatibleFeatures ← readBeWhen inp (3 ≤ version) d .first 72 8
  let compressionWord ← readBeWhen inp (3 ≤ version) d .first 104 4
  let _headerLength ← readBeWhen inp (3 ≤ version ∧ cryptMethod = 2) d .first 100 4
  let l1Size ← readBeCached inp d .first 36 4
  let l1TableOffset ← readBeCached inp d .first 40 8
  let _ ← require (l1TableOffset ≠ 0 ∧ l1TableOffset < inp.capBytes d)
  let l1TableEnd ← ofOption (checkedU64 (l1TableOffset + l1Size * 8))
  let _ ← require (l1TableEnd ≤ inp.capBytes d)
  dropCaches d
  pure {
    clusterBits
    bits_ge := bits.down.1
    bits_le := bits.down.2
    l1Size
    l1TableOffset
    cryptMethod
    incompatibleFeatures
    -- the byte at offset 104
    compressionType := compressionWord / 2 ^ 24
    extendedL2 := incompatibleFeatures &&& incompatExtendedL2 ≠ 0 }

variable (st : Qcow2State)

def clusterSize : Nat := 2 ^ st.clusterBits

def hasDataFile : Bool := st.incompatibleFeatures &&& incompatExternalData ≠ 0

def entrySize : Nat := if st.extendedL2 then 16 else 8

def entriesPerL2 : Nat := st.clusterSize / st.entrySize

def subclusterSize : Nat := st.clusterSize / subclustersPerCluster st.extendedL2

/-- `classify_l2_entry`. -/
def classifyL2Entry (l2Entry bitmap guestClusterOffset : Nat) : ClusterLookup :=
  let range := subclusterRange l2Entry bitmap 0 st.extendedL2 st.hasDataFile
  match dataFileEntryViolation l2Entry bitmap st.extendedL2 st.hasDataFile guestClusterOffset with
  | some violation => .dataFileRefused violation
  | none =>
    match range.1 with
    | .invalid => .invalid
    | .compressed => .compressed l2Entry
    | .normal =>
      if range.2 < subclustersPerCluster st.extendedL2 then .standardSubclusters l2Entry bitmap
      else .standard (hostOf l2Entry)
    | .zeroPlain | .zeroAlloc =>
      if range.2 < subclustersPerCluster st.extendedL2 then .standardSubclusters l2Entry bitmap
      else .zero
    | .unallocatedPlain | .unallocatedAlloc =>
      if range.2 < subclustersPerCluster st.extendedL2 then .standardSubclusters l2Entry bitmap
      else .unallocated

/-- `Qcow2State::cluster_lookup`. -/
def clusterLookup (inp : Inputs) (d off : Nat) : Fallible ReaderState ClusterLookup :=
  let l1Index := off / (st.clusterSize * st.entriesPerL2)
  let l2Index := off / st.clusterSize % st.entriesPerL2
  if st.l1Size ≤ l1Index then pure .unallocated
  else do
    let l1ByteOffset ← ofOption (checkedU64 (st.l1TableOffset + l1Index * 8))
    let l1Entry ← readBeCached inp d .first l1ByteOffset 8
    if hostOf l1Entry = 0 then pure .unallocated
    else do
      let actualSize ← ofOption (checkedU64 ((inp.device d).capacity * inp.sectorSize))
      let _ ← require (hostOf l1Entry < actualSize)
      let l2ByteOffset ← ofOption (checkedU64 (hostOf l1Entry + l2Index * st.entrySize))
      let l2Entry ← readBeCached inp d .second l2ByteOffset 8
      let bitmap ← readBeWhen inp (st.extendedL2 = true) d .second (l2ByteOffset + 8) 8
      pure (st.classifyL2Entry l2Entry bitmap (off - off % st.clusterSize))

/-- `data_read_device`: where the host offsets of the image point; `dataDevice` is 0 when no data
device is attached. -/
def dataReadDevice (d dataDevice : Nat) : Option Nat :=
  if st.hasDataFile = false then some d
  else if dataDevice = 0 then none
  else some dataDevice

/-- `read_compressed_data`: the compressed bytes an L2 entry names. -/
def readCompressedData {σ : Type} (inp : Inputs) (d l2Entry : Nat) : Fallible σ (List UInt8) := do
  let extent ← ofOption (parseCompressedL2Entry l2Entry st.clusterBits)
  let _ ← require (extent.2 ≤ compressedBufSize)
  let dataEnd ← ofOption (checkedU64 (extent.1 + extent.2))
  let _ ← require (dataEnd ≤ inp.capBytes d)
  let firstSector := extent.1 / inp.sectorSize
  let sectorsToRead := divCeil dataEnd inp.sectorSize - firstSector
  let _ ← require (sectorsToRead * inp.sectorSize ≤ compressedBufSize)
  let buf ← pieces (fun _ _ => inp.sectorSize) (fun cur _ => inp.sectorFrom d cur) sectorsToRead
    (firstSector * inp.sectorSize) (sectorsToRead * inp.sectorSize)
  let startWithinBuf := extent.1 % inp.sectorSize
  let _ ← require (startWithinBuf + extent.2 ≤ sectorsToRead * inp.sectorSize)
  pure (buf.window startWithinBuf extent.2)

/-- The decoder the compression type of the header selects. -/
def method : Option Method :=
  if st.compressionType = 1 then some .zstd
  else if st.compressionType = 0 then some .zlib
  else none

/-- What `read_compressed_cluster` and its zstd sibling decode. -/
def loadCompressed (inp : Inputs) (d l2Entry : Nat) : Fallible ReaderState (Method × Stream) := do
  let method ← ofOption st.method
  let bytes ← st.readCompressedData inp d l2Entry
  pure (method, .data bytes)

/-- `subclusters_include_normal`, over the subclusters `[scFrom, scTo)`. -/
def subclustersIncludeNormal (l2Entry bitmap : Nat) (hasDataFile : Bool) (scTo : Nat) :
    Nat → Nat → Bool
  | 0, _ => false
  | fuel + 1, sc =>
    if scTo ≤ sc then false
    else
      let range := subclusterRange l2Entry bitmap sc true hasDataFile
      if range.2 = 0 then false
      else if range.1 = .normal then true
      else subclustersIncludeNormal l2Entry bitmap hasDataFile scTo fuel (sc + range.2)

/-- The end of the run at `pos`, clipped to the chunk, less `pos`. -/
def runLength (l2Entry bitmap pos rest : Nat) : Nat :=
  let sc := pos / st.subclusterSize
  let run := (subclusterRange l2Entry bitmap sc true st.hasDataFile).2
  min ((sc + run) * st.subclusterSize) (pos + rest) - pos

/-- The bytes the wide path has read before it looks at the runs: the whole chunk, if a run in it is
of type `Normal`. -/
def readWideChunk (inp : Inputs) (d dataDevice l2Entry bitmap intra readSize : Nat) :
    Fallible ReaderState ByteMap :=
  if st.subclusterSize < inp.sectorSize ∧ subclustersIncludeNormal l2Entry bitmap st.hasDataFile
        (divCeil (intra + readSize) st.subclusterSize) 33 (intra / st.subclusterSize) = true then do
    let readDev ← ofOption (st.dataReadDevice d dataDevice)
    inp.readClusterSectors readDev (hostOf l2Entry + intra) readSize
  else pure fun _ => 0

section

variable (inp : Inputs) (d dataDevice : Nat) (below : Nat → Nat → Fallible ReaderState ByteMap)

/-- One run of subclusters of one type; `pos` is a position in the cluster, as in the source. -/
def readRun (chunk : ByteMap) (l2Entry bitmap off pos n : Nat) : Fallible ReaderState ByteMap :=
  let intra := off % st.clusterSize
  if n = 0 then fail
  else
    match (subclusterRange l2Entry bitmap (pos / st.subclusterSize) true st.hasDataFile).1 with
    | .normal =>
      if st.subclusterSize < inp.sectorSize then pure (chunk.drop (pos - intra))
      else do
        let readDev ← ofOption (st.dataReadDevice d dataDevice)
        inp.readClusterSectors readDev (hostOf l2Entry + pos) n
    | .zeroAlloc | .zeroPlain => pure fun _ => 0
    | .unallocatedAlloc | .unallocatedPlain => below (off + (pos - intra)) n
    | .compressed | .invalid => fail

/-- The arm for an entry whose subclusters differ in type. A sector larger than a subcluster is read
for the whole chunk, and the runs that are not `Normal` then replace their part. -/
def readSubclusters (l2Entry bitmap off len : Nat) :
    Fallible ReaderState ByteMap := do
  let intra := off % st.clusterSize
  let readSize := if len < st.clusterSize then len else st.clusterSize
  let chunk ← st.readWideChunk inp d dataDevice l2Entry bitmap intra readSize
  pieces (st.runLength l2Entry bitmap)
    (fun pos n => st.readRun inp d dataDevice below chunk l2Entry bitmap off pos n)
    readSize intra readSize

end

/-- The qcow2 arm of `read_chain_virtual_cluster` for a chunk inside one cluster; `below` reads the
rest of the chain. -/
def arm (codec : Codec) (inp : Inputs) (d dataDevice : Nat)
    (below : Nat → Nat → Fallible ReaderState ByteMap) (off len : Nat) :
    Fallible ReaderState ByteMap := do
  match ← st.clusterLookup inp d off with
  | .unallocated => below off len
  | .zero => pure fun _ => 0
  | .standardSubclusters l2Entry bitmap =>
    st.readSubclusters inp d dataDevice below l2Entry bitmap off len
  | .standard hostOffset => do
      let readSize := if len < st.clusterSize then len else st.clusterSize
      let readDev ← ofOption (st.dataReadDevice d dataDevice)
      inp.readClusterSectors readDev (hostOffset + off % st.clusterSize) readSize
  | .compressed l2Entry =>
    readCompressedUnit codec st.clusterSize (st.loadCompressed inp d l2Entry) off len
  | .invalid => fail
  | .dataFileRefused _ => fail

/-! ## What the image holds -/

/-- The L2 entry of a virtual offset and its subcluster bitmap, if a table covers it. -/
def entryAt (bytes : ByteMap) (x : Nat) : Option (Nat × Nat) :=
  let l1Index := x / (st.clusterSize * st.entriesPerL2)
  let l2Index := x / st.clusterSize % st.entriesPerL2
  let table := hostOf (bytes.be (st.l1TableOffset + l1Index * 8) 8)
  if st.l1Size ≤ l1Index then none
  else if table = 0 then none
  else some (bytes.be (table + l2Index * st.entrySize) 8,
    if st.extendedL2 then bytes.be (table + l2Index * st.entrySize + 8) 8 else 0)

/-- What a lookup that reads its tables decides. -/
def verdict (bytes : ByteMap) (x : Nat) : ClusterLookup :=
  match st.entryAt bytes x with
  | none => .unallocated
  | some entry => st.classifyL2Entry entry.1 entry.2 (x - x % st.clusterSize)

section

variable (codec : Codec)

/-- What the compressed cluster of an L2 entry inflates to. -/
def inflated (bytes : ByteMap) (l2Entry : Nat) : Option ByteMap :=
  match st.method, parseCompressedL2Entry l2Entry st.clusterBits with
  | some method, some extent =>
    codec.expand st.clusterSize (method, .data (bytes.window extent.1 extent.2))
  | _, _ => none

/-- What a subcluster of the given type has at the virtual offset `x`. -/
def heldAs (inp : Inputs) (d dataDevice l2Entry x : Nat) :
    SubclusterType → Contribution
  | .unallocatedPlain | .unallocatedAlloc => .absent
  | .zeroPlain | .zeroAlloc => .gives 0
  | .normal =>
    match st.dataReadDevice d dataDevice with
    | some readDev => .gives ((inp.device readDev).bytes (hostOf l2Entry + x % st.clusterSize))
    | none => .refused
  | .compressed =>
    match st.inflated codec (inp.device d).bytes l2Entry with
    | some out => .gives (out (x % st.clusterSize))
    | none => .refused
  | .invalid => .refused

/-- What an L2 entry gives at the virtual offset `x`. -/
def heldBy (inp : Inputs) (d dataDevice l2Entry bitmap x : Nat) : Contribution :=
  match dataFileEntryViolation l2Entry bitmap st.extendedL2 st.hasDataFile
    (x - x % st.clusterSize) with
  | some _ => .refused
  | none =>
    st.heldAs codec inp d dataDevice l2Entry x
      (subclusterType l2Entry bitmap (x % st.clusterSize / st.subclusterSize) st.extendedL2
        st.hasDataFile)

/-- What the image has of its own at the virtual offset `x`. -/
def held (inp : Inputs) (d dataDevice x : Nat) : Contribution :=
  match st.entryAt (inp.device d).bytes x with
  | none => .absent
  | some entry => st.heldBy codec inp d dataDevice entry.1 entry.2 x

end

/-! ## Sizes -/

variable {l2Entry bitmap pos : Nat} {below : Nat → Nat → Fallible ReaderState ByteMap}

theorem clusterSize_pos : 0 < st.clusterSize := Nat.two_pow_pos _

theorem subclusters_mul :
    subclustersPerCluster st.extendedL2 * st.subclusterSize = st.clusterSize := by
  refine Nat.mul_div_cancel' ?_
  cases st.extendedL2 with
  | false => exact one_dvd _
  | true => exact pow_dvd_pow 2 (show 5 ≤ st.clusterBits from le_trans (by decide) st.bits_ge)

theorem subclusterSize_pos : 0 < st.subclusterSize := by
  have hmul := st.subclusters_mul
  have hpos := st.clusterSize_pos
  apply pos_of_ne_zero
  intro h
  rw [h, mul_zero] at hmul
  omega

/-- A place of the cluster lies in one of its subclusters. -/
theorem subcluster_lt (h : pos < st.clusterSize) :
    pos / st.subclusterSize < subclustersPerCluster st.extendedL2 := by
  rw [Nat.div_lt_iff_lt_mul st.subclusterSize_pos, st.subclusters_mul]
  exact h

/-! ## The lookup -/

variable {st} {inp : Inputs} {I : ReaderState → Prop} {d : Nat}

theorem clusterLookup_ensures (hI : Stable inp I) (off : Nat) :
    Ensures I (st.clusterLookup inp d off) (fun v => v = st.verdict (inp.device d).bytes off) := by
  unfold clusterLookup verdict entryAt
  refine .ite (fun h => .pure (by rw [if_pos h])) (fun h => ?_)
  rw [if_neg h]
  refine (ofOption fun _ h => checkedU64_eq h).bind fun l1ByteOffset hl1 => ?_
  refine (readBeCached_ensures hI d .first l1ByteOffset 8).bind fun l1Entry hentry => ?_
  rw [hl1] at hentry
  rw [← hentry]
  refine .ite (fun h => .pure (by rw [if_pos h])) (fun h => ?_)
  rw [if_neg h]
  refine (ofOption (Q := fun _ => True) fun _ _ => trivial).bind fun actualSize _ => ?_
  refine require.bind fun _ _ => ?_
  refine (ofOption fun _ h => checkedU64_eq h).bind fun l2ByteOffset hl2 => ?_
  refine (readBeCached_ensures hI d .second l2ByteOffset 8).bind fun l2Entry hl2Entry => ?_
  refine (readBeWhen_ensures hI _ d .second _ 8).bind fun bitmap hbitmap => .pure ?_
  rw [hl2Entry, hbitmap, hl2]

/-- The verdict on an entry all of whose subclusters have one type. -/
def wholeLookup (l2Entry : Nat) : SubclusterType → ClusterLookup
  | .invalid => .invalid
  | .compressed => .compressed l2Entry
  | .normal => .standard (hostOf l2Entry)
  | .zeroPlain | .zeroAlloc => .zero
  | .unallocatedPlain | .unallocatedAlloc => .unallocated

section

variable (st : Qcow2State) (l2Entry bitmap base : Nat)

/-- The verdicts an entry can get, and what each says of its subclusters. -/
inductive Classified : ClusterLookup → Prop where
  | refused (violation : DataFileEntryViolation) : Classified (.dataFileRefused violation)
  | invalid : Classified .invalid
  | mixed (hviolation : dataFileEntryViolation l2Entry bitmap st.extendedL2 st.hasDataFile base =
      none) (hext : st.extendedL2 = true) :
      Classified (.standardSubclusters l2Entry bitmap)
  | uniform (ty : SubclusterType)
      (hviolation : dataFileEntryViolation l2Entry bitmap st.extendedL2 st.hasDataFile base = none)
      (hall : ∀ sc < subclustersPerCluster st.extendedL2,
        subclusterType l2Entry bitmap sc st.extendedL2 st.hasDataFile = ty) :
      Classified (wholeLookup l2Entry ty)

end

theorem classifyL2Entry_eq {base : Nat} {ty : SubclusterType} {run : Nat}
    (hrange : subclusterRange l2Entry bitmap 0 st.extendedL2 st.hasDataFile = (ty, run))
    (hviolation : dataFileEntryViolation l2Entry bitmap st.extendedL2 st.hasDataFile base = none)
    (hvalid : ty ≠ .invalid) : st.classifyL2Entry l2Entry bitmap base =
      if run < subclustersPerCluster st.extendedL2 then .standardSubclusters l2Entry bitmap
      else wholeLookup l2Entry ty := by
  unfold classifyL2Entry
  rw [hrange, hviolation]
  cases ty with
  | invalid => exact absurd rfl hvalid
  | compressed =>
    have hlong := subclusterRange_whole hrange hvalid (.inr rfl)
    rw [if_neg (by omega)]
    rfl
  | normal => rfl
  | zeroPlain => rfl
  | zeroAlloc => rfl
  | unallocatedPlain => rfl
  | unallocatedAlloc => rfl

theorem classified (l2Entry bitmap base : Nat) :
    Classified st l2Entry bitmap base (st.classifyL2Entry l2Entry bitmap base) := by
  cases hviolation : dataFileEntryViolation l2Entry bitmap st.extendedL2 st.hasDataFile base with
  | some violation =>
    unfold classifyL2Entry
    rw [hviolation]
    exact .refused violation
  | none =>
    cases hrange : subclusterRange l2Entry bitmap 0 st.extendedL2 st.hasDataFile with
    | mk ty run =>
      by_cases hvalid : ty = .invalid
      · unfold classifyL2Entry
        rw [hviolation, hrange, hvalid]
        exact .invalid
      · rw [classifyL2Entry_eq hrange hviolation hvalid]
        split
        · -- only a bitmap cuts a run short
          refine .mixed hviolation ?_
          by_contra hclassic
          have := subclusterRange_whole hrange hvalid (.inl (by simpa using hclassic))
          omega
        next hlong =>
          refine .uniform ty hviolation fun sc hsc => ?_
          have hsame := subclusterRange_same (j := sc) hrange (by omega)
          rwa [zero_add] at hsame

/-! ## One cluster -/

variable {codec : Codec} {dataDevice off len : Nat}

/-- The places of one cluster share their entry. -/
theorem entryAt_congr {bytes : ByteMap} {x y : Nat} (h : x / st.clusterSize = y / st.clusterSize) :
    st.entryAt bytes x = st.entryAt bytes y := by
  unfold entryAt
  rw [← Nat.div_div_eq_div_mul, ← Nat.div_div_eq_div_mul, h]

variable (hentry : st.entryAt (inp.device d).bytes off = some (l2Entry, bitmap))

variable (hviolation : dataFileEntryViolation l2Entry bitmap st.extendedL2
  st.hasDataFile (off - off % st.clusterSize) = none)

include hviolation in
include hentry in
/-- What the cluster of `off` holds at one of its places, when a table covers it. -/
theorem held_of_entry {k : Nat} (hk : off % st.clusterSize + k < st.clusterSize) :
    st.held codec inp d dataDevice (off + k) = st.heldAs codec inp d dataDevice l2Entry (off + k)
      (subclusterType l2Entry bitmap ((off % st.clusterSize + k) / st.subclusterSize) st.extendedL2
        st.hasDataFile) := by
  obtain ⟨hdiv, hmod⟩ := same_unit hk
  have hbase : off + k - (off + k) % st.clusterSize = off - off % st.clusterSize := by
    omega
  unfold held heldBy
  rw [entryAt_congr hdiv, hentry]
  dsimp only
  rw [hbase, hviolation, hmod]

/-! ## Compressed clusters -/

theorem readCompressedData_ensures {σ : Type} {I : σ → Prop} (l2Entry : Nat) :
    Ensures I (st.readCompressedData inp d l2Entry) (fun bytes =>
      ∃ extent, parseCompressedL2Entry l2Entry st.clusterBits = some extent ∧
        bytes = (inp.device d).bytes.window extent.1 extent.2) := by
  refine (ofOption fun _ h => h).bind fun extent hextent => ?_
  refine require.bind fun _ _ => ?_
  refine (ofOption fun _ h => checkedU64_eq h).bind fun dataEnd hend => ?_
  refine require.bind fun _ _ => ?_
  refine require.bind fun _ _ => ?_
  refine (Inputs.wholeSectors_ensures d _ rfl).bind fun buf hbuf => ?_
  refine require.bind fun hroom _ => .pure ⟨extent, hextent, ?_⟩
  have hoff := Nat.div_add_mod' extent.1 inp.sectorSize
  refine ByteMap.window_congr fun i hi => ?_
  have hbyte := hbuf (extent.1 % inp.sectorSize + i) (by have := hroom.down; omega)
  rw [← add_assoc, hoff] at hbyte
  exact (Option.some.inj hbyte).symm

theorem loadCompressed_ensures (l2Entry : Nat) :
    Ensures I (st.loadCompressed inp d l2Entry) (fun stream =>
      codec.expand st.clusterSize stream = st.inflated codec (inp.device d).bytes l2Entry) := by
  refine (ofOption fun _ h => h).bind fun method hmethod => ?_
  refine (readCompressedData_ensures l2Entry).bind fun bytes hbytes => .pure ?_
  obtain ⟨extent, hextent, rfl⟩ := hbytes
  simp only [inflated, hmethod, hextent]

/-! ## Mixed subclusters -/

theorem not_normal_of_walk {scTo : Nat} {hasDataFile : Bool} (fuel sc : Nat)
    (hfuel : scTo ≤ sc + fuel)
    (h : subclustersIncludeNormal l2Entry bitmap hasDataFile scTo fuel sc = false)
    (j : Nat) (hlo : sc ≤ j)
    (hhi : j < scTo) : subclusterType l2Entry bitmap j true hasDataFile ≠ .normal := by
  induction fuel generalizing sc with
  | zero => omega
  | succ fuel ih =>
    rw [subclustersIncludeNormal, if_neg (by omega)] at h
    cases hrange : subclusterRange l2Entry bitmap sc true hasDataFile with
    | mk ty run =>
      have hty : subclusterType l2Entry bitmap sc true hasDataFile = ty := by
        rw [← subclusterRange_fst, hrange]
      simp only [hrange] at h
      by_cases hvalid : ty = .invalid
      · -- an invalid entry has no other types
        have hinvalid : subclusterType l2Entry bitmap j true hasDataFile = .invalid := by
          by_cases hsc : sc < extl2SubclustersPerCluster
          · exact subclusterType_invalid (hty.trans hvalid) hsc j
          · rw [subclusterType, if_pos]
            simp only [subclustersPerCluster, if_true]
            omega
        rw [hinvalid]
        decide
      · have hpos := subclusterRange_pos hrange hvalid
        rw [if_neg (by omega)] at h
        split at h
        · cases h
        next hnormal =>
          by_cases hj : j < sc + run
          · have hsame := subclusterRange_same (j := j - sc) hrange (by omega)
            rw [show sc + (j - sc) = j by omega] at hsame
            rw [hsame]
            exact hnormal
          · exact ih (sc + run) (by omega) h (by omega)

variable (hext : st.extendedL2 = true) {layers : List (Nat → Contribution)}

include hext

/-- The chunk the wide path reads has the bytes of every `Normal` subcluster in it. -/
theorem readWideChunk_ensures {intra readSize : Nat} (hin : intra + readSize ≤ st.clusterSize) :
    Ensures I (st.readWideChunk inp d dataDevice l2Entry bitmap intra readSize) (fun chunk =>
      st.subclusterSize < inp.sectorSize → ∀ pos, intra ≤ pos → pos < intra + readSize →
      subclusterType l2Entry bitmap (pos / st.subclusterSize) true st.hasDataFile = .normal →
      ∃ readDev, st.dataReadDevice d dataDevice = some readDev ∧
        chunk (pos - intra) = (inp.device readDev).bytes (hostOf l2Entry + pos)) := by
  have hpos := st.subclusterSize_pos
  refine .ite (fun _ => ?_) (fun hskip => .pure fun hwide pos hlo hhi hnormal => ?_)
  · refine (ofOption fun _ h => h).bind fun readDev hdev => ?_
    refine (Inputs.readClusterSectors_ensures readDev _ _).mono fun chunk hchunk _ pos hlo hhi _ =>
      ?_
    have hbyte := hchunk (pos - intra) (by omega)
    rw [show hostOf l2Entry + intra + (pos - intra) = hostOf l2Entry + pos by omega] at hbyte
    exact ⟨readDev, hdev, (Option.some.inj hbyte).symm⟩
  · -- nothing was read because no run of the chunk is `Normal`
    have hnone : subclustersIncludeNormal l2Entry bitmap st.hasDataFile
        (divCeil (intra + readSize) st.subclusterSize) 33 (intra / st.subclusterSize) = false := by
      simpa [hwide] using hskip
    have hmul := st.subclusters_mul
    rw [hext] at hmul
    have hto : divCeil (intra + readSize) st.subclusterSize ≤ 32 := by
      unfold divCeil
      rw [← Nat.lt_succ_iff, Nat.div_lt_iff_lt_mul hpos]
      simp only [subclustersPerCluster, extl2SubclustersPerCluster, if_true] at hmul
      omega
    have hlast : pos / st.subclusterSize < divCeil (intra + readSize) st.subclusterSize := by
      unfold divCeil
      rw [Nat.div_lt_iff_lt_mul hpos]
      have hceil := Nat.div_add_mod' (intra + readSize + st.subclusterSize - 1) st.subclusterSize
      have hmod := Nat.mod_lt (intra + readSize + st.subclusterSize - 1) hpos
      omega
    have hfuel : divCeil (intra + readSize) st.subclusterSize ≤ intra / st.subclusterSize + 33 :=
      le_trans hto (le_trans (by decide) (Nat.le_add_left 33 _))
    exact absurd hnormal (not_normal_of_walk 33 _ hfuel hnone _ (Nat.div_le_div_right hlo) hlast)

include hentry hviolation

/-- One run of a mixed cluster has the content of the stack. -/
theorem readRun_ensures {rest : Nat} {chunk : ByteMap}
    (hin : off % st.clusterSize + len ≤ st.clusterSize)
    (hbelow : Descends I (st.held codec inp d dataDevice) (layered layers) below off (off + len))
    (hchunk : st.subclusterSize < inp.sectorSize → ∀ pos, off % st.clusterSize ≤ pos →
      pos < off % st.clusterSize + len →
      subclusterType l2Entry bitmap (pos / st.subclusterSize) true st.hasDataFile = .normal →
      ∃ readDev, st.dataReadDevice d dataDevice = some readDev ∧
      chunk (pos - off % st.clusterSize) = (inp.device readDev).bytes (hostOf l2Entry + pos))
    (hlo : off % st.clusterSize ≤ pos) (hhi : pos + rest ≤ off % st.clusterSize + len) :
    Ensures I (st.readRun inp d dataDevice below chunk l2Entry bitmap off pos
        (st.runLength l2Entry bitmap pos rest))
      (Gives (layered (st.held codec inp d dataDevice :: layers)) (off +
        (pos - off % st.clusterSize)) (st.runLength l2Entry bitmap pos rest)) := by
  have hsize := st.subclusterSize_pos
  refine .ite (fun _ => .fail) (fun hrun => ?_)
  cases hrange : subclusterRange l2Entry bitmap (pos / st.subclusterSize) true st.hasDataFile with
  | mk ty run =>
    -- every place of the run has the type of the run
    have hty : ∀ i < st.runLength l2Entry bitmap pos rest,
        subclusterType l2Entry bitmap ((pos + i) / st.subclusterSize) true st.hasDataFile = ty := by
      intro i hi
      simp only [runLength, hrange] at hi
      have hfrom : pos / st.subclusterSize ≤ (pos + i) / st.subclusterSize :=
        Nat.div_le_div_right (by omega)
      have hto : (pos + i) / st.subclusterSize < pos / st.subclusterSize + run := by
        rw [Nat.div_lt_iff_lt_mul hsize]
        omega
      have hsame := subclusterRange_same hrange
        (j := (pos + i) / st.subclusterSize - pos / st.subclusterSize) (by omega)
      rwa [show pos / st.subclusterSize + ((pos + i) / st.subclusterSize - pos / st.subclusterSize)
        = (pos + i) / st.subclusterSize by omega] at hsame
    have hend : st.runLength l2Entry bitmap pos rest ≤ rest := by
      unfold runLength
      dsimp only
      omega
    have hplace : ∀ i < st.runLength l2Entry bitmap pos rest,
        (off + (pos - off % st.clusterSize) + i) % st.clusterSize = pos + i := by
      intro i hi
      rw [add_assoc, (same_unit (by omega)).2]
      omega
    have hheld : ∀ i < st.runLength l2Entry bitmap pos rest,
        st.held codec inp d dataDevice (off + (pos - off % st.clusterSize) + i) =
          st.heldAs codec inp d dataDevice l2Entry (off + (pos - off % st.clusterSize) + i) ty := by
      intro i hi
      rw [add_assoc, held_of_entry hentry hviolation (by omega), hext,
        show off % st.clusterSize + (pos - off % st.clusterSize + i) = pos + i by omega, hty i hi]
    have hleft : (∀ i, st.heldAs codec inp d dataDevice l2Entry
        (off + (pos - off % st.clusterSize) + i) ty = .absent) →
        Ensures I (below (off + (pos - off % st.clusterSize))
          (st.runLength l2Entry bitmap pos rest))
          (Gives (layered (st.held codec inp d dataDevice :: layers))
            (off + (pos - off % st.clusterSize)) (st.runLength l2Entry bitmap pos rest)) := by
      intro habsent
      have hrange : Absent (st.held codec inp d dataDevice) (off + (pos - off % st.clusterSize))
          (st.runLength l2Entry bitmap pos rest) := by
        intro x hx hx'
        have hi := hheld (x - (off + (pos - off % st.clusterSize))) (by omega)
        rwa [habsent, Nat.add_sub_cancel' hx] at hi
      exact (hbelow _ _ (by omega) (by omega) (by omega) hrange).mono
        fun out hout => hout.of_absent hrange
    cases ty with
    | normal =>
      refine .ite (fun hwide => .pure (.of_gives fun i hi => ?_)) (fun _ => ?_)
      · obtain ⟨readDev, hdev, hbyte⟩ := hchunk hwide (pos + i) (by omega) (by omega) (hty i hi)
        rw [hheld i hi]
        simp only [heldAs, hdev, hplace i hi, ByteMap.drop_apply, ← hbyte]
        rw [show pos + i - off % st.clusterSize = pos - off % st.clusterSize + i by omega]
      · refine (ofOption fun _ h => h).bind fun readDev hdev => ?_
        refine (Inputs.readClusterSectors_ensures readDev _ _).mono fun out hout =>
          .of_gives fun i hi => ?_
        rw [hheld i hi]
        simp only [heldAs, hdev, hplace i hi, ← add_assoc]
        exact congrArg Contribution.gives (Option.some.inj (hout i hi))
    | zeroAlloc | zeroPlain => exact .pure (.of_gives fun i hi => hheld i hi)
    | unallocatedAlloc => exact hleft fun _ => rfl
    | unallocatedPlain => exact hleft fun _ => rfl
    | compressed => exact .fail
    | invalid => exact .fail

theorem readSubclusters_ensures (hin : off % st.clusterSize + len ≤ st.clusterSize)
    (hbelow : Descends I (st.held codec inp d dataDevice) (layered layers) below off (off + len)) :
    Ensures I (st.readSubclusters inp d dataDevice below l2Entry bitmap off len)
      (Gives (layered (st.held codec inp d dataDevice :: layers)) off len) := by
  have hsize : (if len < st.clusterSize then len else st.clusterSize) = len := by
    split <;> omega
  unfold readSubclusters
  rw [hsize]
  refine (readWideChunk_ensures hext hin).bind fun chunk hchunk => ?_
  -- the loop counts positions of the cluster; the content is that of the virtual offsets there
  have hloop : Ensures I (pieces (st.runLength l2Entry bitmap)
      (fun pos n => st.readRun inp d dataDevice below chunk l2Entry bitmap off pos n) len
      (off % st.clusterSize) len)
      (Gives (fun pos => layered (st.held codec inp d dataDevice :: layers)
        (off + (pos - off % st.clusterSize))) (off % st.clusterSize) len) := by
    refine pieces_ensures (fun pos rest _ => ?_) (fun pos rest hlo hhi _ => ?_) len le_rfl le_rfl
    · unfold runLength
      dsimp only
      omega
    · refine (readRun_ensures hentry hviolation hext hin hbelow hchunk hlo hhi).mono
        fun out hout i hi => ?_
      have hbyte := hout i hi
      rwa [show off + (pos - off % st.clusterSize) + i = off + (pos + i - off % st.clusterSize) by
        omega] at hbyte
  refine hloop.mono fun out hout i hi => ?_
  have hbyte := hout i hi
  dsimp only at hbyte
  rwa [Nat.add_sub_cancel_left] at hbyte

omit hext hviolation

omit hentry

/-! ## The arm -/

/-- What the qcow2 arm asks of the staging buffer at `off`: a compressed cluster that can be loaded
inflates, and it may be kept in the staging buffer. -/
structure Staged (st : Qcow2State) (codec : Codec) (inp : Inputs) (I : ReaderState → Prop)
    (d off : Nat) : Prop where
  inflates : ∀ l2Entry, st.verdict (inp.device d).bytes off = .compressed l2Entry →
    ∀ s stream, (st.loadCompressed inp d l2Entry s).1 = some stream →
      (codec.expand st.clusterSize stream).isSome
  unit : ∀ l2Entry, st.verdict (inp.device d).bytes off = .compressed l2Entry →
    StagedUnit I st.clusterSize (off - off % st.clusterSize)
    (st.inflated codec (inp.device d).bytes l2Entry)

/-- The qcow2 arm has the content of the stack whose top layer the image is. -/
theorem arm_ensures (hI : Stable inp I) (hin : off % st.clusterSize + len ≤ st.clusterSize)
    (hbelow : Descends I (st.held codec inp d dataDevice) (layered layers) below off (off + len))
    (hstaged : Staged st codec inp I d off) :
    Ensures I (st.arm codec inp d dataDevice below off len)
      (Gives (layered (st.held codec inp d dataDevice :: layers)) off len) := by
  have hpos := st.clusterSize_pos
  have hmod := Nat.mod_lt off hpos
  refine (clusterLookup_ensures hI off).bind fun v hv => ?_
  cases hentry : st.entryAt (inp.device d).bytes off with
  | none =>
    have hverdict : v = .unallocated := by rw [hv, verdict, hentry]
    rw [hverdict]
    refine hbelow.whole fun x hx hx' => ?_
    have hdiv : (off + (x - off)) / st.clusterSize = off / st.clusterSize :=
      (same_unit (by omega)).1
    rw [Nat.add_sub_cancel' hx] at hdiv
    rw [held, entryAt_congr hdiv, hentry]
  | some entry =>
    obtain ⟨l2Entry, bitmap⟩ := entry
    have hclass : Classified st l2Entry bitmap (off - off % st.clusterSize) v := by
      rw [hv, verdict, hentry]
      exact classified _ _ _
    cases hclass with
    | refused violation => exact .fail
    | invalid => exact .fail
    | mixed hviolation hext => exact readSubclusters_ensures hentry hviolation hext hin hbelow
    | uniform ty hviolation hall =>
      have hheld : ∀ k, off % st.clusterSize + k < st.clusterSize →
            st.held codec inp d dataDevice (off + k) =
            st.heldAs codec inp d dataDevice l2Entry (off + k) ty := fun k hk => by
        rw [held_of_entry hentry hviolation hk, hall _ (st.subcluster_lt hk)]
      have hplace : ∀ k, off % st.clusterSize + k < st.clusterSize →
          (off + k) % st.clusterSize = off % st.clusterSize + k := fun k hk => (same_unit hk).2
      have habsent : (∀ x, st.heldAs codec inp d dataDevice l2Entry x ty = .absent) →
          Absent (st.held codec inp d dataDevice) off len := fun h x hx hx' => by
        have hk := hheld (x - off) (by omega)
        rwa [h, Nat.add_sub_cancel' hx] at hk
      cases ty with
      | invalid => exact .fail
      | unallocatedPlain | unallocatedAlloc => exact hbelow.whole (habsent fun _ => rfl)
      | zeroPlain | zeroAlloc => exact .pure (.of_gives fun i hi => hheld i (by omega))
      | normal =>
        have hsize : (if len < st.clusterSize then len else st.clusterSize) = len := by
          split <;> omega
        refine (ofOption fun _ h => h).bind fun readDev hdev => ?_
        refine (Inputs.readClusterSectors_ensures readDev _ _).mono fun out hout =>
          .of_gives fun i hi => ?_
        rw [hsize] at hout
        rw [hheld i (by omega)]
        simp only [heldAs, hdev, hplace i (by omega), ← add_assoc]
        exact congrArg Contribution.gives (Option.some.inj (hout i hi))
      | compressed =>
        have hload : Ensures I (st.loadCompressed inp d l2Entry) (fun stream =>
            codec.expand st.clusterSize stream = st.inflated codec (inp.device d).bytes l2Entry ∧
            (st.inflated codec (inp.device d).bytes l2Entry).isSome) := by
          refine ((loadCompressed_ensures l2Entry).and
            (hstaged.inflates l2Entry hv.symm)).mono fun stream h => ⟨h.1, ?_⟩
          rw [← h.1]
          exact h.2
        refine (readCompressedUnit_ensures (hstaged.unit l2Entry hv.symm) hload hin).mono
          fun out hout i hi => ?_
        have hbyte := hout i hi
        cases hout : st.inflated codec (inp.device d).bytes l2Entry with
        | none => simp [unitByte, hout] at hbyte
        | some whole =>
          rw [layered_gives (b := whole ((off + i) % st.clusterSize))]
          · rw [unitByte, hout, Option.map_some,
              show off + i - (off - off % st.clusterSize) = off % st.clusterSize + i by
                have := Nat.mod_le off st.clusterSize
                omega] at hbyte
            rw [hplace i (by omega), hbyte]
          · rw [hheld i (by omega)]
            simp only [heldAs, hout]

end Qcow2State

end Instar.Read
