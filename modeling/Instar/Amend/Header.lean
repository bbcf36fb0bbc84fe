import Instar.Amend.Plan
import Instar.Resize.Planned

/-!
# What a header says, and what a rebuilt one says

`HeaderInfo` is what an image's header says: version, flag, geometry, tables, snapshots, refcount
width, the backing file name and the extensions.  `Rebuilt` is what the planner's rebuilt cluster
holds, field by field, and `Rebuilt.info` compares the two: everything is kept, unless the chain of
extensions is not closed.
-/

namespace Instar.Amend

open Qcow2 ByteMap
open Resize (writeBe be_writeBe be_writeBe_outside)

variable {header : Buffer}

/-! ## What a header says -/

/-- What a header says, apart from where it puts its own parts. -/
structure HeaderInfo where
  version : Nat
  lazyRefcounts : Bool
  clusterBits : Nat
  virtualSize : Nat
  cryptMethod : Nat
  l1Size : Nat
  l1TableOffset : Nat
  refcountTableOffset : Nat
  refcountTableClusters : Nat
  refcountBits : Nat
  nbSnapshots : Nat
  snapshotsOffset : Nat
  backingFile : List UInt8
  extensions : List (Nat × List UInt8)
deriving DecidableEq

section

variable (clusterSize : Nat) (disk : ByteMap)

/-- The extensions of a header cluster: they follow the header, in both versions. -/
def chainOf (start : Nat) : List (Nat × List UInt8) :=
  extensionsFrom ⟨clusterSize, disk⟩ (clusterSize / 8 + 1) start

/-- What a parsed header and its cluster say. -/
def infoOf (hdr : QcowHeader) : HeaderInfo where
  version := hdr.version
  lazyRefcounts := hdr.lazyRefcounts
  clusterBits := hdr.clusterBits
  virtualSize := hdr.virtualSize
  cryptMethod := hdr.cryptMethod
  l1Size := hdr.l1Size
  l1TableOffset := hdr.l1TableOffset
  refcountTableOffset := hdr.refcountTableOffset
  refcountTableClusters := hdr.refcountTableClusters
  refcountBits := hdr.refcountBits
  nbSnapshots := hdr.nbSnapshots
  snapshotsOffset := hdr.snapshotsOffset
  backingFile := disk.window hdr.backingFileOffset hdr.backingFileSize
  extensions := chainOf clusterSize disk hdr.headerLength

/-- What the header cluster of an image says. -/
def headerInfo : Option HeaderInfo :=
  (QcowHeader.parse ⟨clusterSize, disk⟩).map (infoOf clusterSize disk)

/-- A header cluster: the fixed part, the extensions and the backing file name, one behind the
other. Without a backing file its name has no offset. -/
structure LaidOut (hdr : QcowHeader) : Prop where
  length : hdr.version = 3 → 104 ≤ hdr.headerLength
  unnamed : hdr.backingFileSize = 0 → hdr.backingFileOffset = 0
  name : hdr.backingFileSize ≠ 0 → hdr.headerLength ≤ hdr.backingFileOffset
  apart : hdr.backingFileSize ≠ 0 → ∀ e,
    headerExtensionAreaEnd ⟨clusterSize, disk⟩ hdr.headerLength = some e → e ≤ hdr.backingFileOffset

end

/-! ## A rebuilt cluster -/

variable {cs b tail : Nat} {disk m : ByteMap} {hdr : QcowHeader}

/-- A rebuilt header cluster: `tail` bytes move from the end of the old header to that of the new
one, of version `v`. -/
structure Rebuilt (cs : Nat) (disk : ByteMap) (hdr : QcowHeader) (v : Nat) (lazyRefcounts : Bool)
    (tail : Nat) (m : ByteMap) : Prop where
  version : m.be 4 4 = v
  kept : ∀ b, 16 ≤ b → b < 72 → m b = disk b
  backing : m.be 8 8 = if 0 < hdr.backingFileSize then movedBacking hdr
    (dstFixedLen v - hdr.headerLength) else disk.be 8 8
  words : v = 3 → m.be 72 8 = 0 ∧ m.be 80 8 = (if lazyRefcounts then compatLazyRefcounts else 0) ∧
    m.be 96 4 = trailingZeros hdr.refcountBits ∧ m.be 100 4 = 104
  moved : ∀ i < tail, m (dstFixedLen v + i) = disk (hdr.headerLength + i)
  zero : ∀ b, dstFixedLen v + tail ≤ b → b < cs → m b = 0

theorem dstFixedLen_ge (v : Nat) : 72 ≤ dstFixedLen v := by
  unfold dstFixedLen v2HeaderExtensionOffset
  split <;> omega

theorem dstFixedLen_le (v : Nat) : dstFixedLen v ≤ 104 := by
  unfold dstFixedLen v2HeaderExtensionOffset
  split <;> omega

theorem writeBe_apply_outside {n off v : Nat} (h : b < off ∨ off + n ≤ b) :
    writeBe n off v m b = m b :=
  splice_outside h

theorem writeV3Words_outside {lazyRefcounts : Bool} (h : b < 72 ∨ 104 ≤ b) :
    writeV3Words hdr lazyRefcounts m b = m b := by
  unfold writeV3Words
  rw [writeBe_apply_outside (by omega), writeBe_apply_outside (by omega),
    writeBe_apply_outside (by omega),
    writeBe_apply_outside (by omega), writeBe_apply_outside (by omega)]

theorem writeV3Words_words {lazyRefcounts : Bool} (hw : trailingZeros hdr.refcountBits < 256 ^ 4) :
    (writeV3Words hdr lazyRefcounts m).be 72 8 = 0 ∧
      (writeV3Words hdr lazyRefcounts m).be 80 8 = (if lazyRefcounts then compatLazyRefcounts
        else 0) ∧
      (writeV3Words hdr lazyRefcounts m).be 96 4 = trailingZeros hdr.refcountBits ∧
      (writeV3Words hdr lazyRefcounts m).be 100 4 = 104 := by
  have hflag : (if lazyRefcounts then compatLazyRefcounts else 0) < 256 ^ 8 := by
    cases lazyRefcounts <;> decide
  unfold writeV3Words
  refine ⟨?_, ?_, ?_, be_writeBe (by decide)⟩
  · rw [be_writeBe_outside (by omega), be_writeBe_outside (by omega), be_writeBe_outside (by omega),
      be_writeBe_outside (by omega), be_writeBe (by decide)]
  · rw [be_writeBe_outside (by omega), be_writeBe_outside (by omega), be_writeBe_outside (by omega),
      be_writeBe hflag]
  · rw [be_writeBe_outside (by omega), be_writeBe hw]

/-- The rebuilt cluster before the backing file offset is written. -/
def moved (src : ByteMap) (hdr : QcowHeader) (v : Nat) (lazyRefcounts : Bool) (start tail : Nat) :
    ByteMap :=
  (if v = 3 then writeV3Words hdr lazyRefcounts (writeBe 4 4 v (splice (fun _ => 0) 0 72 src))
    else writeBe 4 4 v (splice (fun _ => 0) 0 72 src)).splice (dstFixedLen v) tail (src.drop start)

theorem rebuilt_eq (src : ByteMap) (hdr : QcowHeader) (v : Nat) (lazyRefcounts : Bool)
    (start tail : Nat) : rebuilt src hdr v lazyRefcounts start tail =
      if 0 < hdr.backingFileSize then
        writeBe 8 8 (movedBacking hdr (dstFixedLen v - start))
          (moved src hdr v lazyRefcounts start tail)
      else moved src hdr v lazyRefcounts start tail := rfl

section Moved

variable {v start tail : Nat} {lazyRefcounts : Bool}

theorem moved_low (h : b < 72) : moved disk hdr v lazyRefcounts start tail b =
      writeBe 4 4 v (splice (fun _ => 0) 0 72 disk) b := by
  have hdst := dstFixedLen_ge v
  unfold moved
  rw [splice_outside (by omega)]
  split
  · exact writeV3Words_outside (by omega)
  · rfl

theorem moved_be_low {off n : Nat} (h : off + n ≤ 72) :
      (moved disk hdr v lazyRefcounts start tail).be off n =
      (writeBe 4 4 v (splice (fun _ => 0) 0 72 disk)).be off n :=
  be_congr fun i hi => moved_low (by omega)

theorem moved_zero (h : dstFixedLen v + tail ≤ b) :
    moved disk hdr v lazyRefcounts start tail b = 0 := by
  have hdst := dstFixedLen_ge v
  have hblank : writeBe 4 4 v (splice (fun _ => 0) 0 72 disk) b = 0 := by
    rw [writeBe_apply_outside (by omega)]
    exact splice_outside (by omega)
  unfold moved
  rw [splice_outside (by omega)]
  split
  next hv =>
    rw [dstFixedLen, if_pos hv] at h
    rw [writeV3Words_outside (by omega)]
    exact hblank
  · exact hblank

/-- The rebuilt cluster is as described. -/
theorem rebuilt_spec (hv : v = 2 ∨ v = 3) (hw : trailingZeros hdr.refcountBits < 256 ^ 4) :
    Rebuilt cs disk hdr v lazyRefcounts tail (rebuilt disk hdr v lazyRefcounts
      hdr.headerLength tail) := by
  have hdst := dstFixedLen_ge v
  -- the offset of the name is the only field written after the move
  have houtside : ∀ b, b < 8 ∨ 16 ≤ b → rebuilt disk hdr v lazyRefcounts hdr.headerLength tail b =
      moved disk hdr v lazyRefcounts hdr.headerLength tail b := by
    intro b hb
    rw [rebuilt_eq]
    split
    · exact writeBe_apply_outside (by omega)
    · rfl
  have hfields : ∀ off n, off + n ≤ 8 ∨ 16 ≤ off →
      (rebuilt disk hdr v lazyRefcounts hdr.headerLength tail).be off n =
        (moved disk hdr v lazyRefcounts hdr.headerLength tail).be off n :=
    fun off n h => be_congr fun i hi => houtside _ (by omega)
  refine ⟨?_, ?_, ?_, ?_, ?_, ?_⟩
  · rw [hfields 4 4 (by omega), moved_be_low (by omega)]
    exact be_writeBe (by omega)
  · intro b h16 h72
    rw [houtside b (by omega), moved_low h72, writeBe_apply_outside (by omega),
      splice_mem (by omega) (by omega)]
    rfl
  · rw [rebuilt_eq]
    split
    · refine be_writeBe ?_
      unfold movedBacking
      omega
    · rw [moved_be_low (by omega), be_writeBe_outside (by omega)]
      exact be_congr fun i hi => by
        rw [splice_mem (by omega) (by omega)]
        rfl
  · rintro rfl
    have hwords : ∀ off n, 72 ≤ off → off + n ≤ 104 →
        (rebuilt disk hdr 3 lazyRefcounts hdr.headerLength tail).be off n =
          (writeV3Words hdr lazyRefcounts (writeBe 4 4 3 (splice (fun _ => 0) 0 72 disk))).be
          off n := by
      intro off n hlo hhi
      rw [hfields off n (by omega)]
      exact be_splice_outside (.inl hhi)
    rw [hwords 72 8 (by omega) (by omega), hwords 80 8 (by omega) (by omega),
      hwords 96 4 (by omega) (by omega), hwords 100 4 (by omega) (by omega)]
    exact writeV3Words_words hw
  · intro i hi
    rw [houtside _ (by omega), moved, splice_inside hi]
    rfl
  · intro b hb _
    rw [houtside _ (by omega), moved_zero hb]

end Moved

theorem Rebuilt.congr {v : Nat} {lazyRefcounts : Bool} {m' : ByteMap} (hcs : 104 ≤ cs)
    (hfits : dstFixedLen v + tail ≤ cs) (h : ∀ b < cs, m' b = m b)
    (hr : Rebuilt cs disk hdr v lazyRefcounts tail m) :
    Rebuilt cs disk hdr v lazyRefcounts tail m' := by
  have hfield : ∀ off n, off + n ≤ 104 → m'.be off n = m.be off n := fun off n hn =>
    be_congr fun i hi => h _ (by omega)
  refine ⟨(hfield 4 4 (by omega)).trans hr.version, fun b h16 h72 =>
    (h b (by omega)).trans (hr.kept b h16 h72),
    (hfield 8 8 (by omega)).trans hr.backing, fun hv => ?_,
    fun i hi => (h _ (by omega)).trans (hr.moved i hi),
      fun b hb hcs => (h b hcs).trans (hr.zero b hb hcs)⟩
  rw [hfield 72 8 (by omega), hfield 80 8 (by omega), hfield 96 4 (by omega),
    hfield 100 4 (by omega)]
  exact hr.words hv

/-! ## The moved part -/

/-- How many bytes behind the header are moved. -/
inductive TailOf (cs : Nat) (disk : ByteMap) (hdr : QcowHeader) (tail : Nat) : Prop where
  /-- The extensions are closed: up to the farther of their end and that of the name. -/
  | closed {e : Nat} (chain : headerExtensionAreaEnd ⟨cs, disk⟩ hdr.headerLength = some e)
      (farther : hdr.headerLength + tail = max e (hdr.backingFileOffset + hdr.backingFileSize))
      (inside : hdr.headerLength + tail ≤ cs)
  /-- They are not, and there is no name: nothing is. -/
  | unclosed (chain : headerExtensionAreaEnd ⟨cs, disk⟩ hdr.headerLength = none)
      (unnamed : hdr.backingFileSize = 0) (nothing : tail = 0)

theorem TailOf.inside_cluster (h : TailOf cs disk hdr tail) (hstart : hdr.headerLength ≤ cs) :
    hdr.headerLength + tail ≤ cs := by
  cases h with
  | closed _ _ hinside => exact hinside
  | unclosed _ _ hnothing => omega

section Info

variable {v tail : Nat} {lazyRefcounts : Bool}

/-- A rebuilt cluster of a header without incompatible features and with 16-bit refcounts: what its
fields are, and that the parser takes it. -/
structure Reparsed (cs : Nat) (hdr : QcowHeader) (v : Nat) (lazyRefcounts : Bool) (m : ByteMap) :
    Prop where
  accepted : Acceptable ⟨cs, m⟩
  version : (fieldsOf ⟨cs, m⟩).version = v
  length : (fieldsOf ⟨cs, m⟩).headerLength = dstFixedLen v
  lazy : (fieldsOf ⟨cs, m⟩).lazyRefcounts = lazyRefcounts
  width : (fieldsOf ⟨cs, m⟩).refcountBits = 16
  features : (fieldsOf ⟨cs, m⟩).incompatibleFeatures = 0
  clusterBits : (fieldsOf ⟨cs, m⟩).clusterBits = hdr.clusterBits
  clusterSize : (fieldsOf ⟨cs, m⟩).clusterSize = hdr.clusterSize
  virtualSize : (fieldsOf ⟨cs, m⟩).virtualSize = hdr.virtualSize
  cryptMethod : (fieldsOf ⟨cs, m⟩).cryptMethod = hdr.cryptMethod
  l1Size : (fieldsOf ⟨cs, m⟩).l1Size = hdr.l1Size
  l1TableOffset : (fieldsOf ⟨cs, m⟩).l1TableOffset = hdr.l1TableOffset
  refcountTableOffset : (fieldsOf ⟨cs, m⟩).refcountTableOffset = hdr.refcountTableOffset
  refcountTableClusters : (fieldsOf ⟨cs, m⟩).refcountTableClusters = hdr.refcountTableClusters
  nbSnapshots : (fieldsOf ⟨cs, m⟩).nbSnapshots = hdr.nbSnapshots
  snapshotsOffset : (fieldsOf ⟨cs, m⟩).snapshotsOffset = hdr.snapshotsOffset
  backingSize : (fieldsOf ⟨cs, m⟩).backingFileSize = hdr.backingFileSize

/-- The header the parser accepted has no features word in the way: that of version 2, or a zero
one. -/
structure Plain (hdr : QcowHeader) : Prop where
  features : hdr.incompatibleFeatures = 0
  width : hdr.refcountBits = 16

theorem extendedL2_of_plain (h : (fieldsOf header).incompatibleFeatures = 0) :
    (fieldsOf header).extendedL2 = false := by
  show decide ((fieldsOf header).incompatibleFeatures &&& incompatExtendedL2 ≠ 0) = false
  rw [h]
  rfl

/-- A rebuild of a well laid out header cluster `disk` that gives `m`. -/
structure Rebuilding (cs : Nat) (disk : ByteMap) (hdr : QcowHeader) (v : Nat) (lazyRefcounts : Bool)
    (tail : Nat) (m : ByteMap) : Prop where
  parse : QcowHeader.parse ⟨cs, disk⟩ = some hdr
  plain : Plain hdr
  size : cs = hdr.clusterSize
  laid : LaidOut cs disk hdr
  target : v = 2 ∨ v = 3
  flag : v = 2 → lazyRefcounts = false
  moves : TailOf cs disk hdr tail
  fits : dstFixedLen v + tail ≤ cs
  rebuilt : Rebuilt cs disk hdr v lazyRefcounts tail m

namespace Rebuilding

variable (h : Rebuilding cs disk hdr v lazyRefcounts tail m)
include h

theorem bounds : 512 ≤ cs ∧ cs ≤ 2 ^ 21 := by
  have hp := QcowHeader.parse_parsed h.parse
  rw [h.size, hp.size_eq]
  exact ⟨Nat.pow_le_pow_right (show 0 < 2 by decide) hp.bits_ge,
    Nat.pow_le_pow_right (by decide) hp.bits_le⟩

/-- The rebuilt header is parsed again. -/
theorem reparsed : Reparsed cs hdr v lazyRefcounts m := by
  obtain ⟨hparse, hplain, -, -, hv, hlazy, -, -, hr⟩ := h
  obtain ⟨hacc, rfl⟩ := QcowHeader.parse_eq_some.mp hparse
  have hkept : ∀ off n, 16 ≤ off → off + n ≤ 72 → m.be off n = disk.be off n := fun off n hlo hhi =>
    be_congr fun i hi => hr.kept _ (by omega) (by omega)
  have hversion : (Buffer.mk cs m).be 4 4 = v := hr.version
  have hfeatures : (fieldsOf ⟨cs, m⟩).incompatibleFeatures = 0 := by
    show (if 3 ≤ (Buffer.mk cs m).be 4 4 then m.be 72 8 else 0) = 0
    split
    · exact (hr.words (by omega)).1
    · rfl
  have hwidth : (fieldsOf ⟨cs, m⟩).refcountBits = 16 := by
    show (if 3 ≤ (Buffer.mk cs m).be 4 4 then (if m.be 96 4 ≤ 6 then 2 ^ m.be 96 4 else 16)
      else 16) = 16
    split
    · rw [(hr.words (by omega)).2.2.1, hplain.width]
      decide
    · rfl
  have hlength : (fieldsOf ⟨cs, m⟩).headerLength = dstFixedLen v := by
    show (if 3 ≤ (Buffer.mk cs m).be 4 4 then m.be 100 4 else v2HeaderExtensionOffset) = _
    rw [hversion]
    rcases hv with rfl | rfl
    · rfl
    · exact (hr.words rfl).2.2.2
  have hflag : (fieldsOf ⟨cs, m⟩).lazyRefcounts = lazyRefcounts := by
    show decide ((if 3 ≤ (Buffer.mk cs m).be 4 4 then m.be 80 8
      else 0) &&& compatLazyRefcounts ≠ 0) = _
    rw [hversion]
    rcases hv with rfl | rfl
    · rw [hlazy rfl, if_neg (by decide)]
      rfl
    · rw [if_pos (Nat.le_refl 3), (hr.words rfl).2.1]
      cases lazyRefcounts <;> rfl
  have hsize : (fieldsOf ⟨cs, m⟩).clusterSize = (fieldsOf ⟨cs, disk⟩).clusterSize :=
    congrArg (2 ^ ·) (hkept 20 4 (by omega) (by omega))
  refine ⟨⟨hacc.len, ?_, ?_, ?_, ?_⟩, hr.version, hlength, hflag, hwidth, hfeatures,
    hkept 20 4 (by omega) (by omega), hsize, hkept 24 8 (by omega) (by omega),
    hkept 32 4 (by omega) (by omega), hkept 36 4 (by omega) (by omega),
    hkept 40 8 (by omega) (by omega),
    hkept 48 8 (by omega) (by omega), hkept 56 4 (by omega) (by omega),
    hkept 60 4 (by omega) (by omega),
    hkept 64 8 (by omega) (by omega), hkept 16 4 (by omega) (by omega)⟩
  · rw [hversion]
    exact hv
  · show 9 ≤ m.be 20 4 ∧ m.be 20 4 ≤ 21
    rw [hkept 20 4 (by omega) (by omega)]
    exact hacc.bits
  · show m.be 36 4 ≤ _
    rw [hkept 36 4 (by omega) (by omega)]
    exact hacc.l1
  · have hcovered := hacc.covered
    rw [extendedL2_of_plain hplain.features] at hcovered
    rw [extendedL2_of_plain hfeatures]
    show divCeil (m.be 24 8) (2 ^ m.be 20 4 * (2 ^ m.be 20 4 / 8)) ≤ _
    rw [hkept 24 8 (by omega) (by omega), hkept 20 4 (by omega) (by omega)]
    exact hcovered

/-- The name moves along with the extensions. -/
theorem backing_moved (hsize : hdr.backingFileSize ≠ 0) :
    (fieldsOf ⟨cs, m⟩).backingFileOffset = hdr.backingFileOffset - hdr.headerLength +
    dstFixedLen v ∧
      hdr.headerLength ≤ hdr.backingFileOffset ∧
      hdr.backingFileOffset + hdr.backingFileSize ≤ hdr.headerLength + tail := by
  have hstart := h.laid.name hsize
  have hend : hdr.backingFileOffset + hdr.backingFileSize ≤ hdr.headerLength + tail ∧
      hdr.headerLength + tail ≤ cs := by
    cases h.moves with
    | closed _ hfarther hinside => exact ⟨hfarther ▸ le_max_right _ _, hinside⟩
    | unclosed _ hnone _ => exact absurd hnone hsize
  have hdst := dstFixedLen_le v
  have hcs := h.bounds
  refine ⟨?_, hstart, hend.1⟩
  show m.be 8 8 = _
  rw [h.rebuilt.backing, if_pos (pos_of_ne_zero hsize)]
  unfold movedBacking
  omega

/-- Without a name the offset stays zero. -/
theorem backing_none (hsize : hdr.backingFileSize = 0) :
    (fieldsOf ⟨cs, m⟩).backingFileOffset = 0 := by
  have hdisk : hdr.backingFileOffset = disk.be 8 8 := by
    rw [(QcowHeader.parse_eq_some.mp h.parse).2]
    rfl
  show m.be 8 8 = 0
  rw [h.rebuilt.backing, if_neg (by omega), ← hdisk]
  exact h.laid.unnamed hsize

theorem name_eq : m.window (fieldsOf ⟨cs, m⟩).backingFileOffset (fieldsOf ⟨cs, m⟩).backingFileSize =
      disk.window hdr.backingFileOffset hdr.backingFileSize := by
  rw [h.reparsed.backingSize]
  by_cases hsize : hdr.backingFileSize = 0
  · rw [hsize]
    rfl
  · obtain ⟨hoff, hstart, hend⟩ := h.backing_moved hsize
    rw [hoff]
    refine window_congr fun i hi => ?_
    have hmoved := h.rebuilt.moved (hdr.backingFileOffset - hdr.headerLength + i) (by omega)
    rw [show hdr.backingFileOffset - hdr.headerLength + dstFixedLen v + i =
        dstFixedLen v + (hdr.backingFileOffset - hdr.headerLength + i) by omega, hmoved]
    congr 1
    omega

/-- A closed chain moves with its records. -/
theorem chain_closed {e : Nat}
    (hchain : headerExtensionAreaEnd ⟨cs, disk⟩ hdr.headerLength = some e) :
    headerExtensionAreaEnd ⟨cs, m⟩ (dstFixedLen v) = some (dstFixedLen v + (e - hdr.headerLength)) ∧
      chainOf cs m (dstFixedLen v) = chainOf cs disk hdr.headerLength := by
  have hle : e ≤ hdr.headerLength + tail := by
    cases h.moves with
    | closed hchain' hfarther _ =>
      rw [hchain] at hchain'
      cases hchain'
      exact hfarther ▸ le_max_left _ _
    | unclosed hnone _ _ =>
      rw [hchain] at hnone
      cases hnone
  have hcopy : ∀ i < e - hdr.headerLength, m (dstFixedLen v + i) = disk (hdr.headerLength + i) :=
    fun i hi => h.rebuilt.moved i (by omega)
  have hroom : dstFixedLen v + (e - hdr.headerLength) ≤ cs := by
    have hfits := h.fits
    omega
  exact chain_moved (k := 0) hchain hroom hcopy

/-- An unclosed chain is dropped: the rebuilt cluster has an empty one. -/
theorem chain_unclosed (hchain : headerExtensionAreaEnd ⟨cs, disk⟩ hdr.headerLength = none) :
    headerExtensionAreaEnd ⟨cs, m⟩ (dstFixedLen v) = some (dstFixedLen v + 8) ∧
      chainOf cs m (dstFixedLen v) = [] := by
  have hdst := dstFixedLen_le v
  have hcs := h.bounds
  have hzero : (Buffer.mk cs m).be (dstFixedLen v) 4 = 0 := by
    have hnothing : tail = 0 := by
      cases h.moves with
      | closed hsome _ _ =>
        rw [hchain] at hsome
        cases hsome
      | unclosed _ _ hnothing => exact hnothing
    have hbytes : m.be (dstFixedLen v) 4 = be (fun _ => 0) 0 4 :=
      be_congr fun i hi => h.rebuilt.zero _ (by omega) (by omega)
    exact hbytes.trans (be_zeros 0 4)
  refine ⟨?_, extensionsFrom_end hzero⟩
  unfold headerExtensionAreaEnd
  rw [areaEndFrom, if_neg (show ¬ cs < dstFixedLen v + 8 by omega)]
  exact if_pos hzero

/-- The rebuilt cluster says the same, but for the version, the flag and a chain that was not
closed. -/
theorem info : infoOf cs m (fieldsOf ⟨cs, m⟩) = { infoOf cs disk hdr with
      version := v
      lazyRefcounts := lazyRefcounts
      extensions := chainOf cs m (dstFixedLen v) } := by
  have hp := h.reparsed
  unfold infoOf
  rw [h.name_eq, hp.version, hp.lazy, hp.clusterBits, hp.virtualSize, hp.cryptMethod, hp.l1Size,
    hp.l1TableOffset, hp.refcountTableOffset, hp.refcountTableClusters, hp.width, hp.nbSnapshots,
    hp.snapshotsOffset, hp.length, h.plain.width]

/-- The chain is kept exactly if it was closed or had no records. -/
theorem chain_kept : chainOf cs m (dstFixedLen v) = chainOf cs disk hdr.headerLength ↔
    headerExtensionAreaEnd ⟨cs, disk⟩ hdr.headerLength ≠ none ∨
    chainOf cs disk hdr.headerLength = [] := by
  cases hchain : headerExtensionAreaEnd ⟨cs, disk⟩ hdr.headerLength with
  | some e => exact iff_of_true (h.chain_closed hchain).2 (.inl (Option.some_ne_none e))
  | none =>
    rw [(h.chain_unclosed hchain).2]
    exact ⟨fun hnil => .inr hnil.symm, fun hor => (hor.resolve_left (fun hne => hne rfl)).symm⟩

theorem parse_rebuilt : QcowHeader.parse ⟨cs, m⟩ = some (fieldsOf ⟨cs, m⟩) :=
  QcowHeader.parse_eq_some.mpr ⟨h.reparsed.accepted, rfl⟩

/-- The parts of the rebuilt cluster follow one another. -/
theorem laidOut : LaidOut cs m (fieldsOf ⟨cs, m⟩) := by
  have hp := h.reparsed
  refine ⟨fun hv => ?_, fun hsize => h.backing_none (hp.backingSize ▸ hsize), fun hsize => ?_,
    fun hsize e he => ?_⟩
  · rw [hp.version] at hv
    rw [hp.length, hv]
    exact le_rfl
  · obtain ⟨hoff, -, -⟩ := h.backing_moved (hp.backingSize ▸ hsize)
    rw [hp.length, hoff]
    omega
  · have hsize' : hdr.backingFileSize ≠ 0 := hp.backingSize ▸ hsize
    obtain ⟨hoff, hstart, -⟩ := h.backing_moved hsize'
    rw [hp.length] at he
    cases h.moves with
    | closed hchain _ _ =>
      rw [(h.chain_closed hchain).1] at he
      have hbefore := h.laid.apart hsize' _ hchain
      cases he
      omega
    | unclosed _ hnone _ => exact absurd hnone hsize'

/-- What a further rebuild moves: as much as this one, or the end marker it put in. -/
theorem tail_rebuilt : ∃ tail', TailOf cs m (fieldsOf ⟨cs, m⟩) tail' ∧ tail' ≤ max tail 8 ∧
    (headerExtensionAreaEnd ⟨cs, disk⟩ hdr.headerLength ≠ none → tail' = tail) := by
  have hp := h.reparsed
  have hcs := h.bounds
  have hdst := dstFixedLen_le v
  have hfits := h.fits
  have hstart : hdr.backingFileSize = 0 → hdr.backingFileOffset = 0 := h.laid.unnamed
  cases h.moves with
  | closed hchain hfarther hinside =>
    rename_i e
    refine ⟨tail, .closed (e := dstFixedLen v + (e - hdr.headerLength)) ?_ ?_ ?_, le_max_left _ _,
      fun _ => rfl⟩
    · rw [hp.length]
      exact (h.chain_closed hchain).1
    · rw [hp.length, hp.backingSize]
      by_cases hsize : hdr.backingFileSize = 0
      · rw [h.backing_none hsize, hsize]
        omega
      · obtain ⟨hoff, hname, -⟩ := h.backing_moved hsize
        omega
    · rw [hp.length]
      exact hfits
  | unclosed hchain hsize hnothing =>
    refine ⟨8, .closed (e := dstFixedLen v + 8) ?_ ?_ ?_, le_max_right _ _,
      fun hne => absurd hchain hne⟩
    · rw [hp.length]
      exact (h.chain_unclosed hchain).1
    · rw [hp.length, hp.backingSize, h.backing_none hsize, hsize]
      omega
    · rw [hp.length]
      omega

end Rebuilding

end Info

end Instar.Amend
