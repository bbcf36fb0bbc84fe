import Instar.Read.Shown
import Instar.Resize.Flavour

/-!
# The header a resize writes

`build_header` makes a header from a handful of parameters.  `headerOf` is what it parses to, and
`rewritten` is that header for the parameters a resize takes from the image.
-/

namespace Instar.Resize

open Instar.Qcow2 ByteMap QcowHeader

/-- The parsed form of the header that `build_header` writes. -/
def headerOf (layout : Qcow2Layout) (lazyRefcounts : Bool) : QcowHeader :=
  { version := 3
    headerLength := qcow2HeaderLengthV3
    clusterBits := layout.clusterBits
    clusterSize := 2 ^ layout.clusterBits
    virtualSize := layout.virtualSize
    l1Size := layout.l1Entries
    l1TableOffset := layout.l1Offset
    backingFileOffset := 0
    backingFileSize := 0
    cryptMethod := 0
    refcountTableOffset := layout.refcountTableOffset
    refcountTableClusters := layout.refcountTableClusters
    refcountBits := layout.refcountBits
    incompatibleFeatures := if layout.extendedL2 then incompatExtendedL2 else 0
    compatibleFeatures := if lazyRefcounts then compatLazyRefcounts else 0
    compressionType := 0
    nbSnapshots := 0
    snapshotsOffset := 0
    dirty := false
    corrupt := false
    hasExternalData := false
    extendedL2 := layout.extendedL2
    lazyRefcounts }

/-- The fields of a layout fit in a header that parses. -/
structure Fits (layout : Qcow2Layout) : Prop where
  bits_ge : 9 ≤ layout.clusterBits
  bits_le : layout.clusterBits ≤ 21
  width : LegalWidth layout.refcountBits
  size : layout.virtualSize < 2 ^ 64
  entries : layout.l1Entries ≤ qcow2MaxL1SizeEntries
  covered : divCeil layout.virtualSize (l2Coverage (2 ^ layout.clusterBits) layout.extendedL2) ≤
    qcow2MaxL1SizeEntries
  l1Offset : layout.l1Offset < 2 ^ 64
  tableOffset : layout.refcountTableOffset < 2 ^ 64
  tableClusters : layout.refcountTableClusters < 2 ^ 32

variable {m : ByteMap} {lazyRefcounts : Bool} {layout : Qcow2Layout} {header : Buffer}

/-- A legal width is the power of two of its order. -/
theorem order_of_width {width : Nat} (h : LegalWidth width) :
    trailingZeros width ≤ 6 ∧ 2 ^ trailingZeros width = width := by
  unfold LegalWidth at h
  simp only [List.mem_cons, List.not_mem_nil, or_false] at h
  rcases h with rfl | rfl | rfl | rfl | rfl | rfl | rfl <;> decide

section

variable (m : ByteMap) (layout : Qcow2Layout) (lazyRefcounts : Bool)

/-- The fields that a written header takes from no size and no offset. -/
structure Fixed : Prop where
  magic : m.be 0 4 = qcow2Magic
  version : m.be 4 4 = 3
  backingOffset : m.be 8 8 = 0
  backingSize : m.be 16 4 = 0
  bits : m.be 20 4 = layout.clusterBits
  crypt : m.be 32 4 = 0
  snapshots : m.be 60 4 = 0
  snapshotsOffset : m.be 64 8 = 0
  features : m.be 72 8 = if layout.extendedL2 then incompatExtendedL2 else 0
  compatible : m.be 80 8 = if lazyRefcounts then compatLazyRefcounts else 0
  autoclear : m.be 88 8 = 0
  order : m.be 96 4 = trailingZeros layout.refcountBits
  length : m.be 100 4 = qcow2HeaderLengthV3
  rest : m.be 104 4 = 0

/-- The fields of the header that `build_header` writes. -/
structure Written : Prop extends Fixed m layout lazyRefcounts where
  size : m.be 24 8 = layout.virtualSize
  l1Entries : m.be 36 4 = layout.l1Entries
  l1Offset : m.be 40 8 = layout.l1Offset
  tableOffset : m.be 48 8 = layout.refcountTableOffset
  tableClusters : m.be 56 4 = layout.refcountTableClusters

end

/-- The bytes of a zero field are zero. -/
theorem be_take_zero {off k n : Nat} (h : m.be off (k + n) = 0) : m.be off k = 0 := by
  induction n with
  | zero => exact h
  | succ n ih =>
    have hsum : m.be off (k + n) * 256 + (m (off + (k + n))).toNat = 0 := h
    exact ih (by omega)

theorem headerBytes_fixed (hbits : layout.clusterBits ≤ 21)
    (hwidth : LegalWidth layout.refcountBits) (lazyRefcounts : Bool) :
    Fixed (headerBytes layout lazyRefcounts) layout lazyRefcounts := by
  have horder := (order_of_width hwidth).1
  constructor <;> simp (disch := omega) only [headerBytes, be_writeBe_outside, be_zeros]
  case magic | version | crypt | length | rest => exact be_writeBe (by decide)
  case bits | order => exact be_writeBe (by omega)
  case features | compatible =>
    refine be_writeBe ?_
    split <;> decide

/-- They depend on the first 108 bytes. -/
theorem Fixed.congr {m' : ByteMap} (hf : Fixed m layout lazyRefcounts)
    (h : ∀ i < 108, m' i = m i) : Fixed m' layout lazyRefcounts := by
  have hbe : ∀ off n, off + n ≤ 108 → m'.be off n = m.be off n := fun off n hle =>
    be_congr fun i hi => h _ (by omega)
  exact ⟨(hbe 0 4 (by omega)).trans hf.magic, (hbe 4 4 (by omega)).trans hf.version,
    (hbe 8 8 (by omega)).trans hf.backingOffset, (hbe 16 4 (by omega)).trans hf.backingSize,
    (hbe 20 4 (by omega)).trans hf.bits, (hbe 32 4 (by omega)).trans hf.crypt,
    (hbe 60 4 (by omega)).trans hf.snapshots, (hbe 64 8 (by omega)).trans hf.snapshotsOffset,
    (hbe 72 8 (by omega)).trans hf.features, (hbe 80 8 (by omega)).trans hf.compatible,
    (hbe 88 8 (by omega)).trans hf.autoclear, (hbe 96 4 (by omega)).trans hf.order,
    (hbe 100 4 (by omega)).trans hf.length, (hbe 104 4 (by omega)).trans hf.rest⟩

theorem headerBytes_written (hf : Fits layout) (lazyRefcounts : Bool) :
    Written (headerBytes layout lazyRefcounts) layout lazyRefcounts := by
  have hentries : layout.l1Entries < 256 ^ 4 := by
    have := hf.entries
    unfold qcow2MaxL1SizeEntries at this
    omega
  have hsize := hf.size
  have hl1 := hf.l1Offset
  have htable := hf.tableOffset
  have hclusters := hf.tableClusters
  refine ⟨headerBytes_fixed hf.bits_le hf.width lazyRefcounts, ?_, ?_, ?_, ?_, ?_⟩
  all_goals
    simp (disch := omega) only [headerBytes, be_writeBe_outside]
    exact be_writeBe (by omega)

/-- A header with these fields parses to its parameters. -/
theorem Written.parse (hf : Fits layout) {sector : Nat}
    (hsector : 105 ≤ sector) (hw : Written m layout lazyRefcounts) :
    parse ⟨sector, m⟩ = some (headerOf layout lazyRefcounts) := by
  obtain ⟨hle, hpow⟩ := order_of_width hf.width
  have hfields : fieldsOf ⟨sector, m⟩ = headerOf layout lazyRefcounts := by
    have hbe : ∀ off n, Buffer.be ⟨sector, m⟩ off n = m.be off n := fun _ _ => rfl
    have hcompression : m.be 104 1 = 0 := be_take_zero (n := 3) hw.rest
    unfold fieldsOf headerOf
    simp only [hbe, hw.version, hw.backingOffset, hw.backingSize, hw.bits, hw.size, hw.crypt,
      hw.l1Entries, hw.l1Offset, hw.tableOffset, hw.tableClusters, hw.snapshots, hw.snapshotsOffset,
      hw.features, hw.compatible, hw.order, hw.length, hcompression, le_refl, if_true,
      if_pos hle, hpow]
    cases layout.extendedL2 <;> cases lazyRefcounts <;> rfl
  have hbits : (Buffer.mk sector m).be 20 4 = layout.clusterBits := hw.bits
  have hentries : (Buffer.mk sector m).be 36 4 = layout.l1Entries := hw.l1Entries
  have hsize : (Buffer.mk sector m).be 24 8 = layout.virtualSize := hw.size
  refine parse_eq_some.mpr ⟨⟨hsector, .inr hw.version, ?_, ?_, ?_⟩, hfields.symm⟩
  · exact hbits ▸ ⟨hf.bits_ge, hf.bits_le⟩
  · exact hentries ▸ hf.entries
  · rw [hfields, hbits, hsize]
    exact hf.covered

/-! ## The parameters a resize takes from the image -/

theorem features_of_validated {features : Nat} (hlt : features < 2 ^ 64)
    (h : validateIncompat features = .ok ()) : features = 0 ∨ features = incompatExtendedL2 := by
  have hsmall : features < 32 := by
    have hmask : features &&& complU64 31 = 0 := by
      by_contra hne
      have hrefused : validateIncompat features = .error (.error .unsupportedFormat) := if_pos hne
      rw [hrefused] at h
      cases h
    have heq : features &&& complU64 31 = features / 2 ^ 5 % 2 ^ 59 * 2 ^ 5 :=
      and_run_eq features 5 59
    omega
  have hall : ∀ f < 32, validateIncompat f = .ok () → f = 0 ∨ f = incompatExtendedL2 := by decide
  exact hall features hsmall h

/-- What a parsed header's fields are bounded by, and how the flags follow from the feature
words. -/
structure Bounded (hdr : QcowHeader) : Prop where
  features_lt : hdr.incompatibleFeatures < 2 ^ 64
  tableOffset_lt : hdr.refcountTableOffset < 2 ^ 64
  tableClusters_lt : hdr.refcountTableClusters < 2 ^ 32
  ext : hdr.extendedL2 = decide (hdr.incompatibleFeatures &&& incompatExtendedL2 ≠ 0)

section

variable (h : parse header = some hdr)

include h

theorem parse_bounded : Bounded hdr := by
  obtain ⟨-, rfl⟩ := parse_eq_some.mp h
  refine ⟨?_, be_lt _ 48 8, be_lt _ 56 4, rfl⟩
  show (if 3 ≤ header.be 4 4 then header.be 72 8 else 0) < 2 ^ 64
  split
  · exact be_lt _ 72 8
  · decide

theorem parse_len : 105 ≤ header.len := (parse_eq_some.mp h).1.len

theorem parse_covered :
    divCeil hdr.virtualSize (l2Coverage hdr.clusterSize hdr.extendedL2) ≤
    qcow2MaxL1SizeEntries := by
  obtain ⟨hacc, rfl⟩ := parse_eq_some.mp h
  exact hacc.covered

end

variable {hdr : QcowHeader}

theorem rewritten_features (hb : Bounded hdr)
    (h : validateIncompat hdr.incompatibleFeatures = .ok ()) :
    (if hdr.extendedL2 then incompatExtendedL2 else 0) = hdr.incompatibleFeatures := by
  rw [hb.ext]
  rcases features_of_validated hb.features_lt h with hf | hf <;> rw [hf] <;> decide

/-- The header of a resize that keeps what the planner takes from the image. -/
def rewritten (hdr : QcowHeader) (virtualSize l1Entries l1Offset tableOffset tableClusters : Nat) :
    QcowHeader :=
  headerOf (headerLayout hdr hdr.clusterBits virtualSize l1Entries l1Offset tableOffset
    tableClusters) hdr.lazyRefcounts

theorem size_lt_of_covered (hp : hdr.Parsed) {size : Nat}
    (h : divCeil size (l2Coverage hdr.clusterSize hdr.extendedL2) ≤ qcow2MaxL1SizeEntries) :
    size < 2 ^ 64 := by
  have hcs := hp.size_le
  have hcov : l2Coverage hdr.clusterSize hdr.extendedL2 ≤ 2 ^ 21 * 2 ^ 18 := by
    refine Nat.mul_le_mul hcs ?_
    unfold l2EntrySize
    split <;> omega
  have hpos := l2Coverage_pos (Nat.le_of_dvd hp.size_pos hp.size_dvd) hdr.extendedL2
  calc size ≤ divCeil size (l2Coverage hdr.clusterSize hdr.extendedL2) *
        l2Coverage hdr.clusterSize hdr.extendedL2 := le_divCeil_mul hpos
    _ ≤ qcow2MaxL1SizeEntries * (2 ^ 21 * 2 ^ 18) := Nat.mul_le_mul h hcov
    _ < 2 ^ 64 := by decide

theorem rewritten_parse (hp : hdr.Parsed) (hw : LegalWidth hdr.refcountBits)
    {size l1Entries l1Offset tableOffset tableClusters sector : Nat} (hsector : 105 ≤ sector)
    (hcovered : divCeil size (l2Coverage hdr.clusterSize hdr.extendedL2) ≤ qcow2MaxL1SizeEntries)
    (hentries : l1Entries ≤ qcow2MaxL1SizeEntries) (hl1 : l1Offset < 2 ^ 64)
    (htable : tableOffset < 2 ^ 64) (hclusters : tableClusters < 2 ^ 32)
    (hm : ∀ i < hdr.clusterSize,
      m i = headerBytes (headerLayout hdr hdr.clusterBits size l1Entries l1Offset
      tableOffset tableClusters) hdr.lazyRefcounts i) : parse ⟨sector, m⟩ =
      some (rewritten hdr size l1Entries l1Offset tableOffset tableClusters) := by
  have hfits : Fits (headerLayout hdr hdr.clusterBits size l1Entries l1Offset tableOffset
      tableClusters) :=
    ⟨hp.bits_ge, hp.bits_le, hw, size_lt_of_covered hp hcovered, hentries, hp.size_eq ▸ hcovered,
      hl1, htable, hclusters⟩
  have h512 : 512 ≤ hdr.clusterSize := Nat.le_of_dvd hp.size_pos hp.size_dvd
  have hsame : parse ⟨sector, m⟩ = parse ⟨sector, headerBytes
      (headerLayout hdr hdr.clusterBits size l1Entries l1Offset tableOffset tableClusters)
        hdr.lazyRefcounts⟩ :=
    parse_congr Iff.rfl fun i hi => hm i (by omega)
  rw [hsame, (headerBytes_written hfits _).parse hfits hsector, rewritten]

end Instar.Resize
