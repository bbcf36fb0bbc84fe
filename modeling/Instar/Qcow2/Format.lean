import Instar.Lib.ByteMap

/-!
# The qcow2 header and table entries

Field offsets and flag bits of `crates/qcow2`, the header parser, and the two readings of an L2
entry: a plain host offset with flags, or a compressed extent.  Fixed-width fields are natural
numbers below their width; a mask is a bitwise `and`, and `hostOf_eq` turns the offset mask into
arithmetic.
-/

namespace Instar.Qcow2

/-! ## Constants -/

/-- The all-zeroes flag of an L2 entry. -/
def qcowOflagZero : Nat := 1

/-- The compressed flag of an L2 entry. -/
def oflagCompressed : Nat := 2 ^ 62

/-- The copied flag of an L1 or L2 entry: the target's refcount is exactly one. -/
def oflagCopied : Nat := 2 ^ 63

/-- The table offset bits of an L1 entry. -/
def l1OffsetMask : Nat := 0x00fffffffffffe00

/-- The host offset bits of an L2 entry. -/
def l2OffsetMask : Nat := 0x00fffffffffffe00

def incompatDirty : Nat := 2 ^ 0
def incompatCorrupt : Nat := 2 ^ 1
def incompatExternalData : Nat := 2 ^ 2
def incompatCompression : Nat := 2 ^ 3
def incompatExtendedL2 : Nat := 2 ^ 4
def compatLazyRefcounts : Nat := 2 ^ 0

/-- The largest L1 size a header may declare. -/
def qcow2MaxL1SizeEntries : Nat := 4 * 1024 * 1024

/-- Where a version 2 header ends. -/
def v2HeaderExtensionOffset : Nat := 72

/-- The complement of a 64-bit mask. -/
def complU64 (mask : Nat) : Nat := 2 ^ 64 - 1 - mask

/-! ## The header -/

/-- The parsed header fields. -/
structure QcowHeader where
  version : Nat
  headerLength : Nat
  clusterBits : Nat
  clusterSize : Nat
  virtualSize : Nat
  l1Size : Nat
  l1TableOffset : Nat
  backingFileOffset : Nat
  backingFileSize : Nat
  cryptMethod : Nat
  refcountTableOffset : Nat
  refcountTableClusters : Nat
  refcountBits : Nat
  incompatibleFeatures : Nat
  compatibleFeatures : Nat
  compressionType : Nat
  nbSnapshots : Nat
  snapshotsOffset : Nat
  dirty : Bool
  corrupt : Bool
  hasExternalData : Bool
  extendedL2 : Bool
  lazyRefcounts : Bool
  deriving DecidableEq

/-- `div_ceil` of the standard library. -/
def divCeil (a b : Nat) : Nat := (a + b - 1) / b

/-- The fields the parser reads; what version 2 does not have gets its default. -/
def fieldsOf (header : Buffer) : QcowHeader :=
  let v3 := 3 ≤ header.be 4 4
  let incompatible := if v3 then header.be 72 8 else 0
  let compatible := if v3 then header.be 80 8 else 0
  { version := header.be 4 4
    headerLength := if v3 then header.be 100 4 else v2HeaderExtensionOffset
    clusterBits := header.be 20 4
    clusterSize := 2 ^ header.be 20 4
    virtualSize := header.be 24 8
    l1Size := header.be 36 4
    l1TableOffset := header.be 40 8
    backingFileOffset := header.be 8 8
    backingFileSize := header.be 16 4
    cryptMethod := header.be 32 4
    refcountTableOffset := header.be 48 8
    refcountTableClusters := header.be 56 4
    refcountBits := if v3 then (if header.be 96 4 ≤ 6 then 2 ^ header.be 96 4 else 16) else 16
    incompatibleFeatures := incompatible
    compatibleFeatures := compatible
    compressionType := if v3 then header.be 104 1 else 0
    nbSnapshots := header.be 60 4
    snapshotsOffset := header.be 64 8
    dirty := incompatible &&& incompatDirty ≠ 0
    corrupt := incompatible &&& incompatCorrupt ≠ 0
    hasExternalData := incompatible &&& incompatExternalData ≠ 0
    extendedL2 := incompatible &&& incompatExtendedL2 ≠ 0
    lazyRefcounts := compatible &&& compatLazyRefcounts ≠ 0 }

/-- Parse a header from the first bytes of an image. -/
def QcowHeader.parse (header : Buffer) : Option QcowHeader :=
  if header.len < 105 then none else
  let fields := fieldsOf header
  if fields.version ≠ 2 ∧ fields.version ≠ 3 then none else
  if ¬ (9 ≤ fields.clusterBits ∧ fields.clusterBits ≤ 21) then none else
  if fields.l1Size > qcow2MaxL1SizeEntries then none else
  let l2EntrySize := if fields.extendedL2 then 16 else 8
  let l2Coverage := fields.clusterSize * (fields.clusterSize / l2EntrySize)
  if divCeil fields.virtualSize l2Coverage > qcow2MaxL1SizeEntries then none else
  some fields

/-- What the parser checks. -/
structure Acceptable (header : Buffer) : Prop where
  len : 105 ≤ header.len
  version : header.be 4 4 = 2 ∨ header.be 4 4 = 3
  bits : 9 ≤ header.be 20 4 ∧ header.be 20 4 ≤ 21
  l1 : header.be 36 4 ≤ qcow2MaxL1SizeEntries
  covered : divCeil (header.be 24 8) (2 ^ header.be 20 4 *
    (2 ^ header.be 20 4 / if (fieldsOf header).extendedL2 then 16 else 8)) ≤ qcow2MaxL1SizeEntries

theorem QcowHeader.parse_eq_some {header : Buffer} {hdr : QcowHeader} :
    QcowHeader.parse header = some hdr ↔ Acceptable header ∧ hdr = fieldsOf header := by
  simp only [QcowHeader.parse, Option.ite_none_left_eq_some, Option.some.injEq]
  constructor
  · rintro ⟨hlen, hversion, hbits, hl1, hcovered, rfl⟩
    refine ⟨⟨not_lt.mp hlen, ?_, not_not.mp hbits, not_lt.mp hl1, not_lt.mp hcovered⟩, rfl⟩
    by_contra hne
    exact hversion (not_or.mp hne)
  · rintro ⟨⟨hlen, hversion, hbits, hl1, hcovered⟩, rfl⟩
    refine ⟨not_lt.mpr hlen, fun hne => ?_, not_not.mpr hbits, not_lt.mpr hl1,
      not_lt.mpr hcovered, rfl⟩
    exact hversion.elim hne.1 hne.2

/-- What every parsed header satisfies and the planner relies on. -/
structure QcowHeader.Parsed (hdr : QcowHeader) : Prop where
  bits_ge : 9 ≤ hdr.clusterBits
  bits_le : hdr.clusterBits ≤ 21
  size_eq : hdr.clusterSize = 2 ^ hdr.clusterBits
  virtual_lt : hdr.virtualSize < 2 ^ 64
  l1_le : hdr.l1Size ≤ qcow2MaxL1SizeEntries
  l1Offset_lt : hdr.l1TableOffset < 2 ^ 64

variable {hdr : QcowHeader} {host : Nat}

/-- The parser only returns headers with a legal cluster size and bounded fields. -/
theorem QcowHeader.parse_parsed {header : Buffer} (h : QcowHeader.parse header = some hdr) :
    hdr.Parsed := by
  obtain ⟨hacc, rfl⟩ := QcowHeader.parse_eq_some.mp h
  exact ⟨hacc.bits.1, hacc.bits.2, rfl, ByteMap.be_lt _ 24 8, hacc.l1, ByteMap.be_lt _ 40 8⟩

/-- `QcowHeader::parse` reads the first 105 bytes. -/
theorem parse_congr {header header' : Buffer} (hlen : header.len < 105 ↔ header'.len < 105)
    (hbytes : ∀ i < 105, header.bytes i = header'.bytes i) :
    QcowHeader.parse header = QcowHeader.parse header' := by
  have hbe : ∀ off n, off + n ≤ 105 → header.be off n = header'.be off n := fun off n h =>
    ByteMap.be_congr fun i hi => hbytes _ (by omega)
  have hfields : fieldsOf header = fieldsOf header' := by
    simp only [fieldsOf, hbe 4 4 (by omega), hbe 100 4 (by omega), hbe 20 4 (by omega),
      hbe 24 8 (by omega), hbe 36 4 (by omega), hbe 96 4 (by omega), hbe 72 8 (by omega),
      hbe 80 8 (by omega), hbe 104 1 (by omega), hbe 40 8 (by omega), hbe 8 8 (by omega),
      hbe 16 4 (by omega), hbe 32 4 (by omega), hbe 48 8 (by omega), hbe 56 4 (by omega),
      hbe 60 4 (by omega), hbe 64 8 (by omega)]
  simp only [QcowHeader.parse, hlen, hfields]

/-- The header of a small version 3 image: 512-byte clusters, three L2 tables' worth of virtual
disk, refcount table in cluster 1, L1 in cluster 3. -/
def tinyHeader : Buffer :=
  ⟨105, fun i => match i with
    | 0 => 0x51 | 1 => 0x46 | 2 => 0x49 | 3 => 0xfb | 7 => 3 | 23 => 9 | 29 => 1 | 30 => 0x80
    | 39 => 3 | 46 => 6 | 54 => 2 | 59 => 1 | 99 => 4 | 103 => 104 | _ => 0⟩

/-- What `tinyHeader` parses to. -/
def tinyHdr : QcowHeader :=
  { version := 3, headerLength := 104, clusterBits := 9, clusterSize := 512, virtualSize := 98304
    l1Size := 3, l1TableOffset := 1536, backingFileOffset := 0, backingFileSize := 0
    cryptMethod := 0, refcountTableOffset := 512, refcountTableClusters := 1, refcountBits := 16
    incompatibleFeatures := 0, compatibleFeatures := 0, compressionType := 0, nbSnapshots := 0
    snapshotsOffset := 0, dirty := false, corrupt := false, hasExternalData := false
    extendedL2 := false, lazyRefcounts := false }

theorem tinyHeader_parse : QcowHeader.parse tinyHeader = some tinyHdr := by decide +kernel

theorem QcowHeader.Parsed.size_dvd (h : hdr.Parsed) : 512 ∣ hdr.clusterSize := by
  rw [h.size_eq]
  exact pow_dvd_pow 2 h.bits_ge

theorem QcowHeader.Parsed.size_pos (h : hdr.Parsed) : 0 < hdr.clusterSize := by
  rw [h.size_eq]
  exact Nat.two_pow_pos _

theorem QcowHeader.Parsed.size_le (h : hdr.Parsed) : hdr.clusterSize ≤ 2 ^ 21 := by
  rw [h.size_eq]
  exact Nat.pow_le_pow_right (by decide) h.bits_le

/-! ## Table entries -/

/-- The host offset an L1 or L2 entry names. -/
def hostOf (entry : Nat) : Nat := entry &&& l2OffsetMask

/-- The host extent of a compressed L2 entry: byte offset and byte length. -/
def parseCompressedL2Entry (entry clusterBits : Nat) : Option (Nat × Nat) :=
  let csizeShift := 62 - (clusterBits - 8)
  let csizeMask := 2 ^ (clusterBits - 8) - 1
  let offsetMask := 2 ^ csizeShift - 1
  let compressedOffset := entry &&& offsetMask
  let nbSectors := (entry >>> csizeShift &&& csizeMask) + 1
  let nbSectorsBytes := nbSectors * 512
  let offsetRemainder := compressedOffset &&& 511
  if ¬ nbSectorsBytes < 2 ^ 64 then none
  else if nbSectorsBytes < offsetRemainder then none
  else if nbSectorsBytes - offsetRemainder = 0 then none
  else some (compressedOffset, nbSectorsBytes - offsetRemainder)

/-- The offset mask keeps bits 9 to 55. -/
theorem hostOf_eq (entry : Nat) : hostOf entry = entry / 2 ^ 9 % 2 ^ 47 * 2 ^ 9 :=
  and_run_eq entry 9 47

theorem hostOf_lt (entry : Nat) : hostOf entry < 2 ^ 56 := by
  rw [hostOf_eq]
  omega

/-- The copied flag does not change the host offset. -/
theorem hostOf_or_copied (h : host < 2 ^ 63) : hostOf (host ||| oflagCopied) = hostOf host := by
  have hor : host ||| oflagCopied = 2 ^ 63 * 1 + host := by
    rw [Nat.two_pow_add_eq_or_of_lt h, Nat.lor_comm]
    rfl
  rw [hor, hostOf_eq, hostOf_eq]
  omega

/-- The entry a planner patch installs names its host offset. -/
theorem hostOf_patched (hlt : host < 2 ^ 56) (hdvd : 512 ∣ host) :
    hostOf (host ||| oflagCopied) = host := by
  rw [hostOf_or_copied (by omega), hostOf_eq]
  omega

theorem and_two_pow_ne_zero (e i : Nat) : e &&& 2 ^ i ≠ 0 ↔ e.testBit i = true := by
  rw [Nat.and_two_pow]
  cases e.testBit i <;> simp

theorem testBit_or_copied (host i : Nat) :
    (host ||| oflagCopied).testBit i = (host.testBit i || decide (i = 63)) := by
  rw [Nat.testBit_or, oflagCopied, Nat.testBit_two_pow]
  simp [eq_comm]

/-- A planner patch sets neither the compressed flag nor the zero flag. -/
theorem patched_plain (hlt : host < 2 ^ 56) : (host ||| oflagCopied) &&& oflagCompressed = 0 := by
  by_contra h
  have hbit := (and_two_pow_ne_zero _ 62).mp h
  have hhost : host.testBit 62 = false := Nat.testBit_lt_two_pow (by omega)
  rw [testBit_or_copied, hhost] at hbit
  cases hbit

theorem patched_nonzero (hdvd : 512 ∣ host) : (host ||| oflagCopied) &&& qcowOflagZero = 0 := by
  by_contra h
  have hbit := (and_two_pow_ne_zero _ 0).mp h
  have hhost : host.testBit 0 = false := by
    rw [Nat.testBit_zero]
    simp only [decide_eq_false_iff_not]
    omega
  rw [testBit_or_copied, hhost] at hbit
  cases hbit

theorem or_copied_lt (h : host < 2 ^ 63) : host ||| oflagCopied < 2 ^ 64 :=
  Nat.or_lt_two_pow (by omega) (by decide)

end Instar.Qcow2
