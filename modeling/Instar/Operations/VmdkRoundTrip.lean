import Instar.Operations.VmdkWrite
import Mathlib.Data.Nat.Digits.Lemmas

/-!
# What a reader finds in a converted VMDK

The directory, the header and the descriptor are written behind the loops.  Put together with the
layout of the grains and tables they give what the grain lookup finds at every offset; the header
survives the descriptor only for some sector sizes, and a grain that was skipped reads as zero only
if the table buffer had nothing at its entry.
-/

namespace Instar.Convert

open Fallible Read ByteMap VmdkState VmdkJob

/-! ## The descriptor -/

variable {len i pos capacitySectors : Nat}

/-- Pieces that fit are put down as one text. -/
theorem putPieces_eq (pieces : List (List UInt8)) (buf : ByteMap)
    (h : pos + pieces.flatten.length ≤ len) :
    putPieces len pieces pos buf =
    buf.splice pos pieces.flatten.length (ofList pieces.flatten) := by
  induction pieces generalizing pos buf with
  | nil => exact (splice_zero _ _ _).symm
  | cons piece rest ih =>
    rw [List.flatten_cons, List.length_append] at h ⊢
    have hhead : ∀ i < piece.length, ofList piece i = ofList (piece ++ rest.flatten) i := by
      intro i hi
      unfold ofList
      rw [List.getD_append _ _ _ _ hi]
    have htail : ofList rest.flatten = (ofList (piece ++ rest.flatten)).drop piece.length := by
      funext i
      show _ = (piece ++ rest.flatten).getD (piece.length + i) 0
      rw [List.getD_append_right _ _ _ _ (Nat.le_add_right _ _), Nat.add_sub_cancel_left]
      rfl
    rw [putPieces, if_pos (by omega), ih _ (by omega), htail, splice_congr hhead, splice_splice]

/-- The text of the descriptor. -/
def descriptorText (capacitySectors : Nat) : List UInt8 :=
  (descriptorPieces capacitySectors).flatten

theorem formatU64_length {v : Nat} (h : v < 2 ^ 64) : (formatU64 v).length ≤ 20 := by
  unfold formatU64
  split
  · decide
  · rw [List.length_map, List.length_reverse, Nat.digits_length_le_iff (by decide)]
    exact lt_of_lt_of_le h (by decide)

theorem descriptorText_length (h : capacitySectors < 2 ^ 64) :
    (descriptorText capacitySectors).length < 512 := by
  have hdigits := formatU64_length h
  have hlength : (descriptorText capacitySectors).length =
      168 + (formatU64 capacitySectors).length := by
    simp only [descriptorText, descriptorPieces, List.flatten_cons, List.flatten_nil,
      List.length_append, List.append_nil]
    simp [ascii]
    omega
  omega

theorem buildDescriptor_eq {offset : Nat} (hcap : capacitySectors < 2 ^ 64)
    (hlen : offset + 512 ≤ len) (buf : ByteMap) : buildDescriptor len buf offset capacitySectors =
      buf.splice offset (descriptorText capacitySectors).length
        (ofList (descriptorText capacitySectors)) := by
  have htext := descriptorText_length hcap
  exact putPieces_eq _ buf (by unfold descriptorText at htext; omega)

/-- What lies in front of the pieces stays. -/
theorem putPieces_before (pieces : List (List UInt8)) (buf : ByteMap)
    (hi : i < pos) : putPieces len pieces pos buf i = buf i := by
  induction pieces generalizing pos buf with
  | nil => rfl
  | cons piece rest ih =>
    rw [putPieces, ih _ (by omega)]
    split
    · exact splice_outside (.inl hi)
    · rfl

theorem buildDescriptor_magic (hlen : 512 ≤ len) (buf : ByteMap) (capacitySectors : Nat) :
    (buildDescriptor len buf 0 capacitySectors).le 0 4 ≠ vmdk4Magic := by
  have hfirst : ∀ i < 4, buildDescriptor len buf 0 capacitySectors (0 + i) =
      ofList (ascii "# Disk DescriptorFile\n") (0 + i) := by
    intro i hi
    have hlength : (ascii "# Disk DescriptorFile\n").length = 22 := by decide
    unfold buildDescriptor descriptorPieces
    rw [putPieces, putPieces_before _ _ (by omega), if_pos (by omega),
      splice_mem (Nat.zero_le _) (by omega), Nat.sub_zero]
  rw [le_congr hfirst]
  decide

namespace VmdkJob

variable {job : VmdkJob} {content : Nat → Option UInt8} {st : VmdkLoop} {o o' : Output}
  {g x p gd d : Nat} {inp : Inputs}

/-! ## The directory -/

/-- The grains and tables are on the output, and the directory behind them. -/
structure Finished (job : VmdkJob) (content : Nat → Option UInt8) (o : Output) : Prop where
  image : job.Image content job.numGdEntries (job.firstGrain job.numGdEntries) o
  directory : ∀ g < job.numGdEntries, o.bytes.le (job.gdPos content + g * 4) 4 =
    if job.isUsed content g = true then job.tablePos content g / 512 % 2 ^ 32 else 0

/-- The header and the descriptor keep away from what lies behind them. -/
theorem Finished.write (h : job.Finished content o) {buf : ByteMap}
    (hbytes : o'.bytes = o.bytes.splice p len buf) (hlen : p + len ≤ job.grainDataStart) :
    job.Finished content o' where
  image := by
    refine h.image.write hbytes (fun m _ _ => .inr ?_) fun g' _ _ => .inr ?_
    · unfold grainPos
      omega
    · unfold tablePos
      omega
  directory g hg := by
    rw [hbytes, le_splice_outside]
    · exact h.directory g hg
    · unfold gdPos
      omega

theorem writeGd_triple (h : job.Between content job.numGdEntries st o) (I : ReaderState → Prop) :
    Triple (fun s => I s.reader ∧ s.out = o) (job.writeGd st) fun _ s =>
      I s.reader ∧ job.Finished content s.out := by
  have hpos := job.dev.sectorSize_pos
  have hgt : gtBytes ≤ job.gtAlloc := gtBytes_le_gtAlloc
  have hgs : job.grainSize ≤ job.grainAlloc := grainSize_le_grainAlloc
  have hdvd : job.dev.sectorSize ∣ job.gdPos content := sectorSize_dvd_pos _ _
  have hplace : alignUp st.nextFreeByte job.dev.sectorSize = job.gdPos content := by
    rw [h.free]
    exact alignUp_of_dvd hpos hdvd
  unfold writeGd
  dsimp only
  rw [hplace]
  refine (writeAligned_triple hdvd _ _ I o).bind fun _ => .pure fun s hs => ⟨hs.1, ?_⟩
  have hbytes := hs.2.1
  generalize hlen : max (alignUp job.gdBytes job.dev.sectorSize) job.dev.sectorSize = len at hbytes
  have hge : job.gdBytes ≤ alignUp len job.dev.sectorSize := by
    have h1 : job.gdBytes ≤ alignUp job.gdBytes job.dev.sectorSize := le_alignUp hpos
    have h2 : len ≤ alignUp len job.dev.sectorSize := le_alignUp hpos
    omega
  refine ⟨?_, fun g hg => ?_⟩
  · refine h.image.write hbytes (fun m hm hw => .inl ?_) fun g' hg' hused => .inl ?_
    · have := grainPos_add_le_gdPos hw hm
      omega
    · have := tablePos_add_le_gdPos hused hg' (le_of_lt (firstGrain_eq hg'))
      omega
  · have hin : g * 4 + 4 ≤ job.gdBytes := by
      unfold gdBytes
      omega
    have hgd : (splice (st.bufGt.splice 0 job.dev.sectorSize fun _ => 0) 0 job.gdBytes st.gd).le
        (0 + g * 4) 4 = st.gd.le (g * 4) 4 := le_splice_inside hin
    rw [hbytes, le_splice_inside (by omega), ← zero_add (g * 4), hgd, h.directory g]
    simp only [hg, true_and]

/-! ## The header -/

section

variable (job : VmdkJob) (gdOffsetSectors : Nat) (bytes : ByteMap)

/-- The fields of a header that names the directory. -/
structure HeaderFields : Prop where
  magic : bytes.le 0 4 = vmdk4Magic
  version : bytes.le 4 4 = 1
  flags : bytes.le 8 4 = 1
  capacity : bytes.le 12 8 = job.capacitySectors
  grainSize : bytes.le 20 8 = job.grainSizeSectors
  descOffset : bytes.le 28 8 = 1
  descSize : bytes.le 36 8 = descSectors
  gtes : bytes.le 44 4 = gtesPerGt
  gdOffset : bytes.le 56 8 = gdOffsetSectors

/-- The header, and the descriptor's exact text, which ends where a zero byte follows; the parser of
descriptors is not modelled. -/
structure Headed : Prop where
  fields : job.HeaderFields gdOffsetSectors bytes
  text : ∀ i < (descriptorText job.capacitySectors).length,
    bytes (512 + i) = ofList (descriptorText job.capacitySectors) i
  textEnd : bytes (512 + (descriptorText job.capacitySectors).length) = 0

end

/-- The numbers of the image fit into the fields they are kept in. -/
structure Addressable (job : VmdkJob) (content : Nat → Option UInt8) : Prop where
  size : job.declaredSize + 511 < 2 ^ 64
  grain : job.grainSize < 2 ^ 64
  entries : (job.capacitySectors + job.sectorsPerGt - 1) / job.sectorsPerGt < 2 ^ 32
  places : job.gdPos content ≤ 2 ^ 32 * 512

/-- The header and the descriptor have one sector, or sectors of their own. -/
def HeaderKept (job : VmdkJob) : Prop :=
  job.dev.sectorSize = 512 ∨ 512 + descSectors * 512 ≤ job.dev.sectorSize

theorem HeaderFields.congr {bytes bytes' : ByteMap} (h : job.HeaderFields gd bytes)
    (heq : ∀ i < 512, bytes' i = bytes i) : job.HeaderFields gd bytes' := by
  have hle : ∀ off n, off + n ≤ 512 → bytes'.le off n = bytes.le off n := fun off n hin =>
    le_congr fun i hi => heq _ (by omega)
  exact {
    magic := (hle _ _ (by decide)).trans h.magic
    version := (hle _ _ (by decide)).trans h.version
    flags := (hle _ _ (by decide)).trans h.flags
    capacity := (hle _ _ (by decide)).trans h.capacity
    grainSize := (hle _ _ (by decide)).trans h.grainSize
    descOffset := (hle _ _ (by decide)).trans h.descOffset
    descSize := (hle _ _ (by decide)).trans h.descSize
    gtes := (hle _ _ (by decide)).trans h.gtes
    gdOffset := (hle _ _ (by decide)).trans h.gdOffset }

theorem buildSparseHeader_fields (hcap : job.capacitySectors < 256 ^ 8)
    (hgss : job.grainSizeSectors < 256 ^ 8) (hgd : gd < 256 ^ 8) (buf : ByteMap) (overhead : Nat) :
    job.HeaderFields gd
      (buildSparseHeader buf job.capacitySectors job.grainSizeSectors gtesPerGt gd overhead) := by
  constructor
  -- in each field the later ones are passed over
  all_goals simp (disch := omega) only [buildSparseHeader, putLe, le_splice_outside]
  exacts [le_splice_ofLe (by decide), le_splice_ofLe (by decide),
    le_splice_ofLe (by decide), le_splice_ofLe hcap, le_splice_ofLe hgss,
    le_splice_ofLe (by decide), le_splice_ofLe (by decide),
    le_splice_ofLe (by decide), le_splice_ofLe hgd]

theorem buildSparseHeader_behind (buf : ByteMap) (cap gss gtes gd overhead : Nat)
    (hi : 512 ≤ i) : buildSparseHeader buf cap gss gtes gd overhead i = buf i := by
  simp (disch := omega) only [buildSparseHeader, putLe, splice_outside]

theorem capacitySectors_lt (h : job.declaredSize + 511 < 2 ^ 64) : job.capacitySectors < 2 ^ 64 :=
  lt_of_le_of_lt (Nat.div_le_self _ _) h

/-- The header as it is built in the buffer. -/
def header (job : VmdkJob) (gdByteOffset : Nat) (buf : ByteMap) : ByteMap :=
  buildSparseHeader (buf.splice 0 job.dev.sectorSize fun _ => 0) job.capacitySectors
    job.grainSizeSectors gtesPerGt (gdByteOffset / 512) (job.grainDataStart / 512)

theorem header_fields (haddr : job.Addressable content) (buf : ByteMap) :
    job.HeaderFields (job.gdPos content / 512) (job.header (job.gdPos content) buf) := by
  refine buildSparseHeader_fields (capacitySectors_lt haddr.size) ?_ ?_ _ _
  · exact lt_of_le_of_lt (Nat.div_le_self _ _) haddr.grain
  · exact lt_of_le_of_lt (Nat.div_le_self _ _) (lt_of_le_of_lt haddr.places (by decide))

theorem header_behind (gdByteOffset : Nat) (buf : ByteMap) (hi : 512 ≤ i)
    (hin : i < job.dev.sectorSize) : job.header gdByteOffset buf i = 0 := by
  rw [header, buildSparseHeader_behind _ _ _ _ _ _ hi]
  exact splice_mem (Nat.zero_le _) (by omega)

/-- With room for the header and the descriptor in one sector, both are written at once. -/
theorem writeHeader_one (h : job.Finished content o) (haddr : job.Addressable content)
    (hone : 512 + descSectors * 512 ≤ job.dev.sectorSize) (buf : ByteMap) (I : ReaderState → Prop) :
    Triple (fun s => I s.reader ∧ s.out = o) (job.writeHeader (job.gdPos content) buf) fun _ s =>
      I s.reader ∧ job.Finished content s.out ∧
          job.Headed (job.gdPos content / 512) s.out.bytes := by
  have hpos := job.dev.sectorSize_pos
  have hcap := capacitySectors_lt haddr.size
  have htext := descriptorText_length hcap
  have hoss : 1024 ≤ job.dev.sectorSize := le_trans (by decide) hone
  unfold writeHeader
  rw [if_pos hone, buildDescriptor_eq hcap hoss]
  refine (writeAligned_triple (Nat.dvd_zero _) _ _ I o).mono (fun _ hs => hs) fun _ s hs =>
    ⟨hs.1, ?_⟩
  have hbytes := hs.2.1
  rw [alignUp_of_dvd hpos (dvd_refl _)] at hbytes
  have hfinished := h.write hbytes (by rw [zero_add]; exact sectorSize_le_grainDataStart)
  have hbuild : ∀ i < job.dev.sectorSize, s.out.bytes i =
      (job.header (job.gdPos content) buf).splice 512 (descriptorText job.capacitySectors).length
        (ofList (descriptorText job.capacitySectors)) i := fun i hi => by
    rw [hbytes, splice_mem (Nat.zero_le i) (by omega)]
    rfl
  refine ⟨hfinished, (header_fields haddr buf).congr fun i hi => ?_, fun i hi => ?_, ?_⟩
  · rw [hbuild i (by omega), splice_outside (.inl hi)]
  · rw [hbuild (512 + i) (by omega), splice_inside hi]
  · rw [hbuild _ (by omega), splice_outside (.inr le_rfl),
      header_behind _ _ (Nat.le_add_right _ _) (by omega)]

/-- With sectors of 512 bytes, the descriptor starts in the second one. -/
theorem writeHeader_two (h : job.Finished content o) (haddr : job.Addressable content)
    (htwo : job.dev.sectorSize = 512) (buf : ByteMap) (I : ReaderState → Prop) :
    Triple (fun s => I s.reader ∧ s.out = o) (job.writeHeader (job.gdPos content) buf) fun _ s =>
      I s.reader ∧ job.Finished content s.out ∧
          job.Headed (job.gdPos content / 512) s.out.bytes := by
  have hcap := capacitySectors_lt haddr.size
  have htext := descriptorText_length hcap
  have hdata : 512 + descSectors * 512 ≤ job.grainDataStart := header_le_grainDataStart
  have hheader : alignUp (alignUp 512 512) 512 = 512 := by decide
  have hdesc : alignUp (alignUp (descSectors * 512) 512) 512 = descSectors * 512 := by decide
  unfold writeHeader
  rw [if_neg (by rw [htwo]; decide), buildDescriptor_eq hcap (by rw [htwo])]
  refine (writeAligned_triple (Nat.dvd_zero _) _ _ I o).bind fun _ => ?_
  intro s a s' hs hrun
  obtain ⟨hI, hbytes, -⟩ := hs
  obtain ⟨hI', hbytes', -⟩ := writeAligned_triple (by rw [htwo]) _ _ I s.out s a s' ⟨hI, rfl⟩ hrun
  rw [htwo, hheader] at hbytes
  rw [htwo, hdesc] at hbytes'
  have hfinished := (h.write hbytes (le_trans (by decide) hdata)).write hbytes' hdata
  clear hdata hheader hdesc
  refine ⟨hI', hfinished, (header_fields haddr buf).congr fun i hi => ?_, fun i hi => ?_, ?_⟩
  · rw [hbytes', splice_outside (.inl hi), hbytes,
      splice_mem (Nat.zero_le _) (by omega), Nat.sub_zero, header, htwo]
  · rw [hbytes', splice_inside (lt_of_lt_of_le (lt_trans hi htext) (by decide)),
      splice_mem (Nat.zero_le _) (by omega), Nat.sub_zero]
  · rw [hbytes', splice_inside (lt_of_lt_of_le htext (by decide)),
      splice_outside (.inr (by omega)), splice_mem (Nat.zero_le _) (by omega)]

/-- With sectors in between, the descriptor is written over the header. -/
theorem writeHeader_lost (hlost : ¬ job.HeaderKept) (gdByteOffset : Nat) (buf : ByteMap)
    (I : ReaderState → Prop) (o : Output) :
    Triple (fun s => I s.reader ∧ s.out = o) (job.writeHeader gdByteOffset buf) fun _ s =>
      s.out.bytes.le 0 4 ≠ vmdk4Magic := by
  have hge : 512 ≤ job.dev.sectorSize := sectorSize_ge
  have hne : job.dev.sectorSize ≠ 512 := fun h => hlost (.inl h)
  have hsmall : ¬ 512 + descSectors * 512 ≤ job.dev.sectorSize := fun h => hlost (.inr h)
  have hcount : 1 ≤ (alignUp (descSectors * 512) job.dev.sectorSize + job.dev.sectorSize - 1) /
      job.dev.sectorSize := by
    have hle : descSectors * 512 ≤ alignUp (descSectors * 512) job.dev.sectorSize :=
      le_alignUp job.dev.sectorSize_pos
    unfold descSectors at hle
    exact (Nat.one_le_div_iff job.dev.sectorSize_pos).mpr (by unfold descSectors; omega)
  unfold writeHeader
  rw [if_neg hsmall]
  refine (OutputDevice.writeBytesToOutput_triple _ _ _ I o).bind fun _ => ?_
  intro s a s' hs hrun
  have hdesc := (OutputDevice.writeBytesToOutput_triple _ _ _ I s.out s a s' ⟨hs.1,
    rfl⟩ hrun).2.bytes
  -- the first sector is the one that byte 512 lies in
  rw [Nat.div_eq_of_lt (show 512 < job.dev.sectorSize by omega), zero_mul] at hdesc
  have hin := Nat.mul_le_mul_right job.dev.sectorSize hcount
  rw [hdesc, ← Nat.zero_add 0, le_splice_inside (by omega)]
  exact buildDescriptor_magic hge _ _

/-! ## Opening the image -/

/-- The end of the file, behind the directory. -/
def fileEnd (job : VmdkJob) (content : Nat → Option UInt8) : Nat :=
  job.gdPos content + max (alignUp job.gdBytes job.dev.sectorSize) job.dev.sectorSize

/-- Device `d` holds the whole of a file that ends at `fileEnd`. -/
structure Presents (bytes : ByteMap) (fileEnd : Nat) (inp : Inputs) (d : Nat) : Prop where
  bytes : (inp.device d).bytes = bytes
  readable : ∀ sector, (inp.device d).readable sector = true
  sector : 512 ≤ inp.sectorSize
  covers : fileEnd ≤ (inp.device d).capacity * inp.sectorSize
  width : (inp.device d).capacity * inp.sectorSize < 2 ^ 64

/-- What a reader keeps of the header. -/
structure Opened (job : VmdkJob) (content : Nat → Option UInt8) (st : VmdkState) : Prop where
  grain : st.grainSizeSectors = job.grainSizeSectors
  gtes : st.numGtesPerGt = gtesPerGt
  directory : st.gdOffsetSectors = job.gdPos content / 512
  entries : st.numGdEntries = job.numGdEntries
  zeroGrain : st.hasZeroGrain = false
  compressed : st.isCompressed = false

theorem grainSizeSectors_pow : ∃ k, job.grainSizeSectors = 2 ^ k := by
  obtain ⟨k, hlo, hk⟩ := job.grain_pow
  refine ⟨k - 9, ?_⟩
  unfold grainSizeSectors
  rw [hk, show 512 = 2 ^ 9 from rfl, Nat.pow_div (by omega) (by decide)]

theorem and_pred_of_pow {n : Nat} (h : ∃ k, n = 2 ^ k) : n &&& (n - 1) = 0 := by
  obtain ⟨k, rfl⟩ := h
  rw [Nat.and_two_pow_sub_one_eq_mod, Nat.mod_self]

/-- The image that was written can be opened. -/
theorem init_total (hheaded : job.HeaderFields (job.gdPos content / 512) o.bytes)
    (haddr : job.Addressable content) (hdeclared : 0 < job.declaredSize)
    (hdev : Presents o.bytes (job.fileEnd content) inp d) (size : Nat) :
    Total (fun _ => True) (init inp d size) fun st _ => job.Opened content st := by
  have hpos : 0 < job.grainSizeSectors := grainSizeSectors_pos
  have hcap0 : job.capacitySectors ≠ 0 := by
    unfold capacitySectors
    omega
  have hcap : job.capacitySectors * 512 < 2 ^ 64 := by
    have := haddr.size
    unfold capacitySectors
    omega
  have hgrain : job.grainSizeSectors * 512 ≤ 2 ^ 63 := by
    have hlt := haddr.grain
    obtain ⟨k, -, hk⟩ := job.grain_pow
    rw [← grainSize_eq, hk]
    rw [hk] at hlt
    exact Nat.pow_le_pow_right (by decide)
      (Nat.le_of_lt_succ ((Nat.pow_lt_pow_iff_right (by decide)).mp hlt))
  have hper : job.sectorsPerGt = 512 * job.grainSizeSectors := rfl
  have hentries0 : (job.capacitySectors + job.sectorsPerGt - 1) / job.sectorsPerGt ≠ 0 :=
    ne_of_gt (Nat.div_pos (by omega) (by omega))
  have hentries : (job.capacitySectors + (job.sectorsPerGt - 1)) / job.sectorsPerGt =
      job.numGdEntries := by
    unfold numGdEntries
    rw [Nat.mod_eq_of_lt haddr.entries, Nat.add_sub_assoc (by omega)]
  -- the directory lies inside the device
  have hcovers := hdev.covers
  have hlast : job.gdPos content + job.gdBytes ≤ job.fileEnd content ∧
      job.gdPos content < job.fileEnd content := by
    have hle : job.gdBytes ≤ alignUp job.gdBytes job.dev.sectorSize :=
      le_alignUp job.dev.sectorSize_pos
    have hsec := job.dev.sectorSize_pos
    unfold fileEnd
    omega
  have hwidth := hdev.width
  have hdvd : 512 ∣ job.gdPos content := dvd_trans dvd_sectorSize (sectorSize_dvd_pos _ _)
  have hplace : job.gdPos content / 512 * 512 = job.gdPos content := Nat.div_mul_cancel hdvd
  have hgd : job.gdBytes = job.numGdEntries * 4 := rfl
  have hread : inp.readInputSector d 0 = some o.bytes := by
    rw [Inputs.readInputSector, if_pos (hdev.readable 0), hdev.bytes, zero_mul, drop_zero]
  refine (Total.ofOption hread).bind fun b => .assume fun hb => ?_
  subst hb
  have hfields : job.HeaderFields (job.gdPos content / 512)
      (splice (fun _ => 0) 0 inp.sectorSize o.bytes) := by
    refine hheaded.congr fun i hi => ?_
    have := hdev.sector
    rw [splice_mem (Nat.zero_le _) (by omega), Nat.sub_zero]
  refine (Total.ofOption (a := job.capacitySectors * 512) ?_).bind fun _ => .assume fun _ => ?_
  · rw [hfields.capacity]
    exact checkedU64_of_lt hcap
  refine (Total.ofOption (a := job.grainSizeSectors * 512) ?_).bind fun _ => .assume fun _ => ?_
  · rw [hfields.grainSize]
    exact checkedU64_of_lt (lt_of_le_of_lt hgrain (by decide))
  refine (Total.require ?_).bind fun _ => ?_
  · rw [hfields.version]
    decide
  refine (Total.require ?_).bind fun _ => ?_
  · rwa [hfields.capacity]
  refine (Total.require ?_).bind fun _ => ?_
  · rw [hfields.grainSize]
    exact ⟨ne_of_gt hpos, and_pred_of_pow grainSizeSectors_pow⟩
  refine (Total.require ?_).bind fun _ => ?_
  · rw [hfields.gtes]
    decide
  refine (Total.ofOption (a := job.sectorsPerGt) ?_).bind fun per => .assume fun hp => ?_
  · rw [hfields.gtes, hfields.grainSize]
    exact checkedU64_of_lt (show job.sectorsPerGt < 2 ^ 64 by omega)
  subst hp
  refine (Total.ofOption (a := job.capacitySectors + (job.sectorsPerGt - 1)) ?_).bind
    fun rounded => .assume fun hr => ?_
  · rw [hfields.capacity]
    exact checkedU64_of_lt (by omega)
  subst hr
  refine (Total.require ?_).bind fun _ => ?_
  · rw [hentries]
    unfold numGdEntries
    rw [Nat.mod_eq_of_lt haddr.entries]
    exact ⟨haddr.entries, hentries0⟩
  have hfooter : gdOffset (σ := ReaderState) inp d size
      ((splice (fun _ => 0) 0 inp.sectorSize o.bytes).le 56 8) =
      pure (job.gdPos content / 512) := by
    rw [hfields.gdOffset]
    exact if_neg (by have := haddr.places; unfold gdAtEnd; omega)
  rw [hfooter]
  refine (Total.pure (Q := fun a _ => a = job.gdPos content / 512 ∧ True)
    fun _ _ => ⟨rfl, trivial⟩).bind fun off => .assume fun hoff => ?_
  subst hoff
  refine (Total.ofOption (checkedU64_of_lt hwidth)).bind fun actual => .assume fun ha => ?_
  refine (Total.ofOption (a := job.gdPos content) ?_).bind fun byte => .assume fun hbyte => ?_
  · rw [hplace]
    exact checkedU64_of_lt (by omega)
  subst hbyte
  refine (Total.require (by omega)).bind fun _ => ?_
  refine (Total.ofOption (a := job.gdPos content + job.gdBytes) ?_).bind
    fun gdEnd => .assume fun hend => ?_
  · rw [hentries]
    exact checkedU64_of_lt (by omega)
  refine (Total.require (by omega)).bind fun _ => ?_
  refine .pure fun _ _ => ⟨hfields.grainSize, hfields.gtes, rfl, hentries, ?_, ?_⟩
  · show decide (le _ 8 4 &&& 2 ^ 2 ≠ 0) = false
    rw [hfields.flags]
    rfl
  · show decide (le _ 8 4 &&& 2 ^ 16 ≠ 0) = false
    rw [hfields.flags]
    rfl

/-! ## Looking up grains -/

/-- The byte that a reader finds at `x`. -/
def foundByte (job : VmdkJob) (content : Nat → Option UInt8) (x : Nat) : UInt8 :=
  let grain := x / job.grainSize
  if job.isUsed content (grain / gtesPerGt) = true then
    match job.entered content (grain / gtesPerGt) (grain % gtesPerGt) with
    | some src => job.grainByte content src (x % job.grainSize)
    | none => 0
  else 0

theorem grain_lt (hx : x < job.declaredSize) : x / job.grainSize < job.totalGrains := by
  have hgss : 0 < job.grainSizeSectors := grainSizeSectors_pos
  refine (Nat.lt_div_iff_mul_lt hgss).mpr ?_
  have hle := Nat.div_mul_le_self x job.grainSize
  rw [grainSize_eq, ← mul_assoc] at hle
  rw [grainSize_eq]
  unfold capacitySectors
  omega

variable (h : (job.capacitySectors + job.sectorsPerGt - 1) / job.sectorsPerGt < 2 ^ 32)

include h

/-- With the number of entries in 32 bits, every grain has a table. -/
theorem totalGrains_le : job.totalGrains ≤ job.numGdEntries * gtesPerGt := by
  have hgss : 0 < job.grainSizeSectors := grainSizeSectors_pos
  have hper : 0 < job.sectorsPerGt := mul_pos (by decide) hgss
  unfold numGdEntries totalGrains
  rw [Nat.mod_eq_of_lt h]
  generalize hn : (job.capacitySectors + job.sectorsPerGt - 1) / job.sectorsPerGt = n
  have hdiv := Nat.div_add_mod' (job.capacitySectors + job.sectorsPerGt - 1) job.sectorsPerGt
  have hmod := Nat.mod_lt (job.capacitySectors + job.sectorsPerGt - 1) hper
  have hmul : n * job.sectorsPerGt = n * gtesPerGt * job.grainSizeSectors := (mul_assoc _ _ _).symm
  rw [hn] at hdiv
  refine Nat.le_of_lt_succ ((Nat.div_lt_iff_lt_mul hgss).mpr ?_)
  rw [Nat.succ_mul]
  omega

theorem firstGrain_numGdEntries : job.firstGrain job.numGdEntries = job.totalGrains :=
  min_eq_right (totalGrains_le h)

omit h

/-- A place in front of the directory is named by an entry that is not zero. -/
theorem place_width (haddr : job.Addressable content) (hdvd : job.dev.sectorSize ∣ p)
    (hlo : job.grainDataStart ≤ p) (hhi : p < job.gdPos content) :
    p / 512 % 2 ^ 32 ≠ 0 ∧ p / 512 % 2 ^ 32 * 512 = p := by
  have hplaces := haddr.places
  have hdata : 512 ≤ job.grainDataStart := le_trans (by decide) header_le_grainDataStart
  have hmul : p / 512 * 512 = p := Nat.div_mul_cancel (dvd_trans dvd_sectorSize hdvd)
  rw [Nat.mod_eq_of_lt (by omega)]
  exact ⟨by omega, hmul⟩

section

variable (hfinished : job.Finished content o) (haddr : job.Addressable content) {st : VmdkState}
  (hopen : job.Opened content st)

include hfinished haddr hopen

theorem gteAt_found (hx : x < job.declaredSize) :
    st.gteAt o.bytes x = if job.isUsed content (x / job.grainSize / gtesPerGt) = true then
      some (job.entryOf content (job.entered content (x / job.grainSize / gtesPerGt)
        (x / job.grainSize % gtesPerGt))) else none := by
  have hgrain := grain_lt hx
  have hgd : x / 512 / (gtesPerGt * job.grainSizeSectors) = x / job.grainSize / gtesPerGt := by
    rw [grainSize_eq, Nat.div_div_eq_div_mul, Nat.div_div_eq_div_mul]
    congr 1
    ring
  have hgt : x / 512 / job.grainSizeSectors = x / job.grainSize := by
    rw [grainSize_eq, Nat.div_div_eq_div_mul, mul_comm]
  have htable : x / job.grainSize / gtesPerGt < job.numGdEntries :=
    (Nat.div_lt_iff_lt_mul (by decide)).mpr (lt_of_lt_of_le hgrain (totalGrains_le haddr.entries))
  have hplace : job.gdPos content / 512 * 512 = job.gdPos content :=
    Nat.div_mul_cancel (dvd_trans dvd_sectorSize (sectorSize_dvd_pos _ _))
  unfold gteAt
  rw [hopen.gtes, hopen.grain, hopen.entries, hopen.directory, hgd, hgt, hplace,
    if_neg (not_le.mpr htable), hfinished.directory _ htable]
  by_cases hused : job.isUsed content (x / job.grainSize / gtesPerGt) = true
  · have hend := tablePos_add_le_gdPos hused htable (le_of_lt (firstGrain_eq htable))
    have hpos : 0 < job.gtAlloc := lt_of_lt_of_le (by decide) gtBytes_le_gtAlloc
    obtain ⟨hne, hmul⟩ := place_width haddr (p :=
      job.tablePos content (x / job.grainSize / gtesPerGt))
      (sectorSize_dvd_pos _ _) (by unfold tablePos; omega) (by omega)
    rw [if_pos hused, if_pos hused, if_neg hne, hmul,
      hfinished.image.tables _ htable hused _ (Nat.mod_lt _ (by decide))]
  · rw [if_neg hused, if_neg hused, if_pos rfl]

theorem held_found (hbytes : (inp.device d).bytes = o.bytes) (codec : Codec)
    (hx : x < job.declaredSize) :
    layered [st.held codec inp d] x = some (job.foundByte content x) := by
  have hgte := gteAt_found hfinished haddr hopen hx
  have hsize : st.grainSizeBytes = job.grainSize := by
    rw [grainSizeBytes, hopen.grain, grainSize_eq]
  have hzero := hopen.zeroGrain
  have hplain := hopen.compressed
  unfold foundByte
  by_cases hused : job.isUsed content (x / job.grainSize / gtesPerGt) = true
  · rw [if_pos hused] at hgte ⊢
    cases hentered : job.entered content (x / job.grainSize / gtesPerGt)
      (x / job.grainSize % gtesPerGt) with
    | none =>
      rw [hentered] at hgte
      have habsent : st.held codec inp d x = .absent := by
        rw [held, hbytes, verdict, hgte]
        rfl
      rw [layered_absent habsent]
      rfl
    | some src =>
      obtain ⟨hsrc, hw⟩ := isWritten_of_entered hentered
      have hsrc' : src < job.firstGrain job.numGdEntries := by
        rwa [firstGrain_numGdEntries haddr.entries]
      have hend := grainPos_add_le_gdPos hw hsrc'
      have hpos : 0 < job.grainAlloc :=
        lt_of_lt_of_le (lt_of_lt_of_le (by decide) grainSize_ge) grainSize_le_grainAlloc
      obtain ⟨hne, hmul⟩ := place_width haddr (p := job.grainPos content src)
        (sectorSize_dvd_pos _ _) (by unfold grainPos; omega) (by omega)
      have hy : x % job.grainSize < job.grainSize :=
        Nat.mod_lt _ (lt_of_lt_of_le (by decide) grainSize_ge)
      rw [hentered] at hgte
      refine layered_gives ?_
      rw [held, hbytes, verdict, hgte]
      simp only [classifyGte, entryOf, hzero, hplain, hne, if_false, Bool.false_eq_true,
        false_and, hmul, hsize]
      rw [hfinished.image.grains src hsrc' hw _ hy]
  · rw [if_neg hused] at hgte ⊢
    have habsent : st.held codec inp d x = .absent := by
      rw [held, hbytes, verdict, hgte]
    rw [layered_absent habsent]
    rfl

end

/-! ## The round trip -/

section

variable (job : VmdkJob) (content : Nat → Option UInt8)

/-- What the image is to have at `x`: the byte of the window, or zero past it. -/
def windowByte (x : Nat) : Option UInt8 :=
  if x < job.outVsize then content (job.readStart + x) else some 0

/-- The output is an image of the window: header and descriptor can be read, and on any device that
holds the file the grain lookup gives the window, and zeros up to the declared size. -/
structure RoundTrips (bytes : ByteMap) : Prop where
  header : ∃ gdOffsetSectors, job.Headed gdOffsetSectors bytes
  reads : 0 < job.declaredSize → ∀ (codec : Codec) (inp : Inputs) (d actualFileSize : Nat)
    (s : ReaderState), Presents bytes (job.fileEnd content) inp d →
    ∃ st s', init inp d actualFileSize s = (some st, s') ∧
      ∀ x < job.declaredSize, layered [st.held codec inp d] x = job.windowByte content x

/-- The buffer has the place of a grain of table `g'` at index `j` when that entry of table `g` is
skipped: the cleared sector does not reach the index, and no grain was entered there since. -/
structure Shadows (g' g j : Nat) : Prop where
  before : g' < g
  kept : job.dev.sectorSize ≤ j * 4
  written : job.isEntered content g' j = true
  since : ∀ k, g' < k → k ≤ g → job.isEntered content k j = false

/-- Wherever the table of a skipped grain has the place of an earlier grain, that one is zero too,
as far as the image goes. -/
def NoShadow : Prop :=
  ∀ g' g j, j < gtesPerGt → job.Shadows content g' g j → job.isUsed content g = true →
    g * gtesPerGt + j < job.totalGrains →
    ∀ y < job.grainSize, (g * gtesPerGt + j) * job.grainSize + y < job.declaredSize →
      job.grainByte content (g' * gtesPerGt + j) y = 0

end

theorem windowByte_eq (hfinished : job.Finished content o) (haddr : job.Addressable content)
    (hx : x < job.declaredSize) : job.windowByte content x =
      some (job.grainByte content (x / job.grainSize) (x % job.grainSize)) := by
  have hpos : 0 < job.grainSize := lt_of_lt_of_le (by decide) grainSize_ge
  have hmod := Nat.mod_lt x hpos
  have hknown := hfinished.image.known (x / job.grainSize)
    (by rw [firstGrain_numGdEntries haddr.entries]; exact grain_lt hx) (x % job.grainSize)
  unfold windowByte grainByte
  rw [Nat.div_add_mod'] at hknown ⊢
  by_cases hin : x < job.outVsize
  · rw [if_pos hin, if_pos hin]
    have hdiv := Nat.div_add_mod' x job.grainSize
    obtain ⟨b, hb⟩ := Option.isSome_iff_exists.mp (hknown (by unfold thisChunk; split <;> omega))
    rw [hb]
    rfl
  · rw [if_neg hin, if_neg hin]

theorem grainByte_of_not_entered {grain y : Nat} (hlt : grain < job.totalGrains)
    (h : job.isEntered content (grain / gtesPerGt) (grain % gtesPerGt) = false)
    (hy : y < job.grainSize) : job.grainByte content grain y = 0 := by
  refine grainByte_of_not_written (fun hw => ?_) hy
  unfold isEntered at h
  rw [Nat.div_add_mod', hw, decide_eq_true hlt] at h
  cases h

/-- The reader finds the window exactly if no earlier grain shines through. -/
theorem foundByte_iff : (∀ x < job.declaredSize, job.foundByte content x =
      job.grainByte content (x / job.grainSize) (x % job.grainSize)) ↔ job.NoShadow content := by
  have hpos : 0 < job.grainSize := lt_of_lt_of_le (by decide) grainSize_ge
  constructor
  · intro hfound g' g j hj hshadow hused hlt y hy hin
    have hgrain : ((g * gtesPerGt + j) * job.grainSize + y) / job.grainSize =
        g * gtesPerGt + j := by
      rw [mul_comm, Nat.mul_add_div hpos, Nat.div_eq_of_lt hy, add_zero]
    have hrest : ((g * gtesPerGt + j) * job.grainSize + y) % job.grainSize = y := by
      rw [mul_comm, Nat.mul_add_mod, Nat.mod_eq_of_lt hy]
    have htable : (g * gtesPerGt + j) / gtesPerGt = g := by
      rw [mul_comm, Nat.mul_add_div (by decide), Nat.div_eq_of_lt hj, add_zero]
    have hindex : (g * gtesPerGt + j) % gtesPerGt = j := by
      rw [mul_comm, Nat.mul_add_mod, Nat.mod_eq_of_lt hj]
    have hnot : job.isEntered content g j = false := hshadow.since g hshadow.before (Nat.le_refl g)
    have hentered : job.entered content g j = some (g' * gtesPerGt + j) := by
      rw [entered, hnot, if_neg Bool.false_ne_true]
      exact stale_eq_some_iff.mpr ⟨g', rfl, hshadow.kept, hshadow.before, hshadow.written,
        fun k hlo hhi => hshadow.since k hlo (le_of_lt hhi)⟩
    have hbyte := hfound _ hin
    unfold foundByte at hbyte
    simp only [hgrain, hrest, htable, hindex, hused, if_true, hentered] at hbyte
    rw [hbyte]
    exact grainByte_of_not_entered hlt (by rwa [htable, hindex]) hy
  · intro hno x hx
    have hlt := grain_lt hx
    have hmod := Nat.mod_lt x hpos
    have hsplit := Nat.div_add_mod' (x / job.grainSize) gtesPerGt
    have hindex := Nat.mod_lt (x / job.grainSize) (show 0 < gtesPerGt by decide)
    unfold foundByte
    dsimp only
    cases hnot : job.isEntered content (x / job.grainSize / gtesPerGt)
      (x / job.grainSize % gtesPerGt) with
    | true =>
      have hused : job.isUsed content (x / job.grainSize / gtesPerGt) = true :=
        List.any_eq_true.mpr ⟨_, List.mem_range.mpr hindex, hnot⟩
      rw [if_pos hused, entered, if_pos hnot, hsplit]
    | false =>
      rw [grainByte_of_not_entered hlt hnot hmod]
      split
      next hused =>
        rw [entered, hnot, if_neg Bool.false_ne_true]
        cases hstale : job.stale content (x / job.grainSize / gtesPerGt)
          (x / job.grainSize % gtesPerGt) with
        | none => rfl
        | some src =>
          obtain ⟨g', rfl, hkept, hbefore, hw, hsince⟩ := stale_eq_some_iff.mp hstale
          refine hno g' _ _ hindex ⟨hbefore, hkept, hw, fun k hlo hhi =>
            ?_⟩ hused (by rwa [hsplit]) _ hmod ?_
          · by_cases heq : k = x / job.grainSize / gtesPerGt
            · rw [heq]
              exact hnot
            · exact hsince k hlo (by omega)
          · rwa [hsplit, Nat.div_add_mod']
      · rfl

/-- What a run that succeeds has written. -/
theorem run_finished {read : Nat → Nat → Fallible ReaderState ByteMap} {I : ReaderState → Prop}
    (hread : ∀ off len, Ensures I (read off len) (Gives content off len)) {bufData : ByteMap}
    {s s' : ConvertState} (hs : I s.reader) (hrun : job.run read bufData s = (some (), s')) :
    ∃ buf s1, I s1.reader ∧ job.Finished content s1.out ∧
      job.writeHeader (job.gdPos content) buf s1 = (some (), s') := by
  obtain ⟨_, s0, hroom, hrest⟩ := eq_some_of_bind hrun
  have hs0 : I s0.reader :=
    (Triple.require (P := fun s : ConvertState => I s.reader) s _ s0 hs hroom).2
  obtain ⟨st, s1, htables, hrest⟩ := eq_some_of_bind hrest
  obtain ⟨hs1, hbetween⟩ := tables_triple hread bufData s0 st s1 hs0 htables
  obtain ⟨buf, s2, hgd, hheader⟩ := eq_some_of_bind hrest
  obtain ⟨hs2, hfinished⟩ := writeGd_triple hbetween I s1 buf s2 ⟨hs1, rfl⟩ hgd
  refine ⟨buf, s2, hs2, hfinished, ?_⟩
  have hplace : alignUp st.nextFreeByte job.dev.sectorSize = job.gdPos content := by
    rw [hbetween.free]
    exact alignUp_of_dvd job.dev.sectorSize_pos (sectorSize_dvd_pos _ _)
  rwa [hplace] at hheader

/-- A device that holds a file. -/
def fileDevice (bytes : ByteMap) : Inputs :=
  ⟨512, sector_pos, fun _ => ⟨2 ^ 54, bytes, fun _ => true⟩⟩

theorem fileDevice_presents (haddr : job.Addressable content) (bytes : ByteMap) :
    Presents bytes (job.fileEnd content) (fileDevice bytes) 0 := by
  refine ⟨rfl, fun _ => rfl, le_rfl, ?_, show 2 ^ 54 * 512 < 2 ^ 64 by decide⟩
  show job.fileEnd content ≤ 2 ^ 54 * 512
  have hplaces := haddr.places
  have hentries : job.numGdEntries < 2 ^ 32 := Nat.mod_lt _ (by decide)
  obtain ⟨k, -, hk, hsector⟩ := job.sector_pow
  have hsize : job.dev.sectorSize ≤ 2 ^ 16 := by
    rw [hsector]
    exact Nat.pow_le_pow_right (by decide) hk
  have halign := Nat.div_mul_le_self (job.gdBytes + job.dev.sectorSize - 1) job.dev.sectorSize
  unfold fileEnd alignUp
  unfold gdBytes at halign ⊢
  omega

end VmdkJob

/-- The image that `convert_to_vmdk` leaves after a run that reports success.  With numbers that fit
their fields it is an image of the window exactly if the header and the descriptor have one sector
or sectors of their own and no skipped grain shows an earlier one; a header that shares a sector
with the start of the descriptor is lost in any case. -/
theorem convertToVmdk_roundTrips_iff {cx : ChainReader} {n : Nat} {job : VmdkJob}
    {content : Nat → Option UInt8} {bufData : ByteMap} {s s' : ConvertState}
    (hreads : cx.ReadsGive n 0 content s.reader)
    (hrun : convertToVmdk cx n job bufData s = (some (), s')) :
    (job.RoundTrips content s'.out.bytes → job.HeaderKept) ∧ (job.Addressable content →
        (job.RoundTrips content s'.out.bytes ↔ job.HeaderKept ∧ job.NoShadow content)) := by
  obtain ⟨I, hI, hread⟩ := hreads
  obtain ⟨buf, s1, hI1, hfinished, hheader⟩ := run_finished hread hI hrun
  have hkept : job.RoundTrips content s'.out.bytes → job.HeaderKept := by
    intro htrips
    by_contra hlost
    obtain ⟨gd, hheaded⟩ := htrips.header
    exact writeHeader_lost hlost _ buf I s1.out s1 () s' ⟨hI1, rfl⟩ hheader hheaded.fields.magic
  refine ⟨hkept, fun haddr => ?_⟩
  have hdone : job.HeaderKept →
      job.Finished content s'.out ∧ job.Headed (job.gdPos content / 512) s'.out.bytes := by
    rintro (htwo | hone)
    · exact (writeHeader_two hfinished haddr htwo buf I s1 () s' ⟨hI1, rfl⟩ hheader).2
    · exact (writeHeader_one hfinished haddr hone buf I s1 () s' ⟨hI1, rfl⟩ hheader).2
  constructor
  · intro htrips
    refine ⟨hkept htrips, foundByte_iff.mp fun x hx => ?_⟩
    obtain ⟨hdone, hheaded⟩ := hdone (hkept htrips)
    -- open the image on some device, with some codec and from some state
    have hdev := fileDevice_presents haddr s'.out.bytes
    obtain ⟨st, r, hinit, hbytes⟩ := htrips.reads (by omega) cx.codec _ 0 0 s.reader hdev
    obtain ⟨st', r', hinit', hopen⟩ :=
      init_total hheaded.fields haddr (by omega) hdev 0 s.reader trivial
    rw [hinit] at hinit'
    cases hinit'
    have hbyte := hbytes x hx
    rw [held_found hdone haddr hopen rfl _ hx, windowByte_eq hdone haddr hx] at hbyte
    exact Option.some.inj hbyte
  · rintro ⟨hkept, hno⟩
    obtain ⟨hdone, hheaded⟩ := hdone hkept
    refine ⟨⟨_, hheaded⟩, fun hdeclared codec inp d size r hdev => ?_⟩
    obtain ⟨st, r', hinit, hopen⟩ := init_total hheaded.fields haddr hdeclared hdev size r trivial
    refine ⟨st, r', hinit, fun x hx => ?_⟩
    rw [held_found hdone haddr hopen hdev.bytes codec hx, windowByte_eq hdone haddr hx,
      foundByte_iff.mpr hno x hx]

/-- An image of one grain, of which 600 bytes lie in the window. -/
def smallJob (k : Nat) (hlo : 9 ≤ k) (hhi : k ≤ 16) : VmdkJob where
  dev := ⟨2 ^ k, Nat.two_pow_pos k, 64⟩
  sector_pow := ⟨k, hlo, hhi, rfl⟩
  grainSize := 4096
  grain_pow := ⟨12, by decide, rfl⟩
  skipZeros := true
  readStart := 0
  outVsize := 600
  declaredSize := 1024
  gdLimit := 4096

/-- A raw input whose only byte other than zero is at `mark`, on a config that gives it the cluster
size of the job. -/
def markedChain (clusterSize mark : Nat) : ChainReader :=
  opened copyCodec (markedInputs 512 sector_pos (fun _ => mark / 512 + 1) 0 mark)
    ⟨1, fun _ => ⟨.raw, false, mark + 1, 0, clusterSize, 0⟩, [⟨0, 1⟩]⟩

theorem markedChain_init (clusterSize mark : Nat) :
    (markedChain clusterSize mark).Initialised (fun _ => none) (fun _ => 0)
      (openedStart (markedChain clusterSize mark).inp (markedChain clusterSize mark).config) :=
  opened_init rfl

theorem markedChain_coherent (clusterSize mark : Nat) :
    (markedChain clusterSize mark).Coherent ((markedChain clusterSize mark).layers 1 0) := by
  have hunits : ∀ d ∈ (markedChain clusterSize mark).layers 1 0, ∀ u,
      (markedChain clusterSize mark).unitOf d = some u → u = 0 := fun _ _ _ hu => nomatch hu
  exact coherent_of_unit (expand_isSome fun _ _ _ => rfl) hunits fun _ _ h => nomatch h

/-- The state in which the conversion of a raw input with a byte at 5 starts. -/
def smallStart : ConvertState :=
  ⟨openedStart (markedChain 512 5).inp (markedChain 512 5).config, .blank fun _ => true⟩

/-- The image that is left. -/
def smallImage (job : VmdkJob) : ByteMap :=
  (convertToVmdk (markedChain 512 5) 1 job (fun _ => 0) smallStart).2.out.bytes

/-- With sectors of 512 bytes the image is right. -/
theorem smallImage_roundTrips :
    (smallJob 9 (by decide) (by decide)).RoundTrips ((markedChain 512 5).content 1 0)
      (smallImage (smallJob 9 (by decide) (by decide))) := by
  have hrun : (convertToVmdk (markedChain 512 5) 1 (smallJob 9 (by decide) (by decide)) (fun _ => 0)
      smallStart).1 = some () := by decide +kernel
  have haddr : (smallJob 9 (by decide) (by decide)).Addressable ((markedChain 512 5).content 1 0) :=
    ⟨by decide, by decide, by decide, by decide +kernel⟩
  have hno : (smallJob 9 (by decide) (by decide)).NoShadow ((markedChain 512 5).content 1 0) := by
    intro g' g j _ hshadow _ hlt
    have hbefore := hshadow.before
    rw [show (smallJob 9 (by decide) (by decide)).totalGrains = 1 by decide] at hlt
    unfold gtesPerGt at hlt
    omega
  have hreads := (markedChain_init 512 5).readsGive (markedChain_coherent 512 5)
    fun _ _ off len _ => ChainReader.fits_of_format (show ImageFormat.raw ∈ _ by decide) off len
  unfold smallImage
  generalize hpair : convertToVmdk (markedChain 512 5) 1 (smallJob 9 (by decide) (by decide))
    (fun _ => 0) smallStart = pair at hrun ⊢
  obtain ⟨result, s'⟩ := pair
  subst hrun
  exact ((convertToVmdk_roundTrips_iff hreads hpair).2 haddr).mpr ⟨.inl rfl, hno⟩

/-- With sectors of 1024 bytes the run reports success, and the descriptor is where the header
was. -/
theorem smallImage_loses_header :
    (convertToVmdk (markedChain 512 5) 1 (smallJob 10 (by decide) (by decide)) (fun _ => 0)
      smallStart).1 = some () ∧
    ¬ (smallJob 10 (by decide) (by decide)).RoundTrips ((markedChain 512 5).content 1 0)
      (smallImage (smallJob 10 (by decide) (by decide))) := by
  have hlost : (smallImage (smallJob 10 (by decide) (by decide))).le 0 4 ≠ vmdk4Magic := by
    decide +kernel
  refine ⟨by decide +kernel, fun htrips => ?_⟩
  obtain ⟨_, hheaded⟩ := htrips.header
  exact hlost hheaded.fields.magic

/-- With sectors of 512 bytes, a table of 700 grains of which only 150 and 512 are not zero: the
second table, written for grain 512, has the place of grain 150 for grain 662. -/
example : ¬ VmdkJob.NoShadow
    { smallJob 9 (by decide) (by decide) with outVsize := 700 * 4096, declaredSize := 700 * 4096 }
    (fun x => some (if x = 150 * 4096 ∨ x = 512 * 4096 then 1 else 0)) := by
  intro hno
  have hzero :=
      hno 0 1 150 (by decide) ⟨by decide, by decide, by decide +kernel, fun k hlo hhi => by
      rw [show k = 1 by omega]
      decide +kernel⟩
    (by decide +kernel) (by decide) 0 (by decide) (by decide)
  exact absurd hzero (by decide +kernel)

end Instar.Convert
