import Instar.Qcow2.Counts
import Instar.Read.Qcow2

/-!
# What an image shows

The virtual disk of a qcow2 image without a backing file, read through a parsed header by the
lookups of the chain reader.  `SameData` says that a second header and file hold the data of a first
one; they then show the same bytes and hold the same references through their L1.
-/

namespace Instar.Qcow2.QcowHeader

open Instar.Read Instar.RefCount Finset Qcow2State Contribution

/-- The compression type in force: the field counts only with its feature bit. -/
def compression (hdr : QcowHeader) : Nat :=
  if hdr.incompatibleFeatures &&& incompatCompression ≠ 0 then hdr.compressionType else 0

/-- The reader's view of a header. -/
def reader (hdr : QcowHeader) (hp : hdr.Parsed) : Qcow2State :=
  { clusterBits := hdr.clusterBits
    bits_ge := hp.bits_ge
    bits_le := hp.bits_le
    l1Size := hdr.l1Size
    l1TableOffset := hdr.l1TableOffset
    cryptMethod := hdr.cryptMethod
    incompatibleFeatures := hdr.incompatibleFeatures
    compressionType := hdr.compression
    extendedL2 := hdr.extendedL2 }

/-- The bytes of a file as the only input. -/
def inputOf (bytes : ByteMap) : Inputs := ⟨512, sector_pos, fun _ => ⟨0, bytes, fun _ => true⟩⟩

/-- The byte at virtual offset `x`; none if it cannot be read. -/
def shown (codec : Codec) (hdr : QcowHeader) (hp : hdr.Parsed) (bytes : ByteMap) (x : Nat) :
    Option UInt8 :=
  layered [(hdr.reader hp).held codec (inputOf bytes) 0 0] x

/-- The file `m` with header `g` holds the data of the file `disk` with header `hdr`, whose data is
in the image itself: the L1 entries, and every cluster reached through them. -/
structure SameData (hdr : QcowHeader) (disk : ByteMap) (g : QcowHeader) (m : ByteMap) : Prop where
  bits : g.clusterBits = hdr.clusterBits
  size : g.clusterSize = hdr.clusterSize
  ext : g.extendedL2 = hdr.extendedL2
  features : g.incompatibleFeatures = hdr.incompatibleFeatures
  external : hdr.incompatibleFeatures &&& incompatExternalData = 0
  compression : g.compression = hdr.compression
  l1_le : hdr.l1Size ≤ g.l1Size
  l1_word : ∀ i < g.l1Size, g.l1At m i = if i < hdr.l1Size then hdr.l1At disk i else 0
  data : ∀ b, hdr.chain disk (b / hdr.clusterSize) ≠ 0 → m b = disk b

/-- Two headers that read an L2 entry alike, with the data in the image itself. -/
structure SameView (hdr g : QcowHeader) : Prop where
  bits : g.clusterBits = hdr.clusterBits
  size : g.clusterSize = hdr.clusterSize
  ext : g.extendedL2 = hdr.extendedL2
  features : g.incompatibleFeatures = hdr.incompatibleFeatures
  external : hdr.incompatibleFeatures &&& incompatExternalData = 0
  compression : g.compression = hdr.compression

variable {hdr g : QcowHeader} {disk m : ByteMap} {i j c entry x : Nat} {e : Nat × Nat}
  {hp : hdr.Parsed} {ext : Bool}

theorem SameData.view (hd : SameData hdr disk g m) : SameView hdr g :=
  ⟨hd.bits, hd.size, hd.ext, hd.features, hd.external, hd.compression⟩

/-! ## What is reached through the L1 -/

/-- The pointers behind `chain`. -/
def names (hdr : QcowHeader) (disk : ByteMap) : Nat × Nat → Nat → Nat :=
  chainNames hdr.clusterBits hdr.clusterSize hdr.l2Entries (fun i => hostOf (hdr.l1At disk i))
    fun i j => hdr.l2At disk (hostOf (hdr.l1At disk i)) j

theorem names_le_chain {p : Nat × Nat} (hp : p ∈ chainPointers hdr.l1Size hdr.l2Entries) (c : Nat) :
    hdr.names disk p c ≤ hdr.chain disk c := le_total hp

theorem chain_table_ne (hi : i < hdr.l1Size) (h : hostOf (hdr.l1At disk i) ≠ 0) :
    hdr.chain disk (hostOf (hdr.l1At disk i) / hdr.clusterSize) ≠ 0 := by
  have hle : hdr.names disk (i, hdr.l2Entries) (hostOf (hdr.l1At disk i) / hdr.clusterSize) ≤
      hdr.chain disk (hostOf (hdr.l1At disk i) / hdr.clusterSize) := names_le_chain (table_mem hi) _
  rw [names, chainNames_table, tableRef, if_pos ⟨h, rfl⟩] at hle
  omega

theorem chain_entry_ne (hi : i < hdr.l1Size) (hj : j < hdr.l2Entries)
    (h : entryRefs hdr.clusterBits hdr.clusterSize (hdr.l2At disk (hostOf (hdr.l1At disk i)) j)
      c ≠ 0) :
    hdr.chain disk c ≠ 0 := by
  have hle : hdr.names disk (i, j) c ≤ hdr.chain disk c := names_le_chain (entry_mem hi hj) c
  rw [names, chainNames_entry hj] at hle
  omega

theorem l2Size_pos (hdr : QcowHeader) : 0 < hdr.l2Size := by
  unfold l2Size
  split <;> omega

theorem l2_entry_end (hj : j < hdr.l2Entries) : j * hdr.l2Size + hdr.l2Size ≤ hdr.clusterSize := by
  have hmul := Nat.mul_le_mul_right hdr.l2Size (Nat.succ_le_of_lt hj)
  have hdiv := Nat.div_mul_le_self hdr.clusterSize hdr.l2Size
  rw [Nat.succ_mul] at hmul
  unfold l2Entries at hmul
  omega

namespace SameData

variable (hd : SameData hdr disk g m)
include hd

/-- A table that the L1 names is the same in both files. -/
theorem table_bytes (hcs : 0 < hdr.clusterSize) (hal : hdr.Aligned disk) (hi : i < hdr.l1Size)
    (h : hostOf (hdr.l1At disk i) ≠ 0) {off n : Nat} (hoff : off + n ≤ hdr.clusterSize) :
    m.be (hostOf (hdr.l1At disk i) + off) n = disk.be (hostOf (hdr.l1At disk i) + off) n := by
  refine ByteMap.be_congr fun k hk => hd.data _ ?_
  rw [add_assoc, div_of_aligned hcs (hal.l2 i hi) (by omega)]
  exact chain_table_ne hi h

theorem l2Entries_eq : g.l2Entries = hdr.l2Entries := by
  unfold l2Entries l2Size
  rw [hd.size, hd.ext]

theorem l1At_eq (hi : i < hdr.l1Size) : g.l1At m i = hdr.l1At disk i := by
  rw [hd.l1_word i (hi.trans_le hd.l1_le), if_pos hi]

theorem l1At_new (hi : i < g.l1Size) (hle : hdr.l1Size ≤ i) : g.l1At m i = 0 := by
  rw [hd.l1_word i hi, if_neg (not_lt.mpr hle)]

theorem l2At_eq (hcs : 0 < hdr.clusterSize) (hal : hdr.Aligned disk) (hi : i < hdr.l1Size)
    (hj : j < hdr.l2Entries) :
    g.l2At m (hostOf (hdr.l1At disk i)) j = hdr.l2At disk (hostOf (hdr.l1At disk i)) j := by
  have hsize : g.l2Size = hdr.l2Size := by
    unfold l2Size
    rw [hd.ext]
  unfold l2At
  rw [hsize]
  split
  · rfl
  next hne =>
    have hend := l2_entry_end hj
    have h8 : 8 ≤ hdr.l2Size := by
      unfold l2Size
      split <;> omega
    exact hd.table_bytes hcs hal hi hne (by omega)

/-- Both hold the same references through the L1. -/
theorem chain_eq (hcs : 0 < hdr.clusterSize) (hal : hdr.Aligned disk) (c : Nat) :
    g.chain m c = hdr.chain disk c := by
  unfold chain
  rw [hd.bits, hd.size, hd.l2Entries_eq]
  -- the entries past the old L1 are empty, so only the old ones count
  have hsub : chainPointers hdr.l1Size hdr.l2Entries ⊆ chainPointers g.l1Size hdr.l2Entries :=
    product_subset_product_left (range_subset_range.mpr hd.l1_le)
  unfold chainRefs total
  rw [← sum_subset hsub]
  · refine sum_congr rfl fun p hp => ?_
    obtain ⟨hi, hj | hj⟩ := mem_chainPointers hp
    · simp [chainNames, hj, hd.l1At_eq hi]
    · simp only [chainNames, hj.ne, if_false]
      rw [hd.l1At_eq hi, hd.l2At_eq hcs hal hi hj]
  · intro p hp hnot
    obtain ⟨hi, hj⟩ := mem_chainPointers hp
    have hle : hdr.l1Size ≤ p.1 := by
      by_contra hlt
      refine hnot ?_
      rcases hj with hj | hj
      · have : p = (p.1, hdr.l2Entries) := Prod.ext rfl hj
        rw [this]
        exact table_mem (by omega)
      · exact entry_mem (by omega) hj
    have hzero : hostOf (g.l1At m p.1) = 0 := by
      rw [hd.l1At_new hi hle]
      rfl
    unfold chainNames l2At
    dsimp only
    rw [hzero]
    simp [tableRef, entryRefs, hostOf]

end SameData

/-! ## What the reader finds -/

theorem reader_clusterSize (hp : hdr.Parsed) : (hdr.reader hp).clusterSize = hdr.clusterSize :=
  hp.size_eq.symm

theorem reader_entriesPerL2 (hp : hdr.Parsed) : (hdr.reader hp).entriesPerL2 = hdr.l2Entries := by
  unfold entriesPerL2
  rw [reader_clusterSize]
  rfl

theorem l2Entries_pos (hp : hdr.Parsed) : 0 < hdr.l2Entries := by
  have h512 : 512 ≤ hdr.clusterSize := Nat.le_of_dvd hp.size_pos hp.size_dvd
  refine Nat.div_pos ?_ (l2Size_pos hdr)
  unfold l2Size
  split <;> omega

/-- The L1 entry of a virtual offset. -/
def l1Index (hdr : QcowHeader) (x : Nat) : Nat := x / (hdr.clusterSize * hdr.l2Entries)

/-- The L2 entry of a virtual offset in its table. -/
def l2Index (hdr : QcowHeader) (x : Nat) : Nat := x / hdr.clusterSize % hdr.l2Entries

theorem l2Index_lt (hp : hdr.Parsed) (x : Nat) : hdr.l2Index x < hdr.l2Entries :=
  Nat.mod_lt _ (l2Entries_pos hp)

theorem reader_entryAt (hp : hdr.Parsed) (disk : ByteMap) (x : Nat) :
      (hdr.reader hp).entryAt disk x = if hdr.l1Size ≤ hdr.l1Index x then none
      else if hostOf (hdr.l1At disk (hdr.l1Index x)) = 0 then none
      else some (disk.be (hostOf (hdr.l1At disk (hdr.l1Index x)) + hdr.l2Index x * hdr.l2Size) 8,
        if hdr.extendedL2 then
          disk.be (hostOf (hdr.l1At disk (hdr.l1Index x)) + hdr.l2Index x * hdr.l2Size + 8) 8
        else 0) := by
  unfold entryAt l1Index l2Index
  rw [reader_clusterSize, reader_entriesPerL2]
  rfl

/-- The entry the reader finds is one that the L1 reaches. -/
theorem entryAt_some (h : (hdr.reader hp).entryAt disk x = some e) : hdr.l1Index x < hdr.l1Size ∧
      e.1 = hdr.l2At disk (hostOf (hdr.l1At disk (hdr.l1Index x))) (hdr.l2Index x) := by
  rw [reader_entryAt] at h
  split at h
  · cases h
  rename_i hi
  split at h
  · cases h
  rename_i hne
  cases h
  refine ⟨Nat.lt_of_not_le hi, ?_⟩
  rw [l2At, if_neg hne]

theorem clusterType_normal (h : clusterType entry ext false = .normal) :
    entry &&& oflagCompressed = 0 ∧ hostOf entry ≠ 0 := by
  unfold clusterType at h
  split at h
  · cases h
  rename_i hplain
  split at h
  · split at h <;> cases h
  split at h
  · simp at h
  next hne =>
    exact ⟨not_not.mp hplain, hne⟩

theorem subclusterType_normal {bitmap sc : Nat}
    (h : subclusterType entry bitmap sc ext false = .normal) :
    entry &&& oflagCompressed = 0 ∧ hostOf entry ≠ 0 := by
  suffices htype : clusterType entry ext false = .normal from clusterType_normal htype
  unfold subclusterType at h
  split at h
  · cases h
  split at h
  · split at h <;> first | assumption | cases h
  · split at h
    · cases h
    · assumption
    · split at h
      · cases h
      · split at h <;> cases h
    · cases h
    · cases h

theorem subclusterType_compressed {bitmap sc : Nat}
    (h : subclusterType entry bitmap sc ext false = .compressed) :
    entry &&& oflagCompressed ≠ 0 := by
  have htype : clusterType entry ext false = .compressed := by
    cases ext with
    | true => exact clusterType_of_compressed h
    | false =>
      unfold subclusterType at h
      split at h
      · cases h
      rw [if_pos rfl] at h
      split at h <;> first | assumption | cases h
  unfold clusterType at htype
  split at htype
  · assumption
  split at htype
  · split at htype <;> cases htype
  split at htype
  · simp at htype
  · cases htype

namespace SameView

variable (hv : SameView hdr g)
include hv

theorem l2Entries_eq : g.l2Entries = hdr.l2Entries := by
  unfold l2Entries l2Size
  rw [hv.size, hv.ext]

theorem l2Size_eq : g.l2Size = hdr.l2Size := by
  unfold l2Size
  rw [hv.ext]

theorem l1Index_eq (x : Nat) : g.l1Index x = hdr.l1Index x := by
  unfold l1Index
  rw [hv.size, hv.l2Entries_eq]

theorem l2Index_eq (x : Nat) : g.l2Index x = hdr.l2Index x := by
  unfold l2Index
  rw [hv.size, hv.l2Entries_eq]

/-- A compressed cluster inflates to the same bytes in both files. -/
theorem inflated_eq (hp : hdr.Parsed) (hgp : g.Parsed) (codec : Codec)
    (hcomp : entry &&& oflagCompressed ≠ 0)
    (hreach : ∀ b, entryRefs hdr.clusterBits hdr.clusterSize entry (b / hdr.clusterSize) ≠ 0 →
      m b = disk b) :
    (g.reader hgp).inflated codec m entry = (hdr.reader hp).inflated codec disk entry := by
  have hmethod : (g.reader hgp).method = (hdr.reader hp).method := by
    unfold method reader
    rw [hv.compression]
  have hbits : (g.reader hgp).clusterBits = hdr.clusterBits := hv.bits
  have hbits' : (hdr.reader hp).clusterBits = hdr.clusterBits := rfl
  unfold inflated
  rw [hmethod, reader_clusterSize, reader_clusterSize, hv.size, hbits, hbits']
  cases (hdr.reader hp).method with
  | none => rfl
  | some method =>
    cases hparse : parseCompressedL2Entry entry hdr.clusterBits with
    | none => rfl
    | some extent =>
      have hwin : m.window extent.1 extent.2 = disk.window extent.1 extent.2 := by
        refine ByteMap.window_congr fun k hk => hreach _ ?_
        rw [entryRefs, if_pos hcomp, hparse]
        have hin : extent.2 ≠ 0 ∧ extent.1 / hdr.clusterSize ≤ (extent.1 + k) / hdr.clusterSize ∧
            (extent.1 + k) / hdr.clusterSize ≤ (extent.1 + extent.2 - 1) / hdr.clusterSize :=
          ⟨by omega, Nat.div_le_div_right (by omega), Nat.div_le_div_right (by omega)⟩
        simp [extentRefs, hin]
      dsimp only
      rw [hwin]

/-- An entry gives the same byte in both files if what it names is the same. -/
theorem heldBy_eq (hp : hdr.Parsed) (hgp : g.Parsed) (codec : Codec) (x : Nat)
    (haligned : EntryAligned hdr.clusterSize e.1)
    (hreach : ∀ b, entryRefs hdr.clusterBits hdr.clusterSize e.1 (b / hdr.clusterSize) ≠ 0 →
      m b = disk b) :
    (g.reader hgp).heldBy codec (inputOf m) 0 0 e.1 e.2 x =
      (hdr.reader hp).heldBy codec (inputOf disk) 0 0 e.1 e.2 x := by
  have hfile : (hdr.reader hp).hasDataFile = false := by
    simp [hasDataFile, reader, hv.external]
  have hfile' : (g.reader hgp).hasDataFile = false := by
    simp [hasDataFile, reader, hv.features, hv.external]
  have hsize : (g.reader hgp).clusterSize = hdr.clusterSize := by
    rw [reader_clusterSize, hv.size]
  have hext : (g.reader hgp).extendedL2 = (hdr.reader hp).extendedL2 := hv.ext
  have hsub : (g.reader hgp).subclusterSize = (hdr.reader hp).subclusterSize := by
    unfold subclusterSize
    rw [hsize, reader_clusterSize, hext]
  unfold heldBy
  rw [hfile, hfile', hext, hsub, hsize, reader_clusterSize]
  cases htype : subclusterType e.1 e.2 (x % hdr.clusterSize / (hdr.reader hp).subclusterSize)
    (hdr.reader hp).extendedL2 false with
  | unallocatedPlain | unallocatedAlloc | zeroPlain | zeroAlloc | invalid => rfl
  | normal =>
    obtain ⟨hplain, hhost⟩ := subclusterType_normal htype
    have hbyte : m (hostOf e.1 + x % hdr.clusterSize) =
        disk (hostOf e.1 + x % hdr.clusterSize) := by
      refine hreach _ ?_
      rw [div_of_aligned hp.size_pos (haligned hplain) (Nat.mod_lt _ hp.size_pos)]
      simp [entryRefs, hplain, tableRef, hhost]
    simp only [heldAs, dataReadDevice, hfile, hfile', if_true, hsize, reader_clusterSize]
    exact congrArg gives hbyte
  | compressed =>
    have hcomp := subclusterType_compressed htype
    have hinfl : (g.reader hgp).inflated codec ((inputOf m).device 0).bytes e.1 = _ :=
      hv.inflated_eq hp hgp codec hcomp hreach
    simp only [heldAs, hsize, reader_clusterSize]
    rw [hinfl]
    rfl

end SameView

/-- What a reader shows follows from the entry it finds. -/
theorem shown_congr {codec : Codec} {hgp : g.Parsed} (h : (match (g.reader hgp).entryAt m x with
      | none => absent
      | some entry => (g.reader hgp).heldBy codec (inputOf m) 0 0 entry.1 entry.2 x) =
      (match (hdr.reader hp).entryAt disk x with
      | none => absent
      | some entry => (hdr.reader hp).heldBy codec (inputOf disk) 0 0 entry.1 entry.2 x)) :
    g.shown codec hgp m x = hdr.shown codec hp disk x := by
  have hheld : (g.reader hgp).held codec (inputOf m) 0 0 x =
      (hdr.reader hp).held codec (inputOf disk) 0 0 x := h
  unfold shown layered
  rw [hheld]

namespace SameData

variable (hd : SameData hdr disk g m)
include hd

theorem entryAt_eq (hp : hdr.Parsed) (hgp : g.Parsed) (hal : hdr.Aligned disk) (x : Nat) :
    (g.reader hgp).entryAt m x = (hdr.reader hp).entryAt disk x := by
  rw [reader_entryAt, reader_entryAt, hd.view.l1Index_eq, hd.view.l2Index_eq,
    hd.view.l2Size_eq, hd.ext]
  by_cases hi : hdr.l1Size ≤ hdr.l1Index x
  · rw [if_pos hi]
    split
    · rfl
    next hlt =>
      rw [if_pos (by rw [hd.l1At_new (Nat.lt_of_not_le hlt) hi]; rfl)]
  · have hlt := Nat.lt_of_not_le hi
    rw [if_neg hi, if_neg (not_le.mpr (hlt.trans_le hd.l1_le)), hd.l1At_eq hlt]
    split
    · rfl
    next hne =>
      have hend := l2_entry_end (l2Index_lt hp x)
      have h8 : 8 ≤ hdr.l2Size := by
        unfold l2Size
        split <;> omega
      rw [hd.table_bytes hp.size_pos hal hlt hne (by omega)]
      split
      next hext =>
        have h16 : hdr.l2Size = 16 := if_pos hext
        rw [add_assoc, hd.table_bytes hp.size_pos hal hlt hne (by omega)]
      · rfl

/-- An entry gives the same byte in both files. -/
theorem heldBy_eq (hp : hdr.Parsed) (hgp : g.Parsed) (hal : hdr.Aligned disk)
    (codec : Codec) (x : Nat)
    (he : (hdr.reader hp).entryAt disk x = some e) :
    (g.reader hgp).heldBy codec (inputOf m) 0 0 e.1 e.2 x =
      (hdr.reader hp).heldBy codec (inputOf disk) 0 0 e.1 e.2 x := by
  obtain ⟨hi, hentry⟩ := entryAt_some he
  exact hd.view.heldBy_eq hp hgp codec x (hentry ▸ hal.entry _ hi _ (l2Index_lt hp x)) fun b hb =>
    hd.data b (chain_entry_ne hi (l2Index_lt hp x) (hentry ▸ hb))

/-- Both show the same bytes. -/
theorem shown_eq (hp : hdr.Parsed) (hgp : g.Parsed) (hal : hdr.Aligned disk)
    (codec : Codec) (x : Nat) : g.shown codec hgp m x = hdr.shown codec hp disk x := by
  refine shown_congr ?_
  rw [hd.entryAt_eq hp hgp hal]
  cases hentry : (hdr.reader hp).entryAt disk x with
  | none => rfl
  | some e => exact hd.heldBy_eq hp hgp hal codec x hentry

end SameData

end Instar.Qcow2.QcowHeader
