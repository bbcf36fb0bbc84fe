import Instar.Qcow2.Image

/-!
# Consistent images

`Layout` says where the metadata of an image lives; the rest is read from the disk.  An image is
consistent when every cluster it refers to has a refcount that equals the number of references, and
when the clusters that hold its L1 and its refblocks have no other use.
-/

namespace Instar.Qcow2

open Instar.RefCount Finset

/-- Where the metadata of an image lives: `snapshots` lists offset and size of each snapshot's L1,
`others` offset and length of what else there is. -/
structure Layout where
  clusterBits : Nat
  clusterSize : Nat
  l1TableOffset : Nat
  l1Size : Nat
  refcountTableOffset : Nat
  refcountTableClusters : Nat
  snapshots : List (Nat × Nat)
  others : List (Nat × Nat)

namespace Layout

variable (L : Layout) (disk : ByteMap)

/-- Entries of an L2 table. -/
def entriesPerL2 : Nat := L.clusterSize / 8

/-- Virtual bytes an L2 table covers. -/
def l2Coverage : Nat := L.clusterSize * L.entriesPerL2

/-- Refcounts in a refblock. -/
def entriesPerRefblock : Nat := L.clusterSize / 2

/-- Entries of the refcount table. -/
def refblocks : Nat := L.refcountTableClusters * L.clusterSize / 8

/-- Where refblock `k` lives. -/
def blockHost (k : Nat) : Nat := hostOf (disk.be (L.refcountTableOffset + k * 8) 8)

/-- The refcount of cluster `c`; a missing refblock counts nothing. -/
def refcount (c : Nat) : Nat :=
  if c / L.entriesPerRefblock < L.refblocks ∧ L.blockHost disk (c / L.entriesPerRefblock) ≠ 0 then
    disk.be (L.blockHost disk (c / L.entriesPerRefblock) + 2 * (c % L.entriesPerRefblock)) 2
  else 0

/-! ## References -/

/-- The reference of entry `k` of the refcount table to its refblock. -/
def blockRef (k c : Nat) : Nat := tableRef L.clusterSize (L.blockHost disk k) c

/-- The references to the clusters of the active L1 and of the refblocks. -/
def tableRefs (c : Nat) : Nat :=
  extentRefs L.clusterSize (L.l1TableOffset,
    L.l1Size * 8) c + total (range L.refblocks) (L.blockRef disk) c

/-- The references to the clusters of the header, the refcount table, the L1s of the snapshots and
whatever else is metadata. -/
def plainRefs (c : Nat) : Nat :=
  extentRefs L.clusterSize (0, L.clusterSize) c
    + extentRefs L.clusterSize (L.refcountTableOffset, L.refcountTableClusters * L.clusterSize) c
    + (L.snapshots.map fun s => extentRefs L.clusterSize (s.1, s.2 * 8) c).sum
    + (L.others.map fun extent => extentRefs L.clusterSize extent c).sum

/-- The references held through the L1 at `off` with `n` entries. -/
def chainRefs (off n c : Nat) : Nat :=
  l1Refs L.clusterBits L.clusterSize L.entriesPerL2 disk off n c

/-- The references held through the active L1. -/
def activeRefs (c : Nat) : Nat := L.chainRefs disk L.l1TableOffset L.l1Size c

/-- The references held through the L1s of the snapshots. -/
def snapshotRefs (c : Nat) : Nat := (L.snapshots.map fun s => L.chainRefs disk s.1 s.2 c).sum

/-- The number of references to cluster `c`. -/
def refs (c : Nat) : Nat :=
  L.tableRefs disk c + L.plainRefs c + L.snapshotRefs disk c + L.activeRefs disk c

/-! ## The virtual disk -/

/-- Entry `j` of L2 table `i`. -/
def entry (i j : Nat) : Nat := diskTab disk (hostOf (diskL1 disk L.l1TableOffset i)) j

/-- The byte at virtual offset `x`; beyond the L1 nothing is mapped. -/
def byte {bits : Nat} (inflate : Inflate bits) (under : Nat → UInt8) (x : Nat) : UInt8 :=
  if x / L.l2Coverage < L.l1Size then
    entryByte L.clusterSize inflate under disk
      (L.entry disk (x / L.l2Coverage) (x / L.clusterSize % L.entriesPerL2)) x
  else under x

end Layout

/-- An image whose references are counted.  The staged refblocks reach up to `limit`. -/
structure Consistent (L : Layout) (disk : ByteMap) (limit : Nat) : Prop where
  counted : ∀ c, L.refs disk c ≠ 0 → c < limit ∧ L.refcount disk c = L.refs disk c
  tables : ∀ c, L.tableRefs disk c ≠ 0 → L.refs disk c = 1
  l1_aligned : ∀ i < L.l1Size, hostOf (diskL1 disk L.l1TableOffset i) % L.clusterSize = 0
  l2_aligned : ∀ i < L.l1Size, ∀ j < L.entriesPerL2, EntryAligned L.clusterSize (L.entry disk i j)
  block_aligned : ∀ k < L.refblocks, L.blockHost disk k % L.clusterSize = 0
  snapshot_aligned : ∀ s ∈ L.snapshots, ∀ i < s.2, hostOf (diskL1 disk s.1 i) % L.clusterSize = 0

section

variable {cs host : Nat} {extent s : Nat × Nat} {b : Nat}

theorem extentRefs_of_mem (hlo : extent.1 ≤ b) (hhi : b < extent.1 + extent.2) :
    extentRefs cs extent (b / cs) = 1 := by
  refine if_pos ⟨by omega, Nat.div_le_div_right hlo, Nat.div_le_div_right (by omega)⟩

theorem tableRef_self (h : host ≠ 0) : tableRef cs host (host / cs) = 1 := if_pos ⟨h, rfl⟩

variable {L : Layout} {disk : ByteMap} {limit c i j k : Nat}

theorem tableRefs_l1 (hk : k < L.l1Size * 8) :
    L.tableRefs disk ((L.l1TableOffset + k) / L.clusterSize) ≠ 0 := by
  have hone : extentRefs L.clusterSize (L.l1TableOffset, L.l1Size * 8)
      ((L.l1TableOffset + k) / L.clusterSize) = 1 := extentRefs_of_mem (by simp) (by simpa using hk)
  unfold Layout.tableRefs
  omega

/-- The reference of a refcount table entry is one of the references to tables. -/
theorem blockRef_le (disk : ByteMap) (c : Nat) (hi : i < L.refblocks) :
    L.blockRef disk i c ≤ total (range L.refblocks) (L.blockRef disk) c :=
  le_total (mem_range.mpr hi)

theorem tableRefs_block (hi : i < L.refblocks) (hne : L.blockHost disk i ≠ 0) :
    L.tableRefs disk (L.blockHost disk i / L.clusterSize) ≠ 0 := by
  have hle := blockRef_le disk (L.blockHost disk i / L.clusterSize) hi
  have hone : L.blockRef disk i (L.blockHost disk i / L.clusterSize) = 1 := tableRef_self hne
  unfold Layout.tableRefs
  omega

namespace Consistent

variable (h : Consistent L disk limit)

include h

/-- What refers to a cluster from outside the active L1. -/
theorem outside (hne : L.refs disk c ≠ 0) : L.refcount disk c - L.activeRefs disk c
      = L.tableRefs disk c + L.plainRefs c + L.snapshotRefs disk c := by
  rw [(h.counted c hne).2]
  unfold Layout.refs
  omega

/-- The clusters of the L1 and of the refblocks have no other use. -/
theorem table_alone (hc : L.tableRefs disk c ≠ 0) :
    L.tableRefs disk c = 1 ∧ L.plainRefs c = 0 ∧ L.snapshotRefs disk c = 0 ∧
    L.activeRefs disk c = 0 := by
  have hone := h.tables c hc
  unfold Layout.refs at hone
  omega

/-- No two refblocks share a cluster: that would be two references. -/
theorem block_inj (hi : i < L.refblocks) (hj : j < L.refblocks) (hne : L.blockHost disk i ≠ 0)
    (hne' : L.blockHost disk j ≠ 0)
    (heq : L.blockHost disk i / L.clusterSize = L.blockHost disk j / L.clusterSize) : i = j := by
  by_contra hij
  have hadd : L.blockRef disk i (L.blockHost disk i / L.clusterSize)
      + L.blockRef disk j (L.blockHost disk i / L.clusterSize)
      ≤ total (range L.refblocks) (L.blockRef disk) (L.blockHost disk i / L.clusterSize) :=
    add_le_total (mem_range.mpr hi) (mem_range.mpr hj) hij
  have hi1 : L.blockRef disk i (L.blockHost disk i / L.clusterSize) = 1 := tableRef_self hne
  have hj1 : L.blockRef disk j (L.blockHost disk i / L.clusterSize) = 1 := by
    rw [heq]
    exact tableRef_self hne'
  have hone := (h.table_alone (tableRefs_block hi hne)).1
  unfold Layout.tableRefs at hone
  omega

/-- Nor do the L1 and a refblock. -/
theorem block_apart (hi : i < L.refblocks) (hne : L.blockHost disk i ≠ 0) (hk : k < L.l1Size * 8) :
    (L.l1TableOffset + k) / L.clusterSize ≠ L.blockHost disk i / L.clusterSize := by
  intro heq
  have hle := blockRef_le disk (L.blockHost disk i / L.clusterSize) hi
  have hblock : L.blockRef disk i (L.blockHost disk i / L.clusterSize) = 1 := tableRef_self hne
  have hl1 : extentRefs L.clusterSize (L.l1TableOffset, L.l1Size * 8)
      (L.blockHost disk i / L.clusterSize) = 1 := by
    rw [← heq]
    exact extentRefs_of_mem (by simp) (by simpa using hk)
  have hone := (h.table_alone (tableRefs_block hi hne)).1
  unfold Layout.tableRefs at hone
  omega

end Consistent

/-! ## What the metadata depends on -/

/-- Bytes that hold the header, the refcount table, or what a snapshot uses. -/
def Layout.Fixed (L : Layout) (disk : ByteMap) (b : Nat) : Prop :=
  L.plainRefs (b / L.clusterSize) + L.snapshotRefs disk (b / L.clusterSize) ≠ 0

variable {disk' : ByteMap} {α : Type}

theorem plainRefs_table (hlo : L.refcountTableOffset ≤ b)
    (hhi : b < L.refcountTableOffset + L.refcountTableClusters * L.clusterSize) :
    L.Fixed disk b := by
  have hone : extentRefs L.clusterSize
      (L.refcountTableOffset, L.refcountTableClusters * L.clusterSize) (b / L.clusterSize) = 1 :=
    extentRefs_of_mem hlo hhi
  unfold Layout.Fixed Layout.plainRefs
  omega

/-- One of the summands is part of the sum. -/
theorem le_sum_map {l : List α} {a : α} (f : α → Nat) (ha : a ∈ l) : f a ≤ (l.map f).sum :=
  List.single_le_sum (by simp) _ (List.mem_map_of_mem ha)

theorem plainRefs_snapshot (hs : s ∈ L.snapshots)
    (hne : extentRefs L.clusterSize (s.1, s.2 * 8) (b / L.clusterSize) ≠ 0) : L.Fixed disk b := by
  have hle := le_sum_map (fun s => extentRefs L.clusterSize (s.1, s.2 * 8) (b / L.clusterSize)) hs
  unfold Layout.Fixed Layout.plainRefs
  omega

theorem snapshotRefs_chain (hs : s ∈ L.snapshots)
    (hne : L.chainRefs disk s.1 s.2 (b / L.clusterSize) ≠ 0) : L.Fixed disk b := by
  have hle := le_sum_map (fun s => L.chainRefs disk s.1 s.2 (b / L.clusterSize)) hs
  unfold Layout.Fixed Layout.snapshotRefs
  omega

/-- The refcount table says the same where its bytes are the same. -/
theorem blockHost_congr (hdisk : ∀ b, L.Fixed disk b → disk' b = disk b) (hk : k < L.refblocks) :
    L.blockHost disk' k = L.blockHost disk k := by
  refine congrArg hostOf (ByteMap.be_congr fun m hm => hdisk _ ?_)
  have hle : (k + 1) * 8 ≤ L.refcountTableClusters * L.clusterSize := by
    unfold Layout.refblocks at hk
    omega
  exact plainRefs_table (by omega) (by omega)

theorem tableRefs_congr (hdisk : ∀ b, L.Fixed disk b → disk' b = disk b) (c : Nat) :
    L.tableRefs disk' c = L.tableRefs disk c := by
  have hblocks : total (range L.refblocks) (L.blockRef disk') c
      = total (range L.refblocks) (L.blockRef disk) c := by
    refine total_congr fun k hk => ?_
    unfold Layout.blockRef
    rw [blockHost_congr hdisk (mem_range.mp hk)]
  rw [Layout.tableRefs, hblocks, Layout.tableRefs]

section

variable (hs : s ∈ L.snapshots)
include hs

/-- What an entry of a snapshot's L1, or of a table it names, refers to. -/
theorem fixed_of_pointer {p : Nat × Nat} (hp : p ∈ chainPointers s.2 L.entriesPerL2)
    (hne : chainNames L.clusterBits L.clusterSize L.entriesPerL2 (fun i =>
      hostOf (diskL1 disk s.1 i))
      (fun i j => diskTab disk (hostOf (diskL1 disk s.1 i)) j) p (b / L.clusterSize) ≠ 0) :
          L.Fixed disk b :=
  snapshotRefs_chain hs fun hnone => hne (Nat.le_zero.mp ((le_total hp).trans hnone.le))

variable (hdisk : ∀ b, L.Fixed disk b → disk' b = disk b)
include hdisk

theorem diskL1_snapshot (hi : i < s.2) : diskL1 disk' s.1 i = diskL1 disk s.1 i := by
  refine ByteMap.be_congr fun m hm => hdisk _ ?_
  have hone : extentRefs L.clusterSize (s.1, s.2 * 8) ((s.1 + i * 8 + m) / L.clusterSize) = 1 :=
    extentRefs_of_mem (by dsimp only; omega) (by dsimp only; omega)
  exact plainRefs_snapshot hs (by omega)

variable (hcs : 0 < L.clusterSize) (hal : ∀ i < s.2, hostOf (diskL1 disk s.1 i) % L.clusterSize = 0)
include hcs hal

theorem diskTab_snapshot (hi : i < s.2) (hj : j < L.entriesPerL2) :
    diskTab disk' (hostOf (diskL1 disk' s.1 i)) j =
    diskTab disk (hostOf (diskL1 disk s.1 i)) j := by
  rw [diskL1_snapshot hs hdisk hi]
  unfold diskTab
  split
  · rfl
  next hne =>
    refine ByteMap.be_congr fun m hm => hdisk _ (fixed_of_pointer hs (table_mem hi) ?_)
    have hin : j * 8 + m < L.clusterSize := by
      unfold Layout.entriesPerL2 at hj
      omega
    rw [chainNames_table, add_assoc, div_of_aligned hcs (hal i hi) hin, tableRef_self hne]
    exact one_ne_zero

theorem chainRefs_snapshot (c : Nat) : L.chainRefs disk' s.1 s.2 c = L.chainRefs disk s.1 s.2 c :=
  chainRefs_congr (fun _ hi => congrArg hostOf (diskL1_snapshot hs hdisk hi))
    (fun _ hi _ hj => diskTab_snapshot hs hdisk hcs hal hi hj) c

/-- The image as a snapshot has it. -/
def Layout.ofSnapshot (L : Layout) (s : Nat × Nat) : Layout :=
  { L with l1TableOffset := s.1, l1Size := s.2 }

/-- A snapshot shows its own clusters and nothing else. -/
theorem byte_snapshot (hpos : 0 < L.entriesPerL2)
    (hentries : ∀ i < s.2, ∀ j < L.entriesPerL2,
      EntryAligned L.clusterSize ((L.ofSnapshot s).entry disk i j))
    (inflate : Inflate L.clusterBits) (under : Nat → UInt8) (x : Nat) :
    (L.ofSnapshot s).byte disk' inflate under x = (L.ofSnapshot s).byte disk inflate under x := by
  have hj : x / L.clusterSize % L.entriesPerL2 < L.entriesPerL2 := Nat.mod_lt _ hpos
  unfold Layout.byte
  split
  next hi =>
    refine (congrArg (entryByte _ _ _ _ · x) (diskTab_snapshot hs hdisk hcs hal hi hj)).trans ?_
    refine entryByte_frame hcs (hentries _ hi _ hj) fun b hb =>
      hdisk b (fixed_of_pointer hs (entry_mem hi hj) ?_)
    rw [chainNames_entry hj]
    exact hb
  · rfl

end

theorem snapshotRefs_congr (hcs : 0 < L.clusterSize)
    (hal : ∀ s ∈ L.snapshots, ∀ i < s.2, hostOf (diskL1 disk s.1 i) % L.clusterSize = 0)
    (hdisk : ∀ b, L.Fixed disk b → disk' b = disk b) (c : Nat) :
    L.snapshotRefs disk' c = L.snapshotRefs disk c :=
  congrArg List.sum (List.map_congr_left fun s hs => chainRefs_snapshot hs hdisk hcs (hal s hs) c)

/-! ## Checking an image -/

/-- Every extent of the metadata. -/
def Layout.extents (L : Layout) : List (Nat × Nat) :=
  (0, L.clusterSize) :: (L.l1TableOffset, L.l1Size * 8) ::
    (L.refcountTableOffset, L.refcountTableClusters * L.clusterSize) ::
    (L.snapshots.map fun s => (s.1, s.2 * 8)) ++ L.others

/-- Everything the image refers to is in its first `B` clusters, and nothing is compressed. -/
def Layout.Bounded (L : Layout) (disk : ByteMap) (B : Nat) : Prop :=
  (∀ extent ∈ L.extents, extent.1 + extent.2 ≤ B * L.clusterSize) ∧
  (∀ k < L.refblocks, L.blockHost disk k < B * L.clusterSize) ∧
  ∀ s ∈ (L.l1TableOffset, L.l1Size) :: L.snapshots, ∀ i < s.2,
    hostOf (diskL1 disk s.1 i) < B * L.clusterSize ∧
    ∀ j < L.entriesPerL2, diskTab disk (hostOf (diskL1 disk s.1 i)) j &&& oflagCompressed = 0 ∧
      hostOf (diskTab disk (hostOf (diskL1 disk s.1 i)) j) < B * L.clusterSize

instance (disk : ByteMap) (B : Nat) : Decidable (L.Bounded disk B) :=
  inferInstanceAs (Decidable (_ ∧ _ ∧ _))

instance (cs entry : Nat) : Decidable (EntryAligned cs entry) := inferInstanceAs (Decidable (_ → _))

variable {B : Nat}

theorem extentRefs_beyond (hcs : 0 < cs) (h : extent.1 + extent.2 ≤ B * cs) (hc : B ≤ c) :
    extentRefs cs extent c = 0 := by
  refine if_neg ?_
  rintro ⟨hne, -, hhi⟩
  have : (extent.1 + extent.2 - 1) / cs < B := (Nat.div_lt_iff_lt_mul hcs).mpr (by omega)
  omega

theorem tableRef_beyond (hcs : 0 < cs) (h : host < B * cs) (hc : B ≤ c) :
    tableRef cs host c = 0 := by
  refine if_neg ?_
  rintro ⟨-, rfl⟩
  have : host / cs < B := (Nat.div_lt_iff_lt_mul hcs).mpr h
  omega

theorem sum_map_eq_zero {l : List α} {f : α → Nat} (h : ∀ a ∈ l, f a = 0) : (l.map f).sum = 0 := by
  rw [List.map_congr_left h]
  simp

theorem Layout.Bounded.refs_eq_zero (h : L.Bounded disk B) (hcs : 0 < L.clusterSize) (hc : B ≤ c) :
    L.refs disk c = 0 := by
  obtain ⟨hextents, hblocks, hchains⟩ := h
  have hextent : ∀ extent ∈ L.extents, extentRefs L.clusterSize extent c = 0 :=
    fun extent hmem => extentRefs_beyond hcs (hextents extent hmem) hc
  have hchain : ∀ s ∈ (L.l1TableOffset, L.l1Size) :: L.snapshots,
      L.chainRefs disk s.1 s.2 c = 0 := by
    intro s hs
    refine sum_eq_zero fun p hp => ?_
    obtain ⟨hi, hj | hj⟩ := mem_chainPointers hp
    · rw [chainNames, if_pos hj]
      exact tableRef_beyond hcs (hchains s hs p.1 hi).1 hc
    · obtain ⟨hplain, hhost⟩ := (hchains s hs p.1 hi).2 p.2 hj
      rw [chainNames, if_neg hj.ne, entryRefs, if_neg (not_not.mpr hplain)]
      exact tableRef_beyond hcs hhost hc
  have hmeta : L.plainRefs c = 0 := by
    unfold Layout.plainRefs
    rw [hextent _ (by simp [Layout.extents]), hextent _ (by simp [Layout.extents]),
      sum_map_eq_zero fun s hs => hextent _ (by simp only [Layout.extents]; grind),
      sum_map_eq_zero fun e he => hextent e (by simp [Layout.extents, he])]
  have htables : L.tableRefs disk c = 0 := by
    unfold Layout.tableRefs
    rw [hextent _ (by simp [Layout.extents]), zero_add]
    exact sum_eq_zero fun k hk =>
      tableRef_beyond hcs (hblocks k (mem_range.mp hk)) hc
  have hsnapshots : L.snapshotRefs disk c = 0 :=
    sum_map_eq_zero fun s hs => hchain s (List.mem_cons_of_mem _ hs)
  have hactive : L.activeRefs disk c = 0 := hchain (L.l1TableOffset, L.l1Size) List.mem_cons_self
  rw [Layout.refs, hmeta, htables, hsnapshots, hactive]

theorem consistent_of_check (hcs : 0 < L.clusterSize) (hbound : L.Bounded disk B)
    (hcheck : ∀ c < B, (L.refs disk c ≠ 0 → c < limit ∧ L.refcount disk c = L.refs disk c) ∧
      (L.tableRefs disk c ≠ 0 → L.refs disk c = 1))
    (haligned : (∀ i < L.l1Size, hostOf (diskL1 disk L.l1TableOffset i) % L.clusterSize = 0) ∧
      (∀ i < L.l1Size, ∀ j < L.entriesPerL2, EntryAligned L.clusterSize (L.entry disk i j)) ∧
      (∀ k < L.refblocks, L.blockHost disk k % L.clusterSize = 0) ∧
      ∀ s ∈ L.snapshots, ∀ i < s.2, hostOf (diskL1 disk s.1 i) % L.clusterSize = 0) :
      Consistent L disk limit := by
  have hsmall : ∀ c, L.refs disk c ≠ 0 → c < B := by
    intro c hne
    by_contra hc
    exact hne (hbound.refs_eq_zero hcs (by omega))
  refine ⟨fun c hne => (hcheck c (hsmall c hne)).1 hne, fun c hne => ?_, haligned.1, haligned.2.1,
    haligned.2.2.1, haligned.2.2.2⟩
  refine (hcheck c (hsmall c ?_)).2 hne
  unfold Layout.refs
  omega

end

end Instar.Qcow2
