import Instar.Resize.Cuts

/-!
# References and counts while a grow is under way

Two kinds of image occur on the way.  Before the refcount table changes, the old header sees the old
tables, and only counts of unused clusters have been raised.  Once the table has the new blocks in
it (`Repointed`), a cluster is counted by a new block or by an old one, and the references are the
old ones less what the new tables no longer name.
-/

namespace Instar.Resize

open Instar.Qcow2 Instar.RefCount ByteMap QcowHeader Finset

variable {hdr g : QcowHeader} {disk m : ByteMap} {fileSize newSize : Nat} {others : Nat → Nat}
  {a : Append} {p : Pieces} {c k : Nat} {t : List (Nat × Buffer)}

section

variable (hdr : QcowHeader) (disk : ByteMap) (a : Append)

/-- Where refcount block `k` is by the new table. -/
def Append.newAt (k : Nat) : Nat :=
  if a.count ≤ k ∧ k < a.blockCount then (a.blocksCluster hdr + (k - a.count)) * hdr.clusterSize
  else hdr.blockAt disk k

/-- The references to old blocks whose table entries the new blocks take. -/
def Append.dropped (c : Nat) : Nat :=
  RefCount.total (Finset.Ico a.count a.blockCount) (hdr.blockName disk) c

/-- The header `g` sees the new refcount table in `m`, and the new blocks count the new clusters. -/
structure Repointed (g : QcowHeader) (m : ByteMap) :
    Prop where
  size : g.clusterSize = hdr.clusterSize
  width : g.refcountBits = hdr.refcountBits
  clusters : g.refcountTableClusters = a.tableClusters
  table : ∀ k, g.blockAt m k = a.newAt hdr disk k
  fresh : ∀ i < a.newBlocks, ∀ j < hdr.perBlock,
    refcountIn hdr.refcountBits (hdr.blockBytes m ((a.blocksCluster hdr + i) * hdr.clusterSize)) j =
      if (a.count + i) * hdr.perBlock + j < a.total hdr then 1 else 0

end

theorem Repointed.refcount_old (hr : Repointed hdr disk a g m)
    (h : ¬ (a.count ≤ c / hdr.perBlock ∧ c / hdr.perBlock < a.blockCount)) :
    g.refcount m c = if hdr.blockAt disk (c / hdr.perBlock) = 0 then 0
      else refcountIn hdr.refcountBits
        (hdr.blockBytes m (hdr.blockAt disk (c / hdr.perBlock))) (c % hdr.perBlock) := by
  have hper : g.perBlock = hdr.perBlock := by
    unfold perBlock
    rw [hr.size, hr.width]
  have hat : a.newAt hdr disk (c / hdr.perBlock) = hdr.blockAt disk (c / hdr.perBlock) := if_neg h
  unfold refcount blockBytes
  rw [hper, hr.table, hr.width, hr.size, hat]

/-- The references of a longer table with the same blocks. -/
theorem blockRefs_extend {n : Nat} (hn : hdr.tableEntries ≤ n) :
    total (range n) (hdr.blockName disk) c = hdr.blockRefs disk c := by
  symm
  refine sum_subset (range_subset_range.mpr hn) fun k _ hk => ?_
  have hzero : hdr.blockAt disk k = 0 := blockAt_of_le (not_lt.mp fun h => hk (mem_range.mpr h))
  simp [blockName, tableRef, hzero]

theorem Repointed.blockRefs_eq (hr : Repointed hdr disk a g m) :
    g.blockRefs m c = total (range (a.tableClusters * hdr.clusterSize / 8))
      (fun k c => tableRef hdr.clusterSize (a.newAt hdr disk k) c) c := by
  unfold blockRefs tableEntries
  rw [hr.clusters, hr.size]
  refine total_congr fun k _ => ?_
  rw [blockName, hr.table, hr.size]

namespace Growing

variable (hg : Growing hdr disk fileSize others newSize a p)
include hg

theorem blockCount_le_entries : a.blockCount ≤ a.tableClusters * hdr.clusterSize / 8 := by
  have := hg.sized.entries_le hg.cs_pos
  omega

theorem tableEntries_le : hdr.tableEntries ≤ a.tableClusters * hdr.clusterSize / 8 :=
  Nat.div_le_div_right (Nat.mul_le_mul_right _ hg.sized.table_le)

/-- A table whose words are the new ones. -/
theorem blockAt_new (hsize : g.clusterSize = hdr.clusterSize)
    (hclusters : g.refcountTableClusters = a.tableClusters)
    (hwords : ∀ k < a.tableClusters * hdr.clusterSize / 8,
      m.be (g.refcountTableOffset + k * 8) 8 = a.newAt hdr disk k) (k : Nat) :
    g.blockAt m k = a.newAt hdr disk k := by
  unfold blockAt tableEntries
  rw [hsize, hclusters]
  split
  · exact hwords k ‹_›
  next hk =>
    have hle := hg.blockCount_le_entries
    have hle' := hg.tableEntries_le
    rw [Append.newAt, if_neg (by omega), blockAt_of_le (by omega)]

variable (hr : Repointed hdr disk a g m) {ws : List (Nat × Buffer)} {b : Nat}

include hr

theorem refcount_fresh (hlo : a.count ≤ c / hdr.perBlock) (hhi : c / hdr.perBlock < a.blockCount) :
    g.refcount m c = if c < a.total hdr then 1 else 0 := by
  have hper : g.perBlock = hdr.perBlock := by
    unfold perBlock
    rw [hr.size, hr.width]
  have hpos : 0 < hdr.perBlock := lt_of_lt_of_le (by decide) hg.per_ge
  obtain ⟨h1, h2, -⟩ := a.bounds hdr
  have hat : a.newAt hdr disk (c / hdr.perBlock) =
      (a.blocksCluster hdr + (c / hdr.perBlock - a.count)) * hdr.clusterSize := if_pos ⟨hlo, hhi⟩
  have hne : a.newAt hdr disk (c / hdr.perBlock) ≠ 0 := by
    rw [hat]
    exact ne_of_gt (mul_pos (by omega) hg.cs_pos)
  have hblocks := hg.sized.blockCount_eq
  unfold refcount
  rw [hper, hr.table, if_neg hne, hr.width, hat]
  have hfresh := hr.fresh (c / hdr.perBlock - a.count) (by omega) (c % hdr.perBlock)
    (Nat.mod_lt _ hpos)
  rw [show a.count + (c / hdr.perBlock - a.count) =
    c / hdr.perBlock by omega, Nat.div_add_mod'] at hfresh
  unfold blockBytes at hfresh ⊢
  rw [hr.size]
  exact hfresh

/-- In the old file the new table names the blocks it kept. -/
theorem blockRefs_low (hc : c < a.pre) :
    g.blockRefs m c + a.dropped hdr disk c = hdr.blockRefs disk c := by
  obtain ⟨h1, h2, -⟩ := a.bounds hdr
  have hsub : Finset.Ico a.count a.blockCount ⊆
      range (a.tableClusters * hdr.clusterSize / 8) := fun k hk => by
    have := hg.blockCount_le_entries
    rw [mem_Ico] at hk
    exact mem_range.mpr (by omega)
  rw [hr.blockRefs_eq, ← blockRefs_extend hg.tableEntries_le]
  unfold Append.dropped RefCount.total
  rw [← sum_sdiff hsub, ← sum_sdiff hsub]
  have hkept : ∑ k ∈ range (a.tableClusters * hdr.clusterSize / 8) \
        Finset.Ico a.count a.blockCount, tableRef hdr.clusterSize (a.newAt hdr disk k) c =
      ∑ k ∈ range (a.tableClusters * hdr.clusterSize / 8) \
        Finset.Ico a.count a.blockCount, hdr.blockName disk k c := by
    refine sum_congr rfl fun k hk => ?_
    rw [mem_sdiff, mem_Ico] at hk
    rw [Append.newAt, if_neg hk.2, blockName]
  have hnone : ∑ k ∈ Finset.Ico a.count a.blockCount,
      tableRef hdr.clusterSize (a.newAt hdr disk k) c = 0 := by
    refine sum_eq_zero fun k hk => ?_
    rw [Append.newAt, if_pos (mem_Ico.mp hk), tableRef, if_neg]
    rintro ⟨-, heq⟩
    rw [Nat.mul_div_cancel _ hg.cs_pos] at heq
    omega
  dsimp only
  omega

/-- Past the old file the new table names the new blocks. -/
theorem blockRefs_high (hc : a.pre ≤ c) :
    g.blockRefs m c = if a.blocksCluster hdr ≤ c ∧ c < a.total hdr then 1 else 0 := by
  obtain ⟨h1, h2, -⟩ := a.bounds hdr
  have hcount := hg.sized.blockCount_eq
  have hterm : ∀ k, tableRef hdr.clusterSize (a.newAt hdr disk k) c =
      if (a.count ≤ k ∧ k < a.blockCount) ∧ a.blocksCluster hdr + (k - a.count) = c then 1
      else 0 := by
    intro k
    by_cases hk : a.count ≤ k ∧ k < a.blockCount
    · rw [Append.newAt, if_pos hk, tableRef, Nat.mul_div_cancel _ hg.cs_pos]
      have hne : (a.blocksCluster hdr + (k - a.count)) * hdr.clusterSize ≠ 0 :=
        ne_of_gt (mul_pos (by omega) hg.cs_pos)
      simp [hne, hk]
    · rw [Append.newAt, if_neg hk, tableRef, if_neg, if_neg (fun h => hk h.1)]
      rintro ⟨hne, heq⟩
      have := hg.block_lt_pre hne
      omega
  rw [hr.blockRefs_eq]
  unfold total
  simp only [hterm]
  split
  next hin =>
    unfold Append.total at hin
    have hle := hg.blockCount_le_entries
    rw [sum_eq_single (a.count + (c - a.blocksCluster hdr))]
    · rw [if_pos ⟨by omega, by omega⟩]
    · intro k _ hne
      rw [if_neg (by omega)]
    · intro hnot
      exact absurd (mem_range.mpr (by omega)) hnot
  next hout =>
    unfold Append.total at hout
    exact sum_eq_zero fun k _ => if_neg (by omega)

omit hr

/-! ## The counts of the old blocks -/

omit hg in
theorem mem_raised : c ∈ a.raised hdr ↔
    a.pre ≤ c ∧ c < min (a.count * hdr.perBlock) (a.total hdr) := by
  unfold Append.raised
  rw [List.mem_range'_1]
  omega

/-- The clusters whose counts are cleared. -/
theorem mem_cleared : c ∈ a.cleared hdr ↔ hdr.l1Refs c ≠ 0 ∨
    (a.relocates hdr = true ∧ hdr.tableRefs c ≠ 0) ∨
    (hdr.l1Size = 0 ∧ c = hdr.l1TableOffset / hdr.clusterSize) := by
  have hl1 := l1Refs_eq hg.cs_pos hg.sound.l1 c
  have htable := tableRefs_eq hg.cs_pos hg.sound.table c
  have hzero : hdr.l1Size = 0 ↔ divCeil (hdr.l1Size * 8) hdr.clusterSize = 0 := by
    constructor
    · intro h
      exact Nat.div_eq_of_lt (by have := hg.cs_pos; omega)
    · intro h
      have := le_divCeil_mul (n := hdr.l1Size * 8) hg.cs_pos
      rw [h, zero_mul] at this
      omega
  have hrange : c ∈ List.range' (hdr.l1TableOffset / hdr.clusterSize)
      (l1Clusters hdr.l1Size hdr.clusterSize) ↔
        hdr.l1Refs c ≠ 0 ∨ (hdr.l1Size = 0 ∧ c = hdr.l1TableOffset / hdr.clusterSize) := by
    unfold l1Clusters
    rw [List.mem_range'_1, hl1, hzero]
    simp only [ne_eq, ite_eq_right_iff, one_ne_zero, imp_false, not_not]
    omega
  have hrange' : c ∈ List.range' (hdr.refcountTableOffset / hdr.clusterSize)
      hdr.refcountTableClusters ↔ hdr.tableRefs c ≠ 0 := by
    rw [List.mem_range'_1, htable]
    simp
  unfold Append.cleared
  rw [List.mem_append, List.mem_ite_nil_right, hrange, hrange']
  tauto

/-- The blocks are not among the appended tables, the table in place or the header. -/
theorem block_bytes_old (hws : ∀ w ∈ ws, w ∈ p.appended hdr a ∨ w ∈ p.inPlace hdr a ∨
    w = (0, p.header)) (hk : hdr.blockAt disk k ≠ 0) (j : Nat) :
    refcountIn hdr.refcountBits (hdr.blockBytes (applyAll ws m) (hdr.blockAt disk k)) j =
      refcountIn hdr.refcountBits (hdr.blockBytes m (hdr.blockAt disk k)) j := by
  obtain ⟨hne, -, htable, -, -⟩ := hg.sound.block_alone hk
  refine refcountIn_congr rfl fun i hi => applyAll_outside fun w hw hcov => ?_
  have hdiv := div_of_aligned hg.cs_pos (hg.sound.block k) hi
  rcases hws w hw with hw | hw | rfl
  · have := hg.appended_high hw hcov
    have := hg.block_lt_pre hk
    omega
  · rw [← hdiv] at htable
    exact hg.inPlace_table hw hcov htable
  · have hlt := hcov.2
    rw [hg.planned.header_eq] at hlt
    rw [zero_add] at hlt
    rw [Nat.div_eq_of_lt hlt] at hdiv
    omega

/-- The counts of an old block before the header patch. -/
theorem counts_before (ht : t <+: place hdr disk p.incs) (hk : hdr.blockAt disk k ≠ 0) :
    (HasCounts hdr disk (applyAll (p.appended hdr a ++ (p.inPlace hdr a ++ t)) disk) k
      (countAt hdr disk) ∧
        t ≠ place hdr disk p.incs) ∨
      HasCounts hdr disk (applyAll (p.appended hdr a ++ (p.inPlace hdr a ++ t)) disk) k
        (a.raisedCounts hdr disk) := by
  rw [← List.append_assoc, applyAll_append]
  refine place_counts hg.cs_pos hg.sound hg.planned.incs (fun s hs =>
    hg.planned.placed s (.inl hs)) ht hk fun j _ => ?_
  exact hg.block_bytes_old (fun w hw => by rw [List.mem_append] at hw; tauto) hk j

/-- The counts of an old block from the header patch on. -/
theorem counts_after (ht : t <+: place hdr disk p.fins) (hk : hdr.blockAt disk k ≠ 0) :
    (HasCounts hdr disk (applyAll (p.prepare hdr disk a ++ (0, p.header) :: t) disk) k
        (a.raisedCounts hdr disk) ∧ t ≠ place hdr disk p.fins) ∨
      HasCounts hdr disk (applyAll (p.prepare hdr disk a ++ (0, p.header) :: t) disk) k
        (a.clearedCounts hdr disk) := by
  rw [show p.prepare hdr disk a ++ (0, p.header) :: t =
      (p.prepare hdr disk a ++ [(0, p.header)]) ++ t by
    simp, applyAll_append]
  refine place_counts hg.cs_pos hg.sound hg.planned.fins (fun s hs =>
    hg.planned.placed s (.inr hs)) ht hk fun j hj => ?_
  rw [applyAll_append, hg.block_bytes_old (fun w hw => .inr (.inr (List.mem_singleton.mp hw))) hk j,
    Pieces.prepare_eq]
  rcases hg.counts_before (List.prefix_refl _) hk with ⟨-, hne⟩ | hall
  · exact absurd rfl hne
  · exact hall j hj

/-! ## The images on the way -/

/-- The old L1 is never written. -/
theorem l1_bytes_old (h : ws <+: p.patches hdr disk a)
    (hb : hdr.l1Refs (b / hdr.clusterSize) ≠ 0) : applyAll ws m b = m b := by
  have hown : hdr.own disk (b / hdr.clusterSize) ≠ 0 := by
    unfold own
    omega
  have hone := (hg.sound.alone_own hown).1
  unfold own at hone
  have htable : hdr.tableRefs (b / hdr.clusterSize) = 0 := by omega
  have hplace : ∀ {bs : List (Nat × Buffer)} {w : Nat × Buffer},
      (∀ s ∈ bs, s.2.len = hdr.clusterSize) → (∀ s ∈ bs, hdr.blockAt disk s.1 ≠ 0) →
      w ∈ place hdr disk bs → ¬ Covers w b := by
    intro bs w hlen hplaced hw hcov
    obtain ⟨s, -, -, hne, heq⟩ := place_block hg.cs_pos hg.sound hlen hplaced hw hcov
    have := blockRefs_pos hne
    rw [heq] at this
    omega
  refine applyAll_outside fun w hw hcov => ?_
  rcases mem_patches h w hw with hw | hw | hw | rfl | hw
  · have := hg.appended_high hw hcov
    have := hg.own_lt_pre hown
    omega
  · exact hg.inPlace_table hw hcov htable
  · exact hplace (fun s hs => (hg.planned.incs.holds s hs).1)
      (fun s hs => hg.planned.placed s (.inl hs)) hw hcov
  · have hlt := hcov.2
    rw [hg.planned.header_eq] at hlt
    rw [zero_add] at hlt
    rw [Nat.div_eq_of_lt hlt, if_pos rfl] at hone
    rw [Nat.div_eq_of_lt hlt] at hb
    omega
  · exact hplace (fun s hs => (hg.planned.fins.holds s hs).1)
      (fun s hs => hg.planned.placed s (.inr hs)) hw hcov

theorem l1_cluster {i : Nat} (hi : i < hdr.l1Size * 8) :
    hdr.l1Refs ((hdr.l1TableOffset + i) / hdr.clusterSize) ≠ 0 := by
  have hle := le_divCeil_mul (n := hdr.l1Size * 8) hg.cs_pos
  have hin := hg.div_add (q := hdr.l1TableOffset / hdr.clusterSize) (hi.trans_le hle)
  rw [← aligned_eq hg.sound.l1] at hin
  rw [l1Refs_eq hg.cs_pos hg.sound.l1, if_pos hin]
  exact one_ne_zero

/-- What the L1 reaches is never written. -/
theorem data_kept (h : ws <+: p.patches hdr disk a)
    (hb : hdr.chain disk (b / hdr.clusterSize) ≠ 0) : applyAll ws disk b = disk b := by
  refine hg.low_bytes h (hg.lt_pre (by unfold refs; omega)) ?_
  by_contra hown
  exact hb (hg.sound.alone_own hown).2.1

theorem external : hdr.incompatibleFeatures &&& incompatExternalData = 0 := by
  rcases features_of_validated hg.bounded.features_lt hg.gates with h | h <;> rw [h] <;> decide

/-- Before the header patch the old header sees the old data. -/
theorem same_before (h : ws <+: p.prepare hdr disk a) :
    QcowHeader.SameData hdr disk hdr (applyAll ws disk) := by
  have hpatches : ws <+: p.patches hdr disk a := h.trans (List.prefix_append _ _)
  refine ⟨rfl, rfl, rfl, rfl, hg.external, rfl, le_refl _, fun i hi => ?_,
    fun b hb => hg.data_kept hpatches hb⟩
  rw [if_pos hi]
  refine be_congr fun n hn => hg.l1_bytes_old hpatches ?_
  rw [add_assoc]
  exact hg.l1_cluster (by omega)

end Growing

theorem late_after (ht : t <+: place hdr disk p.fins) :
    Late hdr disk a p (p.inPlace hdr a ++ (place hdr disk p.incs ++ (0, p.header) :: t)) := by
  intro w hw
  simp only [List.mem_append, List.mem_cons] at hw
  rcases hw with hw | hw | hw | hw
  · exact .inl hw
  · exact .inr (.inl hw)
  · exact .inr (.inr (.inl hw))
  · exact .inr (.inr (.inr (ht.subset hw)))

/-- The header a grow that appends writes. -/
def Append.header (hdr : QcowHeader) (a : Append) (newSize : Nat) : QcowHeader :=
  headerOf (a.layout hdr newSize) hdr.lazyRefcounts

namespace Growing

variable (hg : Growing hdr disk fileSize others newSize a p)
include hg

omit hg in
theorem after_eq : p.prepare hdr disk a ++ (0, p.header) :: t =
      p.appended hdr a ++ (p.inPlace hdr a ++ (place hdr disk p.incs ++ (0, p.header) :: t)) := by
  rw [Pieces.prepare_eq, List.append_assoc, List.append_assoc]

/-- From the header patch on the new header sees the old data. -/
theorem same_after (ht : t <+: place hdr disk p.fins) :
      QcowHeader.SameData hdr disk (a.header hdr newSize)
      (applyAll (p.prepare hdr disk a ++ (0, p.header) :: t) disk) := by
  have hpatches : p.prepare hdr disk a ++ (0, p.header) :: t <+: p.patches hdr disk a :=
    (List.prefix_append_right_inj _).mpr (List.prefix_cons_inj _ |>.mpr ht)
  have hfeatures : (a.header hdr newSize).incompatibleFeatures = hdr.incompatibleFeatures :=
    rewritten_features hg.bounded hg.gates
  have hnone : hdr.incompatibleFeatures &&& incompatCompression = 0 := by
    rcases features_of_validated hg.bounded.features_lt hg.gates with h | h <;> rw [h] <;> decide
  refine ⟨rfl, hg.parsed.size_eq.symm, rfl, hfeatures, hg.external, ?_, hg.grows.le, fun i hi => ?_,
    fun b hb => hg.data_kept hpatches hb⟩
  · unfold compression
    rw [hfeatures, if_neg (not_not.mpr hnone), if_neg (not_not.mpr hnone)]
  · rw [← hg.planned.l1_word i hi, after_eq]
    have hend : i * 8 + 8 ≤ a.l1Count hdr * hdr.clusterSize := by
      have hle := le_divCeil_mul (n := a.l1Entries * 8) hg.cs_pos
      have hmax : divCeil (a.l1Entries * 8) hdr.clusterSize ≤ a.l1Count hdr := le_max_left _ _
      have hmul := Nat.mul_le_mul_right hdr.clusterSize hmax
      have hi' : i < a.l1Entries := hi
      omega
    refine be_congr fun n hn => ?_
    show applyAll _ disk (a.pre * hdr.clusterSize + i * 8 + n) = _
    rw [add_assoc]
    exact hg.l1_bytes (late_after ht) (by omega)

/-- The new blocks, once the appended tables are on disk. -/
theorem fresh_blocks {rest : List (Nat × Buffer)} (hrest : Late hdr disk a p rest) :
    ∀ i < a.newBlocks, ∀ j < hdr.perBlock,
      refcountIn hdr.refcountBits (hdr.blockBytes (applyAll (p.appended hdr a ++ rest) disk)
        ((a.blocksCluster hdr + i) * hdr.clusterSize)) j =
          if (a.count + i) * hdr.perBlock + j < a.total hdr then 1 else 0 := by
  intro i hi j hj
  rw [← hg.planned.blocks_count i hi j hj]
  refine refcountIn_congr rfl fun n hn => ?_
  have hn' : n < hdr.clusterSize := hn
  have hend : i * hdr.clusterSize + n < a.newBlocks * hdr.clusterSize := by
    have := Nat.mul_le_mul_right hdr.clusterSize (Nat.succ_le_of_lt hi)
    rw [Nat.succ_mul] at this
    omega
  have hbyte := hg.block_bytes (m := disk) hrest hend
  show applyAll _ disk ((a.blocksCluster hdr + i) * hdr.clusterSize + n) =
    p.blocks.bytes (i * hdr.clusterSize + n)
  rw [add_mul, add_assoc]
  exact hbyte

/-- The words of the new table. -/
theorem newAt_word (hnew : 0 < a.newBlocks) {k : Nat}
    (hk : k < a.tableClusters * hdr.clusterSize / 8) :
    p.table.be (k * 8) 8 = a.newAt hdr disk k := by
  rw [hg.planned.table_word hnew k hk]
  rfl

/-- Once the table is in place the old header sees it. -/
theorem repointed_before (hrel : a.relocates hdr = false) (hnew : 0 < a.newBlocks)
    (ht : t <+: place hdr disk p.incs) :
    Repointed hdr disk a hdr (applyAll (p.appended hdr a ++ (p.inPlace hdr a ++ t)) disk) := by
  have hclusters := (hg.tableClusters_eq hrel).symm
  refine ⟨rfl, rfl, hclusters, hg.blockAt_new rfl hclusters fun k hk => ?_,
    hg.fresh_blocks fun w hw => ?_⟩
  · rw [← hg.newAt_word hnew hk]
    refine be_congr fun n hn => ?_
    rw [add_assoc]
    exact hg.new_table hrel hnew (fun w hw => .inl (ht.subset hw)) (by omega)
  · rw [List.mem_append] at hw
    rcases hw with hw | hw
    · exact .inl hw
    · exact .inr (.inl (ht.subset hw))

theorem repointed_after (ht : t <+: place hdr disk p.fins) :
      Repointed hdr disk a (a.header hdr newSize)
      (applyAll (p.prepare hdr disk a ++ (0, p.header) :: t) disk) := by
  have hsize : (a.header hdr newSize).clusterSize = hdr.clusterSize := hg.parsed.size_eq.symm
  rw [after_eq]
  refine ⟨hsize, rfl, rfl, hg.blockAt_new hsize rfl fun k hk => ?_, hg.fresh_blocks (late_after ht)⟩
  cases hrel : a.relocates hdr with
  | true =>
    have hnew := hg.sized.newBlocks_of_relocates hg.cs_pos hg.entries_fit hrel
    have hoff : (a.header hdr newSize).refcountTableOffset =
        a.tableCluster hdr * hdr.clusterSize := by
      show (if a.relocates hdr then _ else _) = _
      rw [hrel, if_pos rfl]
    rw [← hg.newAt_word hnew hk, hoff]
    refine be_congr fun n hn => ?_
    rw [add_assoc]
    exact hg.table_bytes (late_after ht) hrel (by omega)
  | false =>
    have hoff : (a.header hdr newSize).refcountTableOffset = hdr.refcountTableOffset := by
      show (if a.relocates hdr then _ else _) = _
      rw [hrel]
      simp
    have hlate : ∀ w ∈ place hdr disk p.incs ++ (0, p.header) :: t, w ∈ place hdr disk p.incs ∨
        w = (0, p.header) ∨ w ∈ place hdr disk p.fins := by
      intro w hw
      rw [List.mem_append, List.mem_cons] at hw
      rcases hw with hw | hw | hw
      · exact .inl hw
      · exact .inr (.inl hw)
      · exact .inr (.inr (ht.subset hw))
    rw [hoff]
    rcases Nat.eq_zero_or_pos a.newBlocks with hnone | hnew
    · -- the table is as it was
      have hcount := hg.sized.blockCount_eq
      have hclusters := hg.tableClusters_eq hrel
      have hk' : k < hdr.tableEntries := by
        rw [tableEntries, ← hclusters]
        exact hk
      have hempty : p.inPlace hdr a = [] := if_neg (by omega)
      rw [Append.newAt, if_neg (by omega), blockAt, if_pos hk', hempty, List.nil_append]
      refine be_congr fun n hn => hg.old_table (fun w hw => ?_) ?_
      · rw [List.mem_append] at hw
        rcases hw with hw | hw
        · exact .inl hw
        · exact .inr (hlate w hw)
      · rw [add_assoc]
        refine table_cluster hg.cs_pos hg.sound.table ?_
        unfold tableEntries at hk'
        omega
    · rw [← hg.newAt_word hnew hk]
      refine be_congr fun n hn => ?_
      rw [add_assoc]
      exact hg.new_table hrel hnew hlate (by omega)

end Growing

end Instar.Resize
