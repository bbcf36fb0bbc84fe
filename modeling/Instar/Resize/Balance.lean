import Instar.Resize.Tally

/-!
# The balance of a grow

Each image on the way of a grow is compared, cluster by cluster, with the image it started from.
Before the header patch no count may fall short of the references of the old header, from it on none
of those of the new one, and at the end they are equal.

Three things decide this.  The new blocks take the table entries from the number of populated
entries on, so a table with holes loses the blocks it has there; they count every cluster of the old
file that falls to them as used once; and an L1 of no entries is taken to have one cluster, whose
count is cleared.
-/

namespace Instar.Resize

open Instar.Qcow2 Instar.RefCount QcowHeader

variable {hdr g : QcowHeader} {disk m : ByteMap} {fileSize newSize : Nat} {others : Nat → Nat}
  {a : Append} {p : Pieces} {c k : Nat} {ws t : List (Nat × Buffer)}

/-- The references of the old image that the new header does not hold: its L1, the table if it
moves, and the blocks whose entries are taken. -/
def Append.retired (hdr : QcowHeader) (disk : ByteMap) (a : Append) (c : Nat) : Nat :=
  hdr.l1Refs c + (if a.relocates hdr then hdr.tableRefs c else 0) + a.dropped hdr disk c

/-- Every cluster is counted at least as often as it is referred to. -/
def Covered (g : QcowHeader) (m : ByteMap) (others : Nat → Nat) : Prop :=
  ∀ c, g.refs m c + others c ≤ g.refcount m c

section

variable (hdr : QcowHeader)

/-- The clusters that fall to the new blocks. -/
def Append.Taken (a : Append) (c : Nat) : Prop :=
  a.count ≤ c / hdr.perBlock ∧ c / hdr.perBlock < a.blockCount

/-- The cluster that stands for an L1 of no entries. -/
def emptyL1 : Nat := hdr.l1TableOffset / hdr.clusterSize

/-- When no count falls short after the header patch: the old clusters that fall to the new blocks
have at most one reference, and an L1 of no entries does not point at a cluster in use. -/
structure Append.Safe (disk : ByteMap) (a : Append) : Prop where
  once : ∀ c < a.pre, a.Taken hdr c → hdr.refs disk c ≤ 1
  empty : hdr.l1Size = 0 → a.Taken hdr (emptyL1 hdr) ∨
      (¬ (a.pre ≤ emptyL1 hdr ∧ emptyL1 hdr < a.total hdr) ∧
      (hdr.refs disk (emptyL1 hdr) = 0 ∨ a.retired hdr disk (emptyL1 hdr) ≠ 0))

/-- When the counts are exact at the end: the old clusters that fall to the new blocks are referred
to exactly once by what is kept, the table entries they take are not in use, and an L1 of no entries
does not point at a cluster in use. -/
structure Append.Exact (disk : ByteMap) (a : Append) : Prop where
  once : ∀ c < a.pre, a.Taken hdr c → hdr.refs disk c = 1 ∧ a.retired hdr disk c = 0
  unused : ∀ c, a.dropped hdr disk c ≠ 0 → hdr.l1Size = 0 ∧ c = emptyL1 hdr
  empty : hdr.l1Size = 0 → a.Taken hdr (emptyL1 hdr) ∨
      (¬ (a.pre ≤ emptyL1 hdr ∧ emptyL1 hdr < a.total hdr) ∧
      hdr.refs disk (emptyL1 hdr) = a.retired hdr disk (emptyL1 hdr))

end

namespace Growing

variable (hg : Growing hdr disk fileSize others newSize a p)
include hg

variable (hk : hdr.blockAt disk (c / hdr.perBlock) ≠ 0)

include hk in
theorem countAt_eq : countAt hdr disk (c / hdr.perBlock) (c % hdr.perBlock) =
    hdr.refs disk c + others c := by
  rw [← hg.sound.counted c]
  unfold refcount countAt
  rw [if_neg hk]

theorem refs_of_no_block (hk : hdr.blockAt disk (c / hdr.perBlock) = 0) :
    hdr.refs disk c = 0 ∧ others c = 0 := by
  have hcount := hg.sound.counted c
  unfold refcount at hcount
  rw [if_pos hk] at hcount
  omega

theorem coords_lt : c % hdr.perBlock < hdr.perBlock :=
  Nat.mod_lt _ (lt_of_lt_of_le (by decide) hg.per_ge)

include hk

/-- The counts of an old block by the cluster they are for. -/
theorem marked_raised : a.raisedCounts hdr disk (c / hdr.perBlock) (c % hdr.perBlock) =
      if c ∈ a.raised hdr then 1 else hdr.refs disk c + others c := by
  have hc : c / hdr.perBlock * entriesPerBlock hdr.clusterSize hdr.refcountBits +
      c % hdr.perBlock = c :=
    Nat.div_add_mod' c hdr.perBlock
  rw [Append.raisedCounts, marked, hc, hg.countAt_eq hk]

theorem marked_cleared : a.clearedCounts hdr disk (c / hdr.perBlock) (c % hdr.perBlock) =
      if c ∈ a.cleared hdr then 0 else if c ∈ a.raised hdr then 1
      else hdr.refs disk c + others c := by
  have hc : c / hdr.perBlock * entriesPerBlock hdr.clusterSize hdr.refcountBits +
      c % hdr.perBlock = c :=
    Nat.div_add_mod' c hdr.perBlock
  rw [← hg.marked_raised hk, Append.clearedCounts, marked, hc]

omit hk

theorem block_of_raised (h : c ∈ a.raised hdr) : hdr.blockAt disk (c / hdr.perBlock) ≠ 0 := by
  obtain ⟨s, hs, hk⟩ := hg.planned.incs.all c h
  have hk' : s.1 = c / hdr.perBlock := hk
  rw [← hk']
  exact hg.planned.placed s (.inl hs)

/-- A cleared cluster has an old block. -/
theorem block_of_cleared (h : c ∈ a.cleared hdr) : hdr.blockAt disk (c / hdr.perBlock) ≠ 0 := by
  obtain ⟨s, hs, hk⟩ := hg.planned.fins.all c h
  have hk' : s.1 = c / hdr.perBlock := hk
  rw [← hk']
  exact hg.planned.placed s (.inr hs)

/-! ## References -/

/-- The references of the old header once the table is written in place. -/
theorem refs_before (hr : Repointed hdr disk a hdr m) (hd : QcowHeader.SameData hdr disk hdr m) :
    (c < a.pre → hdr.refs m c + a.dropped hdr disk c = hdr.refs disk c) ∧
      (a.pre ≤ c → hdr.refs m c = if a.blocksCluster hdr ≤ c ∧ c < a.total hdr then 1 else 0) := by
  have hchain := hd.chain_eq hg.cs_pos hg.sound.toAligned c
  constructor
  · intro hc
    have hlow := hg.blockRefs_low hr hc
    unfold refs own
    omega
  · intro hc
    have hzero := (hg.refs_zero hc).1
    have hhigh := hg.blockRefs_high hr hc
    unfold refs own at hzero ⊢
    omega

theorem l1Refs_after : (a.header hdr newSize).l1Refs c = if a.pre ≤ c ∧
    c < a.tableCluster hdr then 1 else 0 := by
  have hsize : (a.header hdr newSize).clusterSize = hdr.clusterSize := hg.parsed.size_eq.symm
  have hpos : 0 < a.l1Entries * 8 := by
    have := hg.grows
    omega
  have hcount : divCeil (a.l1Entries * 8) hdr.clusterSize = a.l1Count hdr := by
    have hone : 0 < divCeil (a.l1Entries * 8) hdr.clusterSize :=
      (lt_divCeil hg.cs_pos).mpr (by omega)
    unfold Append.l1Count l1Clusters
    omega
  unfold QcowHeader.l1Refs
  rw [hsize]
  show extentRefs hdr.clusterSize (a.pre * hdr.clusterSize, a.l1Entries * 8) c = _
  rw [extentRefs_aligned hg.cs_pos, hcount]
  rfl

theorem tableRefs_after : (a.header hdr newSize).tableRefs c =
    if a.relocates hdr then (if a.tableCluster hdr ≤ c ∧ c < a.blocksCluster hdr then 1 else 0)
    else hdr.tableRefs c := by
  have hsize : (a.header hdr newSize).clusterSize = hdr.clusterSize := hg.parsed.size_eq.symm
  unfold tableRefs
  rw [hsize]
  show extentRefs hdr.clusterSize ((if a.relocates hdr then a.tableCluster hdr * hdr.clusterSize
    else hdr.refcountTableOffset), a.tableClusters * hdr.clusterSize) c = _
  cases hrel : a.relocates hdr with
  | true =>
    simp only [if_true]
    rw [extentRefs_aligned hg.cs_pos, divCeil_mul hg.cs_pos, Append.blocksCluster, hrel, if_pos rfl]
  | false =>
    rw [hg.tableClusters_eq hrel]
    rfl

variable (hr : Repointed hdr disk a (a.header hdr newSize) m)

variable (hd : QcowHeader.SameData hdr disk (a.header hdr newSize) m)

include hd in
include hr in
/-- The references of the new header. -/
theorem refs_after : (c < a.pre → (a.header hdr newSize).refs m c + a.retired hdr disk c =
      hdr.refs disk c) ∧
      (a.pre ≤ c → (a.header hdr newSize).refs m c = if c < a.total hdr then 1 else 0) := by
  have hchain := hd.chain_eq hg.cs_pos hg.sound.toAligned c
  have hl1 := hg.l1Refs_after (c := c)
  have htable := hg.tableRefs_after (c := c)
  obtain ⟨h1, h2, h3⟩ := a.bounds hdr
  constructor
  · intro hc
    have hlow := hg.blockRefs_low hr hc
    rw [if_neg (by omega)] at hl1
    unfold refs own Append.retired
    rw [hchain, hl1, htable]
    cases hrel : a.relocates hdr with
    | true =>
      have hout : ¬ (a.tableCluster hdr ≤ c ∧ c < a.blocksCluster hdr) := by omega
      simp only [if_true, if_neg hout]
      omega
    | false =>
      simp only [Bool.false_eq_true, if_false]
      omega
  · intro hc
    obtain ⟨hzero, -⟩ := hg.refs_zero hc
    have hhigh := hg.blockRefs_high hr hc
    have hpre := hg.pre_pos
    unfold refs own at hzero ⊢
    rw [hchain, hl1, htable, hhigh, if_neg (by omega)]
    cases hrel : a.relocates hdr with
    | true =>
      simp only [if_true]
      split_ifs <;> omega
    | false =>
      have hsame : a.blocksCluster hdr = a.tableCluster hdr := by
        rw [Append.blocksCluster, hrel]
        simp
      split_ifs <;> omega

/-! ## Before the header patch -/

/-- With the old table in place no count falls short. -/
theorem covered_old (hd : QcowHeader.SameData hdr disk hdr m)
    (htable : ∀ k, hdr.blockAt m k = hdr.blockAt disk k) (hcounts : ∀ k, hdr.blockAt disk k ≠ 0 →
      HasCounts hdr disk m k (countAt hdr disk) ∨
      HasCounts hdr disk m k (a.raisedCounts hdr disk)) :
    Covered hdr m others := by
  intro c
  have hrefs : hdr.refs m c = hdr.refs disk c := by
    have hblocks : hdr.blockRefs m c = hdr.blockRefs disk c :=
      total_congr fun k _ => by rw [blockName, blockName, htable]
    unfold refs own
    rw [hd.chain_eq hg.cs_pos hg.sound.toAligned, hblocks]
  rw [hrefs]
  by_cases hk : hdr.blockAt disk (c / hdr.perBlock) = 0
  · obtain ⟨h1, h2⟩ := hg.refs_of_no_block hk
    omega
  unfold refcount
  rw [htable, if_neg hk]
  rcases hcounts _ hk with h | h
  · rw [h _ hg.coords_lt, hg.countAt_eq hk]
  · rw [h _ hg.coords_lt, hg.marked_raised hk]
    split
    next hraised =>
      obtain ⟨h1, h2⟩ := hg.refs_zero (mem_raised.mp hraised).1
      omega
    · exact le_refl _

theorem dropped_le : a.dropped hdr disk c ≤ hdr.blockRefs disk c := by
  have hsub : Finset.Ico a.count a.blockCount ⊆
      Finset.range (a.tableClusters * hdr.clusterSize / 8) := fun k hk => by
    have := hg.blockCount_le_entries
    rw [Finset.mem_Ico] at hk
    exact Finset.mem_range.mpr (by omega)
  rw [← blockRefs_extend hg.tableEntries_le]
  exact Finset.sum_le_sum_of_subset hsub

/-- What the new header does not hold is one of the old image's own clusters. -/
theorem own_of_retired (h : a.retired hdr disk c ≠ 0) : hdr.own disk c ≠ 0 := by
  have hle := hg.dropped_le (c := c)
  unfold Append.retired at h
  unfold own
  split at h <;> omega

theorem covered_before_iff (hr : Repointed hdr disk a hdr m)
    (hd : QcowHeader.SameData hdr disk hdr m)
    (hrel : a.relocates hdr = false) (hnew : 0 < a.newBlocks)
    (hcounts : ∀ k, hdr.blockAt disk k ≠ 0 →
      HasCounts hdr disk m k (countAt hdr disk) ∨
      HasCounts hdr disk m k (a.raisedCounts hdr disk)) :
    Covered hdr m others ↔ ∀ c < a.pre, a.Taken hdr c → hdr.refs disk c + others c ≤ 1 := by
  obtain ⟨h1, h2, h3⟩ := a.bounds hdr
  have hper := hg.per_ge
  constructor
  · intro hcov c hc htaken
    have hle := hcov c
    rw [hg.refcount_fresh hr htaken.1 htaken.2, if_pos (by omega)] at hle
    have hlow := (hg.refs_before hr hd).1 hc
    by_cases hdrop : a.dropped hdr disk c = 0
    · omega
    · have hown : hdr.own disk c ≠ 0 := by
        have := hg.dropped_le (c := c)
        unfold own
        omega
      exact (hg.sound.alone c hown).le
  · intro hcond c
    rcases lt_or_ge c a.pre with hc | hc
    · have hlow := (hg.refs_before hr hd).1 hc
      by_cases htaken : a.Taken hdr c
      · have hone := hcond c hc htaken
        rw [hg.refcount_fresh hr htaken.1 htaken.2, if_pos (by omega)]
        omega
      · rw [hr.refcount_old htaken]
        split
        next hk =>
          obtain ⟨h1, h2⟩ := hg.refs_of_no_block hk
          omega
        next hk =>
          rcases hcounts _ hk with h | h
          · rw [h _ hg.coords_lt, hg.countAt_eq hk]
            omega
          · have hnot : c ∉ a.raised hdr := fun h => by
              have := (mem_raised.mp h).1
              omega
            rw [h _ hg.coords_lt, hg.marked_raised hk, if_neg hnot]
            omega
    · rw [(hg.refs_before hr hd).2 hc, (hg.refs_zero hc).2]
      split
      · -- the new blocks are counted by themselves
        rename_i hin
        have hfull := hg.sized.old_blocks_full (by omega) hg.count_pos hnew hrel
        have htotal := hg.sized.total_le (by omega)
        have hlo : a.count ≤ c / hdr.perBlock := by
          rw [Nat.le_div_iff_mul_le (by omega)]
          omega
        have hhi : c / hdr.perBlock < a.blockCount := by
          rw [Nat.div_lt_iff_lt_mul (by omega)]
          omega
        rw [hg.refcount_fresh hr hlo hhi, if_pos hin.2]
      · exact Nat.zero_le _

/-! ## From the header patch on -/

include hd in
include hr in
/-- An old cluster that the new header does not hold any more. -/
theorem refs_of_retired (hc : c < a.pre) (h : a.retired hdr disk c ≠ 0) :
    (a.header hdr newSize).refs m c = 0 := by
  have hone := hg.sound.alone c (hg.own_of_retired h)
  have hlow := (hg.refs_after hr hd).1 hc
  omega

/-- A cluster past the old file that an old block counts has been raised. -/
theorem raised_of_new (hc : a.pre ≤ c) (hlt : c < a.total hdr) (hnot : ¬ a.Taken hdr c) :
    c ∈ a.raised hdr := by
  have hper : 0 < hdr.perBlock := lt_of_lt_of_le (by decide) hg.per_ge
  have htotal := hg.sized.total_le hper
  have hhi : c / hdr.perBlock < a.blockCount := by
    rw [Nat.div_lt_iff_lt_mul hper]
    omega
  have hlo : c / hdr.perBlock < a.count := Nat.lt_of_not_le fun h => hnot ⟨h, hhi⟩
  rw [Nat.div_lt_iff_lt_mul hper] at hlo
  exact mem_raised.mpr ⟨hc, by omega⟩

/-- A cleared cluster past the old file is the one of an L1 of no entries. -/
theorem cleared_high (hc : a.pre ≤ c) (h : c ∈ a.cleared hdr) :
    hdr.l1Size = 0 ∧ c = emptyL1 hdr := by
  have hzero := (hg.refs_zero hc).1
  unfold refs own at hzero
  rcases hg.mem_cleared.mp h with h | h | h
  · omega
  · omega
  · exact h

include hr hd

/-- A cleared cluster that an old block counts is not held by the new header. -/
theorem refs_of_cleared (hsafe : a.Safe hdr disk) (hnot : ¬ a.Taken hdr c) (h : c ∈ a.cleared hdr) :
    (a.header hdr newSize).refs m c = 0 := by
  rcases lt_or_ge c a.pre with hc | hc
  · rcases hg.mem_cleared.mp h with h | ⟨hrel, h⟩ | ⟨hempty, rfl⟩
    · exact hg.refs_of_retired hr hd hc (by unfold Append.retired; omega)
    · refine hg.refs_of_retired hr hd hc ?_
      unfold Append.retired
      rw [if_pos hrel]
      omega
    · rcases hsafe.empty hempty with htaken | ⟨-, hzero | hret⟩
      · exact absurd htaken hnot
      · have hlow := (hg.refs_after hr hd).1 hc
        unfold emptyL1 at hzero
        omega
      · exact hg.refs_of_retired hr hd hc hret
  · obtain ⟨hempty, rfl⟩ := hg.cleared_high hc h
    rw [(hg.refs_after hr hd).2 hc, if_neg]
    intro hlt
    rcases hsafe.empty hempty with htaken | ⟨hout, -⟩
    · exact hnot htaken
    · exact hout ⟨hc, hlt⟩

/-- In a safe grow no count falls short of the new header's references. -/
theorem covered_after (hsafe : a.Safe hdr disk) (hcounts : ∀ k, hdr.blockAt disk k ≠ 0 →
      HasCounts hdr disk m k (a.raisedCounts hdr disk) ∨
      HasCounts hdr disk m k (a.clearedCounts hdr disk)) :
    Covered (a.header hdr newSize) m fun _ => 0 := by
  obtain ⟨h1, h2, h3⟩ := a.bounds hdr
  intro c
  rw [add_zero]
  by_cases htaken : a.Taken hdr c
  · rw [hg.refcount_fresh hr htaken.1 htaken.2]
    rcases lt_or_ge c a.pre with hc | hc
    · have hlow := (hg.refs_after hr hd).1 hc
      have hone := hsafe.once c hc htaken
      rw [if_pos (by omega)]
      omega
    · exact ((hg.refs_after hr hd).2 hc).le
  rw [hr.refcount_old htaken]
  split
  next hk =>
    rcases lt_or_ge c a.pre with hc | hc
    · have hlow := (hg.refs_after hr hd).1 hc
      have := (hg.refs_of_no_block hk).1
      omega
    · rw [(hg.refs_after hr hd).2 hc, if_neg]
      intro hlt
      exact hg.block_of_raised (hg.raised_of_new hc hlt htaken) hk
  next hk =>
    -- what the block held when its increments were on disk
    have hraised : (a.header hdr newSize).refs m c ≤
        if c ∈ a.raised hdr then 1 else hdr.refs disk c + others c := by
      rcases lt_or_ge c a.pre with hc | hc
      · have hlow := (hg.refs_after hr hd).1 hc
        have hnot : c ∉ a.raised hdr := fun h => by
          have := (mem_raised.mp h).1
          omega
        rw [if_neg hnot]
        omega
      · rw [(hg.refs_after hr hd).2 hc]
        split
        · rw [if_pos (hg.raised_of_new hc ‹_› htaken)]
        · exact Nat.zero_le _
    rcases hcounts _ hk with h | h
    · rw [h _ hg.coords_lt, hg.marked_raised hk]
      exact hraised
    · rw [h _ hg.coords_lt, hg.marked_cleared hk]
      split
      · rw [hg.refs_of_cleared hr hd hsafe htaken ‹_›]
      · exact hraised

/-- A grow whose counts do not fall short at the end was safe. -/
theorem safe_of_covered (hcounts : ∀ k, hdr.blockAt disk k ≠ 0 →
      HasCounts hdr disk m k (a.clearedCounts hdr disk))
      (h : Covered (a.header hdr newSize) m fun _ => 0) : a.Safe hdr disk := by
  obtain ⟨h1, h2, h3⟩ := a.bounds hdr
  constructor
  · intro c hc htaken
    have hle := h c
    rw [hg.refcount_fresh hr htaken.1 htaken.2, if_pos (by omega), add_zero] at hle
    have hlow := (hg.refs_after hr hd).1 hc
    by_cases hret : a.retired hdr disk c = 0
    · omega
    · have := hg.sound.alone c (hg.own_of_retired hret)
      omega
  · intro hempty
    by_cases htaken : a.Taken hdr (emptyL1 hdr)
    · exact .inl htaken
    have hcleared : emptyL1 hdr ∈ a.cleared hdr := hg.mem_cleared.mpr (.inr (.inr ⟨hempty, rfl⟩))
    have hk := hg.block_of_cleared hcleared
    have hzero : (a.header hdr newSize).refs m (emptyL1 hdr) = 0 := by
      have hle := h (emptyL1 hdr)
      rw [hr.refcount_old htaken, if_neg hk, hcounts _ hk _ hg.coords_lt, hg.marked_cleared hk,
        if_pos hcleared] at hle
      omega
    refine .inr ⟨fun hin => ?_, ?_⟩
    · rw [(hg.refs_after hr hd).2 hin.1, if_pos hin.2] at hzero
      omega
    · rcases lt_or_ge (emptyL1 hdr) a.pre with hc | hc
      · have hlow := (hg.refs_after hr hd).1 hc
        omega
      · exact .inl (hg.refs_zero hc).1

end Growing

/-! ## At the end -/

theorem Append.Exact.safe (hx : a.Exact hdr disk) : a.Safe hdr disk := by
  constructor
  · intro c hc htaken
    exact (hx.once c hc htaken).1.le
  · intro hempty
    rcases hx.empty hempty with htaken | ⟨hout, heq⟩
    · exact .inl htaken
    · exact .inr ⟨hout, by omega⟩

section Exact

variable (hg : Growing hdr disk fileSize (fun _ => 0) newSize a p)
include hg

/-- What the new header does not hold and is not cleared is a block whose entry was taken. -/
theorem Growing.dropped_of_retired (h : a.retired hdr disk c ≠ 0) (hnot : c ∉ a.cleared hdr) :
    a.dropped hdr disk c ≠ 0 := by
  rw [hg.mem_cleared] at hnot
  unfold Append.retired at h
  split at h
  next hrel =>
    have : ¬ hdr.tableRefs c ≠ 0 := fun h' => hnot (.inr (.inl ⟨hrel, h'⟩))
    omega
  · have : ¬ hdr.l1Refs c ≠ 0 := fun h' => hnot (.inl h')
    omega

theorem Growing.aligned_after (hr : Repointed hdr disk a (a.header hdr newSize) m)
    (hd : QcowHeader.SameData hdr disk (a.header hdr newSize) m) :
    (a.header hdr newSize).Aligned m := by
  have hsize : (a.header hdr newSize).clusterSize = hdr.clusterSize := hg.parsed.size_eq.symm
  constructor
  · rw [hsize]
    exact Nat.mul_mod_left _ _
  · rw [hsize]
    show (if a.relocates hdr then a.tableCluster hdr * hdr.clusterSize
      else hdr.refcountTableOffset) % hdr.clusterSize = 0
    split
    · exact Nat.mul_mod_left _ _
    · exact hg.sound.table
  · intro k
    rw [hr.table, hsize, Append.newAt]
    split
    · exact Nat.mul_mod_left _ _
    · exact hg.sound.block k
  · intro i hi
    rw [hsize]
    rcases lt_or_ge i hdr.l1Size with h | h
    · rw [hd.l1At_eq h]
      exact hg.sound.l2 i h
    · rw [hd.l1At_new hi h]
      exact Nat.zero_mod _
  · intro i hi j hj
    rw [hd.l2Entries_eq] at hj
    rw [hsize]
    rcases lt_or_ge i hdr.l1Size with h | h
    · rw [hd.l1At_eq h, hd.l2At_eq hg.cs_pos hg.sound.toAligned h hj]
      exact hg.sound.entry i h j hj
    · rw [hd.l1At_new hi h]
      intro _
      have hzero : (a.header hdr newSize).l2At m (hostOf 0) j = 0 := if_pos rfl
      rw [hzero]
      exact Nat.zero_mod _

variable (hr : Repointed hdr disk a (a.header hdr newSize) m)
  (hd : QcowHeader.SameData hdr disk (a.header hdr newSize) m)
  (hcounts : ∀ k, hdr.blockAt disk k ≠ 0 → HasCounts hdr disk m k (a.clearedCounts hdr disk))
include hr hd hcounts

theorem Growing.counted_after (hx : a.Exact hdr disk) (c : Nat) :
    (a.header hdr newSize).refcount m c = (a.header hdr newSize).refs m c := by
  obtain ⟨h1, h2, h3⟩ := a.bounds hdr
  by_cases htaken : a.Taken hdr c
  · rw [hg.refcount_fresh hr htaken.1 htaken.2]
    rcases lt_or_ge c a.pre with hc | hc
    · have hlow := (hg.refs_after hr hd).1 hc
      obtain ⟨hone, hret⟩ := hx.once c hc htaken
      rw [if_pos (by omega)]
      omega
    · exact ((hg.refs_after hr hd).2 hc).symm
  rw [hr.refcount_old htaken]
  split
  next hk =>
    have hle : (a.header hdr newSize).refs m c + 0 ≤ (a.header hdr newSize).refcount m c :=
      hg.covered_after hr hd (hx.safe) (fun k hk => .inr (hcounts k hk)) c
    rw [hr.refcount_old htaken, if_pos hk] at hle
    omega
  next hk =>
    rw [hcounts _ hk _ hg.coords_lt, hg.marked_cleared hk]
    split
    · exact (hg.refs_of_cleared hr hd (hx.safe) htaken ‹_›).symm
    next hnot =>
      rcases lt_or_ge c a.pre with hc | hc
      · have hraised : c ∉ a.raised hdr := fun h => by
          have := (mem_raised.mp h).1
          omega
        have hret : a.retired hdr disk c = 0 := by
          by_contra hret
          have hdrop := hg.dropped_of_retired hret hnot
          exact hnot (hg.mem_cleared.mpr (.inr (.inr (hx.unused c hdrop))))
        have hlow := (hg.refs_after hr hd).1 hc
        rw [if_neg hraised]
        omega
      · rw [(hg.refs_after hr hd).2 hc]
        split
        next hraised =>
          rw [if_pos (by have := (mem_raised.mp hraised).2; omega)]
        next hraised =>
          rw [(hg.refs_zero hc).1, if_neg]
          exact fun hlt => hraised (hg.raised_of_new hc hlt htaken)

theorem Growing.exact_of_counted
    (h : ∀ c, (a.header hdr newSize).refcount m c = (a.header hdr newSize).refs m c) :
    a.Exact hdr disk := by
  obtain ⟨h1, h2, h3⟩ := a.bounds hdr
  have honce : ∀ c < a.pre, a.Taken hdr c → hdr.refs disk c = 1 ∧ a.retired hdr disk c = 0 := by
    intro c hc htaken
    have heq := h c
    rw [hg.refcount_fresh hr htaken.1 htaken.2, if_pos (by omega)] at heq
    have hlow := (hg.refs_after hr hd).1 hc
    have hret : a.retired hdr disk c = 0 := by
      by_contra hret
      have := hg.refs_of_retired hr hd hc hret
      omega
    omega
  refine ⟨honce, fun c hdrop => ?_, fun hempty => ?_⟩
  · have hret : a.retired hdr disk c ≠ 0 := by
      unfold Append.retired
      omega
    have hown := hg.own_of_retired hret
    have hc := hg.own_lt_pre hown
    obtain ⟨hone, hchain, -⟩ := hg.sound.alone_own hown
    by_contra hnot
    have htaken : ¬ a.Taken hdr c := fun htaken => hret (honce c hc htaken).2
    have hk : hdr.blockAt disk (c / hdr.perBlock) ≠ 0 := fun hk => by
      have := (hg.refs_of_no_block hk).1
      unfold refs at this
      omega
    have hcleared : c ∉ a.cleared hdr := by
      have hle := hg.dropped_le (c := c)
      unfold own at hone
      rw [hg.mem_cleared]
      rintro (h' | ⟨-, h'⟩ | h')
      · omega
      · omega
      · exact hnot h'
    have hraised : c ∉ a.raised hdr := fun h => by
      have := (mem_raised.mp h).1
      omega
    have heq := h c
    rw [hr.refcount_old htaken, if_neg hk, hcounts _ hk _ hg.coords_lt, hg.marked_cleared hk,
      if_neg hcleared, if_neg hraised, hg.refs_of_retired hr hd hc hret] at heq
    unfold refs at heq
    omega
  · have hsafe := hg.safe_of_covered hr hd hcounts fun c => (h c).ge
    rcases hsafe.empty hempty with htaken | ⟨hout, hzero⟩
    · exact .inl htaken
    refine .inr ⟨hout, ?_⟩
    by_cases hret : a.retired hdr disk (emptyL1 hdr) = 0
    · omega
    · have hone := hg.sound.alone _ (hg.own_of_retired hret)
      have hc := hg.own_lt_pre (hg.own_of_retired hret)
      have hlow := (hg.refs_after hr hd).1 hc
      omega

theorem Growing.sound_after_iff :
    (a.header hdr newSize).Sound m (a.total hdr * hdr.clusterSize) (fun _ => 0) ↔
    a.Exact hdr disk := by
  have hsize : (a.header hdr newSize).clusterSize = hdr.clusterSize := hg.parsed.size_eq.symm
  obtain ⟨h1, h2, h3⟩ := a.bounds hdr
  constructor
  · intro hs
    exact hg.exact_of_counted hr hd hcounts hs.counted
  · intro hx
    refine ⟨hg.aligned_after hr hd, hg.counted_after hr hd hcounts hx, fun c hne => ?_,
      fun c hown => ?_⟩
    · rw [hsize]
      refine Nat.mul_lt_mul_of_pos_right ?_ hg.cs_pos
      rcases lt_or_ge c a.pre with hc | hc
      · omega
      · rw [(hg.refs_after hr hd).2 hc] at hne
        by_contra hge
        rw [if_neg hge] at hne
        exact hne rfl
    · have hpos : (a.header hdr newSize).refs m c ≠ 0 := by
        unfold refs
        omega
      rcases lt_or_ge c a.pre with hc | hc
      · have hlow := (hg.refs_after hr hd).1 hc
        have hchain := hd.chain_eq hg.cs_pos hg.sound.toAligned c
        have hold : hdr.own disk c ≠ 0 := by
          unfold refs at hlow
          omega
        have hone := hg.sound.alone c hold
        omega
      · have hhigh := (hg.refs_after hr hd).2 hc
        split at hhigh <;> omega

end Exact

end Instar.Resize
