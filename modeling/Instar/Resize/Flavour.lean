import Instar.Resize.Planned
import Mathlib.Order.Interval.Finset.Nat

/-!
# Which grow a sound image gets

The planner rewrites the header alone, or it appends.  For a sound image the choice is made by the
L1 alone: the refcount blocks that are there count at least the tables that are there, so the target
layout of a fresh image never asks for more (`Sound.layout_le`).
-/

namespace Instar.Resize

open Instar.Qcow2 Instar.RefCount QcowHeader Finset

variable {hdr : QcowHeader} {disk : ByteMap} {opts : Qcow2ResizeOpts} {fileSize : Nat}
  {others : Nat → Nat}

/-! ## Counting blocks -/

/-- The populated entries of the refcount table. -/
def populatedEntries (hdr : QcowHeader) (disk : ByteMap) : Finset Nat :=
  (range hdr.tableEntries).filter fun k => hdr.blockAt disk k ≠ 0

theorem mem_populatedEntries {k : Nat} : k ∈ populatedEntries hdr disk ↔
    hdr.blockAt disk k ≠ 0 := by
  rw [populatedEntries, mem_filter, mem_range]
  exact ⟨fun h => h.2, fun h => ⟨lt_tableEntries h, h⟩⟩

variable (hf : FromImage hdr disk opts)

include hf in
theorem FromImage.count_eq :
    countExistingRefcountBlocks opts.existingRefcountTable = (populatedEntries hdr disk).card := by
  have hpop : ∀ n ≤ hdr.tableEntries, populated opts.existingRefcountTable n =
      ((range n).filter fun k => hdr.blockAt disk k ≠ 0).card := by
    intro n hn
    induction n with
    | zero => rfl
    | succ n ih =>
      rw [populated, ih (by omega), hf.word (by omega), range_add_one, filter_insert]
      split
      · rw [card_insert_of_notMem (by simp)]
      · rfl
  unfold countExistingRefcountBlocks
  rw [hf.table_len]
  exact hpop hdr.tableEntries le_rfl

theorem populatedEntries_fit (hdr : QcowHeader) (disk : ByteMap) :
    (populatedEntries hdr disk).card * 8 ≤ hdr.refcountTableClusters * hdr.clusterSize := by
  have hle : (populatedEntries hdr disk).card ≤ hdr.tableEntries := by
    refine (card_filter_le _ _).trans ?_
    rw [card_range]
  unfold tableEntries at hle
  omega

variable (hs : hdr.Sound disk fileSize others) {plan : ResizePlan} {c v : Nat}

include hs

theorem populatedEntries_pos : 0 < (populatedEntries hdr disk).card :=
  card_pos.mpr ⟨0, mem_populatedEntries.mpr hs.block_zero⟩

theorem table_pos : 0 < hdr.refcountTableClusters := by
  by_contra hzero
  have hfit := populatedEntries_fit hdr disk
  have hpos := populatedEntries_pos hs
  rw [show hdr.refcountTableClusters = 0 by omega, zero_mul] at hfit
  omega

omit hs

/-- A refcount block counts at least 64 clusters. -/
theorem perBlock_ge (hp : hdr.Parsed) (hw : LegalWidth hdr.refcountBits) : 64 ≤ hdr.perBlock := by
  have hcs : 512 ≤ hdr.clusterSize := Nat.le_of_dvd hp.size_pos hp.size_dvd
  have hle : hdr.refcountBits ≤ 64 := by
    unfold LegalWidth at hw
    simp only [List.mem_cons, List.not_mem_nil, or_false] at hw
    omega
  have hpos : 0 < hdr.refcountBits := by
    unfold LegalWidth at hw
    simp only [List.mem_cons, List.not_mem_nil, or_false] at hw
    omega
  rw [perBlock, Nat.le_div_iff_mul_le hpos]
  omega

/-! ## The blocks of a sound image count its tables -/

/-- The clusters that populated blocks count. -/
def coveredClusters (hdr : QcowHeader) (disk : ByteMap) : Finset Nat :=
  (populatedEntries hdr disk).biUnion fun k =>
    Finset.Ico (k * hdr.perBlock) (k * hdr.perBlock + hdr.perBlock)

theorem mem_coveredClusters (hper : 0 < hdr.perBlock) (h : hdr.refcount disk c ≠ 0) :
    c ∈ coveredClusters hdr disk := by
  rw [coveredClusters, mem_biUnion]
  refine ⟨c / hdr.perBlock, mem_populatedEntries.mpr fun hzero => h ?_, ?_⟩
  · rw [refcount, if_pos hzero]
  · have := Nat.div_add_mod c hdr.perBlock
    have := Nat.mod_lt c hper
    rw [mem_Ico, mul_comm]
    omega

section

variable (hs : hdr.Sound disk fileSize others) (hper : 0 < hdr.perBlock)
include hs hper

theorem covered_of_own (h : hdr.own disk c ≠ 0) : c ∈ coveredClusters hdr disk := by
  refine mem_coveredClusters hper ?_
  rw [hs.counted c, hs.alone c h]
  decide

/-- The references of an extent of the image's own, summed over the covered clusters. -/
theorem sum_extent_ge {f : Nat → Nat} {first n : Nat}
    (hf : ∀ c, f c = if first ≤ c ∧ c < first + n then 1 else 0)
    (hown : ∀ c, f c ≤ hdr.own disk c) : n ≤ ∑ c ∈ coveredClusters hdr disk, f c := by
  have hsub : Finset.Ico first (first + n) ⊆ coveredClusters hdr disk := by
    intro c hc
    rw [mem_Ico] at hc
    refine covered_of_own hs hper ?_
    have := hown c
    rw [hf c, if_pos hc] at this
    omega
  have hone : ∀ c ∈ Finset.Ico first (first + n), f c = 1 := fun c hc => by
    rw [hf c, if_pos (mem_Ico.mp hc)]
  calc n = ∑ c ∈ Finset.Ico first (first + n), f c := by
        rw [sum_congr rfl hone]
        simp
    _ ≤ ∑ c ∈ coveredClusters hdr disk, f c := sum_le_sum_of_subset hsub

theorem sum_blockRefs_ge :
    (populatedEntries hdr disk).card ≤ ∑ c ∈ coveredClusters hdr disk, hdr.blockRefs disk c := by
  have hone : ∀ k ∈ populatedEntries hdr disk,
      1 ≤ ∑ c ∈ coveredClusters hdr disk, hdr.blockName disk k c := by
    intro k hk
    have hne := mem_populatedEntries.mp hk
    have hpos := blockRefs_pos hne
    have hmem : hdr.blockAt disk k / hdr.clusterSize ∈ coveredClusters hdr disk :=
      covered_of_own hs hper (by unfold own; omega)
    have hval : hdr.blockName disk k (hdr.blockAt disk k / hdr.clusterSize) = 1 := if_pos ⟨hne, rfl⟩
    rw [← hval]
    exact single_le_sum (fun _ _ => Nat.zero_le _) hmem
  calc (populatedEntries hdr disk).card = ∑ _k ∈ populatedEntries hdr disk, 1 := by simp
    _ ≤ ∑ k ∈ populatedEntries hdr disk, ∑ c ∈ coveredClusters hdr disk, hdr.blockName disk k c :=
        sum_le_sum hone
    _ ≤ ∑ k ∈ range hdr.tableEntries, ∑ c ∈ coveredClusters hdr disk, hdr.blockName disk k c :=
        sum_le_sum_of_subset (filter_subset _ _)
    _ = ∑ c ∈ coveredClusters hdr disk, hdr.blockRefs disk c := sum_comm

/-- The refcount blocks of a sound image count its header, its L1, its refcount table and
themselves. -/
theorem tables_le_covered (hcs : 0 < hdr.clusterSize) :
    1 + divCeil (hdr.l1Size * 8) hdr.clusterSize + hdr.refcountTableClusters +
      (populatedEntries hdr disk).card ≤ (populatedEntries hdr disk).card * hdr.perBlock := by
  have hhead : 1 ≤ ∑ c ∈ coveredClusters hdr disk, (if c = 0 then 1 else 0) := sum_extent_ge hs hper
      (fun c => show (if c = 0 then 1 else 0) = if 0 ≤ c ∧ c < 0 + 1 then 1 else 0 by simp)
      fun c => by unfold own; omega
  have hl1 := sum_extent_ge hs hper (l1Refs_eq hcs hs.l1)
    fun c => by unfold own; omega
  have htable := sum_extent_ge hs hper (tableRefs_eq hcs hs.table)
    fun c => by unfold own; omega
  have hblocks := sum_blockRefs_ge hs hper
  have hown : ∑ c ∈ coveredClusters hdr disk, hdr.own disk c ≤ (coveredClusters hdr disk).card := by
    rw [card_eq_sum_ones]
    refine sum_le_sum fun c _ => ?_
    by_cases hc : hdr.own disk c = 0
    · omega
    · rw [(hs.alone_own hc).1]
  have hsplit : ∑ c ∈ coveredClusters hdr disk, hdr.own disk c =
      (∑ c ∈ coveredClusters hdr disk, (if c = 0 then 1 else 0)) +
      (∑ c ∈ coveredClusters hdr disk, hdr.l1Refs c) + (∑ c ∈ coveredClusters hdr disk,
        hdr.tableRefs c) +
      ∑ c ∈ coveredClusters hdr disk, hdr.blockRefs disk c := by
    simp only [own, sum_add_distrib]
  have hcard : (coveredClusters hdr disk).card ≤ _ :=
    card_biUnion_le_card_mul _ _ hdr.perBlock fun k _ => by simp
  omega

end

/-! ## The target layout -/

theorem refcountFixedPoint_le {used per cs T B n : Nat} (hcs : 0 < cs) (hper : 0 < per)
    (hused : used + T + B ≤ B * per) (hB : B * 8 ≤ T * cs) (counts : Nat × Nat) (ht : counts.1 ≤ T)
    (hb : counts.2 ≤ B) :
    (refcountFixedPoint used per cs n counts).1 ≤ T ∧
    (refcountFixedPoint used per cs n counts).2 ≤ B := by
  induction n generalizing counts with
  | zero => exact ⟨ht, hb⟩
  | succ n ih =>
    obtain ⟨tc, bc⟩ := counts
    have hb' : divCeil (used + tc + bc) per ≤ B := divCeil_le hper (by omega)
    have ht' : divCeil (divCeil (used + tc + bc) per * 8) cs ≤ T :=
      divCeil_le hcs ((Nat.mul_le_mul_right 8 hb').trans hB)
    rw [refcountFixedPoint]
    split
    · exact ⟨ht, hb⟩
    · exact ih _ ht' hb'

theorem l2Coverage_pos {size : Nat} (h : 512 ≤ size) (ext : Bool) : 0 < l2Coverage size ext := by
  refine mul_pos (by omega) (Nat.div_pos ?_ ?_)
  · unfold l2EntrySize
    split <;> omega
  · unfold l2EntrySize
    split <;> omega

theorem computeLayout_ok {bits width : Nat} {ext : Bool} {lay : Qcow2Layout}
    (h : computeLayout v bits width ext = .ok lay) :
    0 < v ∧ LegalWidth width ∧ lay.l1Entries = divCeil v (l2Coverage (2 ^ bits) ext) ∧
      lay.l1Entries ≤ qcow2MaxL1SizeEntries ∧ (lay.refcountTableClusters, lay.refcountBlockCount) =
        refcountFixedPoint (1 + l1Clusters lay.l1Entries (2 ^ bits)) (2 ^ bits * 8 / width)
        (2 ^ bits)
          refcountFixedPointIterations (1, 1) := by
  unfold computeLayout at h
  split at h
  · cases h
  rename_i hv
  split at h
  · cases h
  rename_i hbits
  split at h
  · cases h
  rename_i hwidth
  dsimp only at h
  split at h
  · cases h
  split at h
  · cases h
  rename_i hmax
  cases h
  have hcov : 0 < l2Coverage (2 ^ bits) ext :=
    l2Coverage_pos (Nat.pow_le_pow_right (n := 2) (by decide) (show 9 ≤ bits by omega)) ext
  refine ⟨by omega, not_not.mp hwidth, ?_, not_lt.mp hmax, rfl⟩
  show (v + (l2Coverage (2 ^ bits) ext - 1)) / l2Coverage (2 ^ bits) ext = _
  rw [divCeil, Nat.add_sub_assoc hcov]

include hs in
/-- A sound image has the refcount blocks that a fresh image with its L1 would have. -/
theorem layout_le (hp : hdr.Parsed) (hper : 0 < hdr.perBlock) {target : Qcow2Layout}
    (h : computeLayout v hdr.clusterBits hdr.refcountBits hdr.extendedL2 = .ok target)
    (hl1 : target.l1Entries ≤ hdr.l1Size) (hpos : 0 < target.l1Entries) :
    target.refcountBlockCount ≤ (populatedEntries hdr disk).card ∧
      target.refcountTableClusters ≤ hdr.refcountTableClusters := by
  obtain ⟨-, -, -, -, hfix⟩ := computeLayout_ok h
  rw [← hp.size_eq] at hfix
  have hcs := hp.size_pos
  have hcover := tables_le_covered hs hper hcs
  have hclusters : l1Clusters target.l1Entries hdr.clusterSize ≤
      divCeil (hdr.l1Size * 8) hdr.clusterSize := by
    have hle : divCeil (target.l1Entries * 8) hdr.clusterSize ≤
        divCeil (hdr.l1Size * 8) hdr.clusterSize :=
      divCeil_le hcs ((Nat.mul_le_mul_right 8 hl1).trans (le_divCeil_mul hcs))
    have hone : 0 < divCeil (hdr.l1Size * 8) hdr.clusterSize := (lt_divCeil hcs).mpr (by omega)
    unfold l1Clusters
    omega
  have hentries := populatedEntries_fit hdr disk
  have hcount := populatedEntries_pos hs
  have hle := refcountFixedPoint_le (n := refcountFixedPointIterations) hcs hper
    (show 1 + l1Clusters target.l1Entries hdr.clusterSize + hdr.refcountTableClusters +
      (populatedEntries hdr disk).card ≤ (populatedEntries hdr disk).card * hdr.perBlock by omega)
    hentries (1, 1) (table_pos hs) hcount
  unfold perBlock at hle
  rw [← hfix] at hle
  exact ⟨hle.2, hle.1⟩

/-! ## The two kinds of grow -/

/-- The plan rewrites the header and nothing else. -/
def HeaderOnly (hdr : QcowHeader) (newSize : Nat) (patches : List (Nat × Buffer)) : Prop :=
  patches = [(0, ⟨hdr.clusterSize, headerBytes (headerLayout hdr hdr.clusterBits newSize hdr.l1Size
    hdr.l1TableOffset hdr.refcountTableOffset hdr.refcountTableClusters) hdr.lazyRefcounts⟩)]

include hf in
theorem planHeaderOnly_ok (hp : hdr.Parsed) (h : planHeaderOnly opts = .ok plan) :
    HeaderOnly hdr opts.newVirtualSize plan.patches ∧
    plan.totalFileSize = opts.currentFileSize := by
  obtain ⟨-, h⟩ := ok_of_check h
  obtain ⟨header, hheader, h⟩ := ok_of_bind h
  obtain ⟨htotal, hpatches⟩ := push_ok h
  refine ⟨?_, htotal⟩
  rw [HeaderOnly, hpatches, headerFor_ok hf hp hheader, hf.l1Entries, hf.l1Offset, hf.tableOffset,
    hf.tableClusters]
  rfl

theorem nextMultipleOf_ok {n multiple aligned : Nat} (h : nextMultipleOf n multiple = .ok aligned) :
    aligned = divCeil n multiple * multiple ∧ aligned < 2 ^ 64 := by
  unfold nextMultipleOf at h
  dsimp only at h
  split at h
  next hlt =>
    cases h
    exact ⟨rfl, hlt⟩
  · cases h

include hf

theorem FromImage.withFileSize (size : Nat) :
    FromImage hdr disk { opts with currentFileSize := size } :=
  ⟨hf.clusterSize, hf.refcountBits, hf.extendedL2, hf.l1Entries, hf.l1Offset, hf.tableOffset,
    hf.tableClusters, hf.lazyRefcounts, hf.features, hf.l1_len, hf.l1_bytes, hf.table_len,
    hf.table_bytes, hf.block⟩

theorem FromImage.appendRequirements_eq (fuel l1Entries count : Nat) :
    opts.appendRequirements fuel l1Entries count =
      computeAppendRequirements fuel opts.currentFileSize hdr.clusterSize hdr.perBlock
        (l1Clusters l1Entries hdr.clusterSize) hdr.refcountTableClusters count := by
  unfold Qcow2ResizeGrowQuery.appendRequirements Qcow2ResizeGrowQuery.perBlock perBlock
  rw [hf.clusterSize, hf.refcountBits, hf.tableClusters]

omit hf

/-- The append that a grow to `newSize` makes, if the L1 is too short for it: the sizes that
`compute_append_requirements` finds. -/
def appendOf (hdr : QcowHeader) (disk : ByteMap) (fileSize newSize fuel : Nat) : Option Append :=
  let l1Entries := divCeil newSize (l2Coverage hdr.clusterSize hdr.extendedL2)
  let pre := divCeil fileSize hdr.clusterSize
  let count := (populatedEntries hdr disk).card
  if l1Entries ≤ hdr.l1Size then none
  else
    match computeAppendRequirements fuel (pre * hdr.clusterSize) hdr.clusterSize hdr.perBlock
      (l1Clusters l1Entries hdr.clusterSize) hdr.refcountTableClusters count with
    | .ok (blockCount, tableClusters) => some ⟨pre, l1Entries, count, blockCount, tableClusters⟩
    | .error _ => none

/-- The append a grow makes. -/
structure Appends (hdr : QcowHeader) (disk : ByteMap) (fileSize newSize : Nat)
    (a : Append) (p : Pieces) (patches : List (Nat × Buffer)) : Prop where
  pre_eq : a.pre = divCeil fileSize hdr.clusterSize
  count_eq : a.count = (populatedEntries hdr disk).card
  l1_eq : a.l1Entries = divCeil newSize (l2Coverage hdr.clusterSize hdr.extendedL2)
  l1_le : a.l1Entries ≤ qcow2MaxL1SizeEntries
  sized : a.Sized hdr
  planned : Planned hdr disk a newSize p
  patches_eq : patches = p.patches hdr disk a

include hf in
/-- A grow of a sound image rewrites the header alone if the L1 has room, and appends otherwise. -/
theorem planGrow_cases (hp : hdr.Parsed) (hs : hdr.Sound disk opts.currentFileSize others)
    (hrt : hdr.refcountTableClusters < 2 ^ 32) (hfile : opts.currentFileSize < 2 ^ 63)
    (hlt : opts.currentVirtualSize < opts.newVirtualSize) {fuel : Nat}
    (h : planGrow opts fuel = .ok plan) :
    LegalWidth hdr.refcountBits ∧ validateIncompat hdr.incompatibleFeatures = .ok () ∧
    ((appendOf hdr disk opts.currentFileSize opts.newVirtualSize fuel = none ∧
        divCeil opts.newVirtualSize (l2Coverage hdr.clusterSize hdr.extendedL2) ≤ hdr.l1Size ∧
        HeaderOnly hdr opts.newVirtualSize plan.patches ∧
        plan.totalFileSize = opts.currentFileSize) ∨
      ∃ a p, appendOf hdr disk opts.currentFileSize opts.newVirtualSize fuel = some a ∧
        hdr.l1Size < a.l1Entries ∧
        Appends hdr disk opts.currentFileSize opts.newVirtualSize a p plan.patches ∧
        plan.totalFileSize = a.total hdr * hdr.clusterSize) := by
  have hcs := hp.size_pos
  unfold planGrow at h
  simp only [bind_eq_ok, failIf_eq_ok, exists_const] at h
  obtain ⟨hnew, _, hincompat, -, -, h⟩ := h
  rw [if_neg (by omega), if_neg (by omega)] at h
  simp only [bind_eq_ok, failIf_eq_ok, exists_const] at h
  obtain ⟨-, -, bits, hbits, aligned, haligned, target, htarget, counts, hcounts, h⟩ := h
  obtain ⟨hal, -⟩ := nextMultipleOf_ok haligned
  rw [hf.clusterSize] at hal
  have hbits' : bits = hdr.clusterBits := by
    have heq := clusterBitsFrom_ok hbits
    rw [hf.clusterSize, hp.size_eq] at heq
    exact (Nat.pow_right_injective (le_refl 2) heq).symm
  have hlay := ofCreate_eq_ok htarget
  rw [hbits', hf.refcountBits, hf.extendedL2] at hlay
  obtain ⟨-, hwidth, hl1, hl1max, -⟩ := computeLayout_ok hlay
  rw [← hp.size_eq] at hl1
  have hper := perBlock_ge hp hwidth
  have hf' := hf.withFileSize aligned
  rw [hf.count_eq] at hcounts h
  refine ⟨hwidth, hf.features ▸ hincompat, ?_⟩
  unfold Qcow2ResizeGrowQuery.actionFor decideAction at h
  dsimp only at h
  have hl1Entries := hf.l1Entries
  have htableClusters := hf.tableClusters
  by_cases hgrow : hdr.l1Size < target.l1Entries
  · -- the L1 has to grow: the counts are those of the append loop
    have hreq : ({ opts with currentFileSize := aligned } : Qcow2ResizeOpts).appendRequirements fuel
        target.l1Entries (populatedEntries hdr disk).card = .ok (counts.1, counts.2) := by
      unfold Qcow2ResizeGrowQuery.effectiveCounts at hcounts
      rwa [hf'.l1Entries, if_pos hgrow] at hcounts
    have hz := appendRequirements_sized hf' hcs (table_pos hs) hal hreq
    have happend : appendOf hdr disk opts.currentFileSize opts.newVirtualSize fuel =
        some ⟨divCeil opts.currentFileSize hdr.clusterSize, target.l1Entries,
          (populatedEntries hdr disk).card, counts.1, counts.2⟩ := by
      rw [hf'.appendRequirements_eq] at hreq
      dsimp only at hreq
      rw [hal] at hreq
      unfold appendOf
      dsimp only
      rw [← hl1, if_neg (not_le.mpr hgrow), hreq]
    have hpre : divCeil opts.currentFileSize hdr.clusterSize * hdr.clusterSize ≤ 2 ^ 63 := by
      have hdvd : hdr.clusterSize ∣ 2 ^ 63 := by
        rw [hp.size_eq]
        exact pow_dvd_pow 2 (hp.bits_le.trans (by decide))
      obtain ⟨w, hw⟩ := hdvd
      have hle : divCeil opts.currentFileSize hdr.clusterSize ≤ w :=
        divCeil_le hcs (by rw [mul_comm, ← hw]; omega)
      rw [hw, mul_comm]
      exact Nat.mul_le_mul_left _ hle
    refine .inr ⟨⟨divCeil opts.currentFileSize hdr.clusterSize, target.l1Entries,
      (populatedEntries hdr disk).card, counts.1, counts.2⟩, ?_⟩
    by_cases hmore : (populatedEntries hdr disk).card < counts.1 ∨
        opts.currentRefcountTableClusters < counts.2
    · rw [if_pos hmore] at h
      obtain ⟨p, hplanned, hpatches, htotal⟩ :=
        planL1AndRefcountGrow_planned hf' hp hz hal rfl hpre hrt hreq h
      exact ⟨p, happend, hgrow, ⟨rfl, rfl, hl1, hl1max, hz, hplanned, hpatches⟩, htotal⟩
    · rw [if_neg hmore, if_pos (by omega)] at h
      have hsame : counts.1 = (populatedEntries hdr disk).card := by
        have := hz.count_le
        dsimp only at this
        omega
      have hsame' : counts.2 = hdr.refcountTableClusters := by
        have := hz.table_le
        dsimp only at this
        omega
      obtain ⟨p, hplanned, hpatches, htotal⟩ :=
        planL1Grow_planned hf' hp hz (by omega) hal rfl hsame hsame' hpre hrt h
      exact ⟨p, happend, hgrow, ⟨rfl, rfl, hl1, hl1max, hz, hplanned, hpatches⟩, htotal⟩
  · have hcounts' : counts = (target.refcountBlockCount, target.refcountTableClusters) := by
      unfold Qcow2ResizeGrowQuery.effectiveCounts at hcounts
      rw [hf'.l1Entries, if_neg hgrow] at hcounts
      exact (Except.ok.inj hcounts).symm
    have hl1pos : 0 < target.l1Entries := by
      rw [hl1]
      refine (lt_divCeil (l2Coverage_pos ?_ _)).mpr (by omega)
      exact Nat.le_of_dvd hcs hp.size_dvd
    obtain ⟨hb, ht⟩ := layout_le hs hp (by omega) hlay (by omega) hl1pos
    rw [hcounts', if_neg (by dsimp only; omega), if_neg (by omega)] at h
    obtain ⟨hpatches, htotal⟩ := planHeaderOnly_ok hf hp h
    have hle : divCeil opts.newVirtualSize (l2Coverage hdr.clusterSize hdr.extendedL2) ≤
        hdr.l1Size := by
      omega
    exact .inl ⟨if_pos hle, hle, hpatches, htotal⟩

end Instar.Resize
