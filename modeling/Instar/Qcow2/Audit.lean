import Instar.Qcow2.Counts

/-!
# Auditing an image

Soundness speaks of every cluster there could be.  An audit looks at the tables of an image and at
the clusters below a bound that nothing reaches past, which is a finite check, and an image that
passes it is sound.
-/

namespace Instar.Qcow2

open Instar.RefCount

/-- The first cluster past those an L2 entry refers to. -/
def entryTop (bits cs entry : Nat) : Nat :=
  if entry &&& oflagCompressed ≠ 0 then
    match parseCompressedL2Entry entry bits with
    | none => 0
    | some extent => (extent.1 + extent.2 - 1) / cs + 1
  else if hostOf entry = 0 then 0
  else hostOf entry / cs + 1

theorem entryRefs_of_top {bits cs entry c : Nat} (h : entryTop bits cs entry ≤ c) :
    entryRefs bits cs entry c = 0 := by
  unfold entryTop at h
  unfold entryRefs
  split
  next hcomp =>
    rw [if_pos hcomp] at h
    split
    · rfl
    next extent hparse =>
      rw [hparse] at h
      dsimp only at h
      exact if_neg (by omega)
  next hplain =>
    rw [if_neg hplain] at h
    split at h
    next hzero =>
      exact if_neg (by simp [hzero])
    · exact if_neg (by omega)

namespace QcowHeader

/-- An audit of an image whose references stay below the cluster `bound`. -/
structure Audit (hdr : QcowHeader) (disk : ByteMap) (fileSize bound : Nat) : Prop where
  size : 0 < hdr.clusterSize
  per : 0 < hdr.perBlock
  start : 0 < bound
  l1 : hdr.l1TableOffset % hdr.clusterSize = 0
  l1_top : hdr.l1TableOffset / hdr.clusterSize + divCeil (hdr.l1Size * 8) hdr.clusterSize ≤ bound
  table : hdr.refcountTableOffset % hdr.clusterSize = 0
  table_top : hdr.refcountTableOffset / hdr.clusterSize + hdr.refcountTableClusters ≤ bound
  block : ∀ k < hdr.tableEntries, hdr.blockAt disk k % hdr.clusterSize = 0 ∧
    hdr.blockAt disk k / hdr.clusterSize < bound
  l2 : ∀ i < hdr.l1Size, hostOf (hdr.l1At disk i) % hdr.clusterSize = 0 ∧
    hostOf (hdr.l1At disk i) / hdr.clusterSize < bound
  entry : ∀ i < hdr.l1Size, ∀ j < hdr.l2Entries,
    (hdr.l2At disk (hostOf (hdr.l1At disk i)) j &&& oflagCompressed = 0 →
      hostOf (hdr.l2At disk (hostOf (hdr.l1At disk i)) j) % hdr.clusterSize = 0) ∧
    entryTop hdr.clusterBits hdr.clusterSize (hdr.l2At disk (hostOf (hdr.l1At disk i)) j) ≤ bound
  below : ∀ c < bound, hdr.refcount disk c = hdr.refs disk c ∧
    (hdr.refs disk c ≠ 0 → c * hdr.clusterSize < fileSize) ∧
    (hdr.own disk c ≠ 0 → hdr.refs disk c = 1)
  above : ∀ k < hdr.tableEntries, hdr.blockAt disk k ≠ 0 →
      ∀ j < hdr.perBlock, bound ≤ k * hdr.perBlock + j →
      refcountIn hdr.refcountBits (hdr.blockBytes disk (hdr.blockAt disk k)) j = 0

variable {hdr : QcowHeader} {disk : ByteMap} {fileSize bound c : Nat}

namespace Audit

variable (ha : hdr.Audit disk fileSize bound)
include ha

theorem refs_above (hc : bound ≤ c) : hdr.refs disk c = 0 := by
  have hstart := ha.start
  have hl1 : hdr.l1Refs c = 0 := by
    have := ha.l1_top
    rw [l1Refs_eq ha.size ha.l1]
    exact if_neg (by omega)
  have htable : hdr.tableRefs c = 0 := by
    have := ha.table_top
    rw [tableRefs_eq ha.size ha.table]
    exact if_neg (by omega)
  have hblocks : hdr.blockRefs disk c = 0 := by
    unfold blockRefs total
    refine Finset.sum_eq_zero fun k hk => if_neg ?_
    have := (ha.block k (Finset.mem_range.mp hk)).2
    omega
  have hchain : hdr.chain disk c = 0 := by
    refine Finset.sum_eq_zero fun p hp => ?_
    obtain ⟨hi, hj | hj⟩ := mem_chainPointers hp
    · have := (ha.l2 p.1 hi).2
      simp only [chainNames, hj, if_true]
      exact if_neg (by omega)
    · simp only [chainNames, hj.ne, if_false]
      exact entryRefs_of_top ((ha.entry p.1 hi p.2 hj).2.trans hc)
  unfold refs own
  rw [hl1, htable, hblocks, hchain, if_neg (by omega)]

theorem refcount_above (hc : bound ≤ c) : hdr.refcount disk c = 0 := by
  unfold refcount
  dsimp only
  split
  · rfl
  next hk =>
    refine ha.above _ (lt_tableEntries hk) hk _ (Nat.mod_lt _ ha.per) ?_
    rw [Nat.div_add_mod']
    exact hc

/-- An image that passes an audit is sound. -/
theorem sound : hdr.Sound disk fileSize fun _ => 0 := by
  refine ⟨⟨ha.l1, ha.table, fun k => ?_, fun i hi => (ha.l2 i hi).1, fun i hi j hj =>
    (ha.entry i hi j hj).1⟩, fun c => ?_, fun c hc => ?_, fun c hc => ?_⟩
  · rcases lt_or_ge k hdr.tableEntries with hk | hk
    · exact (ha.block k hk).1
    · rw [blockAt_of_le hk]
      exact Nat.zero_mod _
  · rcases lt_or_ge c bound with h | h
    · exact (ha.below c h).1
    · rw [ha.refs_above h, ha.refcount_above h]
  · rcases lt_or_ge c bound with h | h
    · exact (ha.below c h).2.1 hc
    · exact absurd (ha.refs_above h) hc
  · rcases lt_or_ge c bound with h | h
    · exact (ha.below c h).2.2 hc
    · have := ha.refs_above h
      unfold refs at this
      omega

end Audit

end QcowHeader

end Instar.Qcow2
