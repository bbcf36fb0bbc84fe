import Instar.Qcow2.Image
import Instar.Qcow2.Widths

/-!
# References and refcounts of an image, by its header

An image is a header and the bytes of its file.  `refcount` is what the refcount structures say of a
cluster, `refs` is how many references the image holds to it: the header's cluster, the L1, the
refcount table, the refcount blocks, and everything reached through the L1.  `Sound` says that the
two agree, that references stay inside the file, and that a cluster of the image's own tables is
used for nothing else.

The structures that this development does not follow (a snapshot table and the tables it names, an
encryption header) enter as `others`, the number of references they hold to each cluster.
-/

namespace Instar.Qcow2

open Instar.RefCount

namespace QcowHeader

variable (hdr : QcowHeader) (disk : ByteMap)

/-- The refcounts one block holds. -/
def perBlock : Nat := hdr.clusterSize * 8 / hdr.refcountBits

/-- The entries of the refcount table. -/
def tableEntries : Nat := hdr.refcountTableClusters * hdr.clusterSize / 8

/-- Where refcount block `k` is; zero if there is none. -/
def blockAt (k : Nat) : Nat :=
  if k < hdr.tableEntries then disk.be (hdr.refcountTableOffset + k * 8) 8 else 0

/-- The refcount block at `off`. -/
def blockBytes (off : Nat) : Buffer := ⟨hdr.clusterSize, disk.drop off⟩

/-- The refcount of cluster `c`; a cluster that no block counts has none. -/
def refcount (c : Nat) : Nat :=
  let off := hdr.blockAt disk (c / hdr.perBlock)
  if off = 0 then 0 else refcountIn hdr.refcountBits (hdr.blockBytes disk off) (c % hdr.perBlock)

/-- Entry `i` of the L1. -/
def l1At (i : Nat) : Nat := disk.be (hdr.l1TableOffset + i * 8) 8

/-- The size of an L2 entry. -/
def l2Size : Nat := if hdr.extendedL2 then 16 else 8

/-- The entries of an L2 table. -/
def l2Entries : Nat := hdr.clusterSize / hdr.l2Size

/-- Entry `j` of the L2 table at `host`; no table reads as empty. -/
def l2At (host j : Nat) : Nat := if host = 0 then 0 else disk.be (host + j * hdr.l2Size) 8

/-- The references held through the L1. -/
def chain (c : Nat) : Nat :=
  chainRefs hdr.clusterBits hdr.clusterSize hdr.l1Size hdr.l2Entries (fun i =>
    hostOf (hdr.l1At disk i)) (fun i j => hdr.l2At disk (hostOf (hdr.l1At disk i)) j) c

/-- The reference of refcount table entry `k`. -/
def blockName (k c : Nat) : Nat := tableRef hdr.clusterSize (hdr.blockAt disk k) c

/-- The references of the refcount table to its blocks. -/
def blockRefs (c : Nat) : Nat := total (Finset.range hdr.tableEntries) (hdr.blockName disk) c

/-- The reference of the L1 to its own clusters. -/
def l1Refs (c : Nat) : Nat := extentRefs hdr.clusterSize (hdr.l1TableOffset, hdr.l1Size * 8) c

/-- The reference of the refcount table to its own clusters. -/
def tableRefs (c : Nat) : Nat :=
  extentRefs hdr.clusterSize (hdr.refcountTableOffset,
    hdr.refcountTableClusters * hdr.clusterSize) c

/-- The references of the image's own tables. -/
def own (c : Nat) : Nat :=
  (if c = 0 then 1 else 0) + hdr.l1Refs c + hdr.tableRefs c + hdr.blockRefs disk c

/-- The references to cluster `c`. -/
def refs (c : Nat) : Nat := hdr.own disk c + hdr.chain disk c

/-- The tables of an image lie on cluster boundaries. -/
structure Aligned : Prop where
  l1 : hdr.l1TableOffset % hdr.clusterSize = 0
  table : hdr.refcountTableOffset % hdr.clusterSize = 0
  block : ∀ k, hdr.blockAt disk k % hdr.clusterSize = 0
  l2 : ∀ i < hdr.l1Size, hostOf (hdr.l1At disk i) % hdr.clusterSize = 0
  entry : ∀ i < hdr.l1Size, ∀ j < hdr.l2Entries,
    EntryAligned hdr.clusterSize (hdr.l2At disk (hostOf (hdr.l1At disk i)) j)

/-- A sound image in a file of `fileSize` bytes. -/
structure Sound (fileSize : Nat) (others : Nat → Nat) : Prop extends hdr.Aligned disk where
  counted : ∀ c, hdr.refcount disk c = hdr.refs disk c + others c
  inside : ∀ c, hdr.refs disk c + others c ≠ 0 → c * hdr.clusterSize < fileSize
  alone : ∀ c, hdr.own disk c ≠ 0 → hdr.refs disk c + others c = 1

end QcowHeader

/-! ## Extents on cluster boundaries -/

theorem extentRefs_aligned {cs a len c : Nat} (hcs : 0 < cs) :
    extentRefs cs (a * cs, len) c = if a ≤ c ∧ c < a + divCeil len cs then 1 else 0 := by
  unfold extentRefs divCeil
  rcases Nat.eq_zero_or_pos len with rfl | hlen
  · have hzero : (0 + cs - 1) / cs = 0 := Nat.div_eq_of_lt (by omega)
    rw [if_neg (by omega), if_neg (by omega)]
  · have hlast : (a * cs + len - 1) / cs = a + (len - 1) / cs := by
      rw [show a * cs + len - 1 =
        len - 1 + cs * a by rw [mul_comm]; omega, Nat.add_mul_div_left _ _ hcs]
      omega
    have hceil : (len + cs - 1) / cs = (len - 1) / cs + 1 := by
      rw [show len + cs - 1 = len - 1 + cs by omega, Nat.add_div_right _ hcs]
    rw [hlast, hceil, Nat.mul_div_cancel _ hcs]
    congr 1
    apply propext
    constructor
    · rintro ⟨-, h, h'⟩
      exact ⟨h, by omega⟩
    · rintro ⟨h, h'⟩
      exact ⟨by omega, h, by omega⟩

theorem divCeil_mul {cs n : Nat} (hcs : 0 < cs) : divCeil (n * cs) cs = n := by
  unfold divCeil
  rw [show n * cs + cs - 1 = cs - 1 + cs * n by rw [mul_comm]; omega, Nat.add_mul_div_left _ _ hcs,
    Nat.div_eq_of_lt (by omega), zero_add]

theorem divCeil_le {n cs k : Nat} (hcs : 0 < cs) (h : n ≤ k * cs) : divCeil n cs ≤ k := by
  unfold divCeil
  rw [Nat.div_le_iff_le_mul_add_pred hcs]
  rw [mul_comm] at h
  omega

theorem le_divCeil_mul {n cs : Nat} (hcs : 0 < cs) : n ≤ divCeil n cs * cs := by
  have h := Nat.div_add_mod (n + cs - 1) cs
  have hlt := Nat.mod_lt (n + cs - 1) hcs
  unfold divCeil
  rw [mul_comm] at h
  omega

theorem lt_divCeil {n cs k : Nat} (hcs : 0 < cs) : k < divCeil n cs ↔ k * cs < n := by
  constructor
  · intro h
    by_contra hle
    exact absurd (divCeil_le hcs (not_lt.mp hle)) (not_le.mpr h)
  · intro h
    by_contra hle
    have hmul := Nat.mul_le_mul_right cs (not_lt.mp hle)
    have := le_divCeil_mul (n := n) hcs
    omega

theorem aligned_eq {cs off : Nat} (h : off % cs = 0) : off = off / cs * cs :=
  (Nat.div_mul_cancel (Nat.dvd_of_mod_eq_zero h)).symm

namespace QcowHeader

variable {hdr hdr' : QcowHeader} {disk m : ByteMap} {fileSize i : Nat} {others : Nat → Nat}
  {c k : Nat} (hcs : 0 < hdr.clusterSize)

include hcs

theorem l1Refs_eq (h : hdr.l1TableOffset % hdr.clusterSize = 0) (c : Nat) :
    hdr.l1Refs c = if hdr.l1TableOffset / hdr.clusterSize ≤ c ∧
    c < hdr.l1TableOffset / hdr.clusterSize +
      divCeil (hdr.l1Size * 8) hdr.clusterSize then 1 else 0 := by
  unfold l1Refs
  rw [aligned_eq h, extentRefs_aligned hcs, Nat.mul_div_cancel _ hcs]

theorem tableRefs_eq (h : hdr.refcountTableOffset % hdr.clusterSize = 0) (c : Nat) :
    hdr.tableRefs c = if hdr.refcountTableOffset / hdr.clusterSize ≤ c ∧
      c < hdr.refcountTableOffset / hdr.clusterSize + hdr.refcountTableClusters then 1 else 0 := by
  unfold tableRefs
  rw [aligned_eq h, extentRefs_aligned hcs, Nat.mul_div_cancel _ hcs, divCeil_mul hcs]

/-- The bytes of the L1 lie in the clusters it refers to. -/
theorem l1_cluster (h : hdr.l1TableOffset % hdr.clusterSize = 0) (hi : i < hdr.l1Size * 8) :
    hdr.l1Refs ((hdr.l1TableOffset + i) / hdr.clusterSize) ≠ 0 := by
  have hle := le_divCeil_mul (n := hdr.l1Size * 8) hcs
  have hal := aligned_eq h
  rw [l1Refs_eq hcs h, if_pos]
  · exact one_ne_zero
  · rw [Nat.le_div_iff_mul_le hcs, Nat.div_lt_iff_lt_mul hcs, add_mul, ← hal]
    omega

/-- The bytes of the refcount table lie in the clusters it refers to. -/
theorem table_cluster (h : hdr.refcountTableOffset % hdr.clusterSize = 0)
    (hi : i < hdr.refcountTableClusters * hdr.clusterSize) :
    hdr.tableRefs ((hdr.refcountTableOffset + i) / hdr.clusterSize) ≠ 0 := by
  have hal := aligned_eq h
  rw [tableRefs_eq hcs h, if_pos]
  · exact one_ne_zero
  · rw [Nat.le_div_iff_mul_le hcs, Nat.div_lt_iff_lt_mul hcs, add_mul, ← hal]
    omega

omit hcs

theorem blockAt_of_le (h : hdr.tableEntries ≤ k) : hdr.blockAt disk k = 0 := if_neg (not_lt.mpr h)

theorem lt_tableEntries (h : hdr.blockAt disk k ≠ 0) : k < hdr.tableEntries := by
  by_contra hle
  exact h (blockAt_of_le (not_lt.mp hle))

/-- A block's own cluster is referred to by the refcount table. -/
theorem blockRefs_pos (h : hdr.blockAt disk k ≠ 0) :
    0 < hdr.blockRefs disk (hdr.blockAt disk k / hdr.clusterSize) := by
  have hle : hdr.blockName disk k (hdr.blockAt disk k / hdr.clusterSize) ≤
      hdr.blockRefs disk (hdr.blockAt disk k / hdr.clusterSize) :=
    le_total (Finset.mem_range.mpr (lt_tableEntries h))
  have hone : hdr.blockName disk k (hdr.blockAt disk k / hdr.clusterSize) = 1 := if_pos ⟨h, rfl⟩
  omega

namespace Sound

variable (hs : hdr.Sound disk fileSize others)
include hs

/-- A cluster of the image's own tables has one use. -/
theorem alone_own (h : hdr.own disk c ≠ 0) : hdr.own disk c = 1 ∧ hdr.chain disk c = 0 ∧
    others c = 0 := by
  have hone := hs.alone c h
  unfold refs at hone
  omega

/-- Different refcount blocks are in different clusters. -/
theorem block_inj {k k' : Nat} (hk : hdr.blockAt disk k ≠ 0)
    (hkk : hdr.blockAt disk k / hdr.clusterSize = hdr.blockAt disk k' / hdr.clusterSize)
    (hk' : hdr.blockAt disk k' ≠ 0) : k = k' := by
  by_contra hne
  have hpos := blockRefs_pos hk
  have hown : hdr.own disk (hdr.blockAt disk k / hdr.clusterSize) ≠ 0 := by
    unfold own
    omega
  have hone := (hs.alone_own hown).1
  have hle : hdr.blockName disk k (hdr.blockAt disk k / hdr.clusterSize) +
      hdr.blockName disk k' (hdr.blockAt disk k / hdr.clusterSize) ≤
      hdr.blockRefs disk (hdr.blockAt disk k / hdr.clusterSize) :=
    add_le_total (Finset.mem_range.mpr (lt_tableEntries hk))
      (Finset.mem_range.mpr (lt_tableEntries hk')) hne
  have h1 : hdr.blockName disk k (hdr.blockAt disk k / hdr.clusterSize) = 1 := if_pos ⟨hk, rfl⟩
  have h2 : hdr.blockName disk k' (hdr.blockAt disk k / hdr.clusterSize) = 1 :=
    if_pos ⟨hk', hkk.symm⟩
  unfold own at hone
  omega

/-- A refcount block is neither in the header's cluster nor in a table. -/
theorem block_alone (hk : hdr.blockAt disk k ≠ 0) : hdr.blockAt disk k / hdr.clusterSize ≠ 0 ∧
      hdr.l1Refs (hdr.blockAt disk k / hdr.clusterSize) = 0 ∧
      hdr.tableRefs (hdr.blockAt disk k / hdr.clusterSize) = 0 ∧
      hdr.chain disk (hdr.blockAt disk k / hdr.clusterSize) = 0 ∧
      others (hdr.blockAt disk k / hdr.clusterSize) = 0 := by
  have hpos := blockRefs_pos hk
  have hown : hdr.own disk (hdr.blockAt disk k / hdr.clusterSize) ≠ 0 := by
    unfold own
    omega
  obtain ⟨hone, hchain, hothers⟩ := hs.alone_own hown
  unfold own at hone
  refine ⟨fun h => ?_, by omega, by omega, hchain, hothers⟩
  rw [if_pos h] at hone
  omega

/-- The header's cluster holds nothing else. -/
theorem zero_alone : hdr.l1Refs 0 = 0 ∧ hdr.tableRefs 0 = 0 ∧ hdr.blockRefs disk 0 = 0 ∧
    hdr.chain disk 0 = 0 := by
  have hown : hdr.own disk 0 ≠ 0 := by simp [own]
  obtain ⟨hone, hchain, -⟩ := hs.alone_own hown
  unfold own at hone
  simp only [if_true] at hone
  omega

/-- The header's cluster is counted, so there is a first refcount block. -/
theorem block_zero : hdr.blockAt disk 0 ≠ 0 := by
  intro h
  have hcount := hs.counted 0
  unfold refcount at hcount
  rw [Nat.zero_div, if_pos h] at hcount
  unfold refs own at hcount
  simp only [if_true] at hcount
  omega

end Sound

end QcowHeader

end Instar.Qcow2
