import Instar.Lib.RefCount
import Instar.Qcow2.Refcount

/-!
# What an image on disk means

The virtual disk a reader sees through an L1 and its L2 tables, and the references that an image
holds to each of its clusters: one for every metadata structure in it, one for every L2 table an L1
names and one for every cluster named through that table.
-/

namespace Instar.Qcow2

open Instar.RefCount Finset

/-! ## References -/

/-- Whether `[off, off + len)` touches cluster `c`. -/
def extentRefs (cs : Nat) (extent : Nat × Nat) (c : Nat) : Nat :=
  if extent.2 ≠ 0 ∧ extent.1 / cs ≤ c ∧ c ≤ (extent.1 + extent.2 - 1) / cs then 1 else 0

/-- The reference of an L1 entry to the cluster of its L2 table. -/
def tableRef (cs host c : Nat) : Nat :=
  if host ≠ 0 ∧ host / cs = c then 1 else 0

/-- The references of an L2 entry: a compressed cluster may touch several host clusters. -/
def entryRefs (bits cs entry c : Nat) : Nat :=
  if entry &&& oflagCompressed ≠ 0 then
    match parseCompressedL2Entry entry bits with
    | none => 0
    | some extent => extentRefs cs extent c
  else tableRef cs (hostOf entry) c

/-- The pointers of one L1: `(i, j)` is entry `j` of table `i`, and `(i, E)` the table itself. -/
def chainNames (bits cs E : Nat) (host : Nat → Nat) (tab : Nat → Nat → Nat) (p : Nat × Nat)
    (c : Nat) : Nat :=
  if p.2 = E then tableRef cs (host p.1) c else entryRefs bits cs (tab p.1 p.2) c

/-- The pointers of an L1 with `n` entries. -/
def chainPointers (n E : Nat) : Finset (Nat × Nat) := range n ×ˢ range (E + 1)

/-- The references held through one L1. -/
def chainRefs (bits cs n E : Nat) (host : Nat → Nat) (tab : Nat → Nat → Nat) (c : Nat) : Nat :=
  total (chainPointers n E) (chainNames bits cs E host tab) c

theorem table_mem {n E i : Nat} (hi : i < n) : (i, E) ∈ chainPointers n E := by
  simp [chainPointers, hi]

theorem entry_mem {n E i j : Nat} (hi : i < n) (hj : j < E) : (i, j) ∈ chainPointers n E := by
  simp only [chainPointers, mem_product, mem_range]
  omega

theorem mem_chainPointers {n E : Nat} {p : Nat × Nat} (h : p ∈ chainPointers n E) :
    p.1 < n ∧ (p.2 = E ∨ p.2 < E) := by
  simp only [chainPointers, mem_product, mem_range] at h
  omega

@[simp] theorem chainNames_table (bits cs E i c : Nat) (host : Nat → Nat) (tab : Nat → Nat → Nat) :
    chainNames bits cs E host tab (i, E) c = tableRef cs (host i) c := by
  simp [chainNames]

theorem chainNames_entry {bits cs E i j c : Nat} {host : Nat → Nat} {tab : Nat → Nat → Nat}
    (hj : j < E) : chainNames bits cs E host tab (i, j) c = entryRefs bits cs (tab i j) c := by
  simp [chainNames, hj.ne]

/-- The references of an L1 depend on what its entries and tables hold. -/
theorem chainRefs_congr {bits cs n E : Nat} {host host' : Nat → Nat} {tab tab' : Nat → Nat → Nat}
    (hhost : ∀ i < n, host' i = host i) (htab : ∀ i < n, ∀ j < E, tab' i j = tab i j) (c : Nat) :
    chainRefs bits cs n E host' tab' c = chainRefs bits cs n E host tab c := by
  refine total_congr fun p hp => ?_
  obtain ⟨hi, hj | hj⟩ := mem_chainPointers hp
  · simp [chainNames, hj, hhost p.1 hi]
  · simp [chainNames, hj.ne, htab p.1 hi p.2 hj]

/-! ## Tables on disk -/

/-- Entry `i` of the L1 at `off`. -/
def diskL1 (disk : ByteMap) (off i : Nat) : Nat := disk.be (off + i * 8) 8

/-- Entry `j` of the L2 table at `host`; no table reads as empty. -/
def diskTab (disk : ByteMap) (host j : Nat) : Nat :=
  if host = 0 then 0 else disk.be (host + j * 8) 8

/-- The references held through the L1 at `off` with `n` entries. -/
def l1Refs (bits cs E : Nat) (disk : ByteMap) (off n c : Nat) : Nat :=
  chainRefs bits cs n E (fun i => hostOf (diskL1 disk off i))
    (fun i j => diskTab disk (hostOf (diskL1 disk off i)) j) c

/-! ## The virtual disk -/

/-- A decompressor: it reads nothing but the extent of its entry. -/
structure Inflate (bits : Nat) where
  byteAt : ByteMap → Nat → Nat → UInt8
  reads_extent : ∀ m m' entry, (∀ extent, parseCompressedL2Entry entry bits = some extent →
    ∀ b, extent.1 ≤ b → b < extent.1 + extent.2 → m b = m' b) →
    ∀ k, byteAt m entry k = byteAt m' entry k

/-- Reads every compressed cluster as zeroes. -/
def Inflate.blank (bits : Nat) : Inflate bits := ⟨fun _ _ _ => 0, fun _ _ _ _ _ => rfl⟩

/-- The byte an L2 entry gives at virtual offset `v`; `under` is what an unmapped cluster shows. -/
def entryByte {bits : Nat} (cs : Nat) (inflate : Inflate bits) (under : Nat → UInt8)
    (disk : ByteMap) (entry v : Nat) : UInt8 :=
  if entry &&& oflagCompressed ≠ 0 then inflate.byteAt disk entry (v % cs)
  else if entry &&& qcowOflagZero ≠ 0 then 0
  else if hostOf entry = 0 then under v
  else disk (hostOf entry + v % cs)

/-- An L2 entry names whole clusters. -/
def EntryAligned (cs entry : Nat) : Prop := entry &&& oflagCompressed = 0 → hostOf entry % cs = 0

theorem div_of_aligned {cs host k : Nat} (hcs : 0 < cs) (hal : host % cs = 0) (hk : k < cs) :
    (host + k) / cs = host / cs := by
  have hhost : host = cs * (host / cs) := (Nat.mul_div_cancel' (Nat.dvd_of_mod_eq_zero hal)).symm
  rw [hhost, Nat.mul_add_div hcs, Nat.div_eq_of_lt hk, add_zero, Nat.mul_div_cancel_left _ hcs]

/-- Where the bytes of a cluster are. -/
theorem div_of_mem {cs host b : Nat} (hcs : 0 < cs) (hal : host % cs = 0)
    (hb : host ≤ b ∧ b < host + cs) : b / cs = host / cs := by
  obtain ⟨k, rfl⟩ : ∃ k, b = host + k := ⟨b - host, by omega⟩
  exact div_of_aligned hcs hal (by omega)

/-- An entry shows the clusters it refers to and nothing else. -/
theorem entryByte_frame {bits cs entry v : Nat} {inflate : Inflate bits} {under : Nat → UInt8}
    {disk disk' : ByteMap} (hcs : 0 < cs) (hal : EntryAligned cs entry)
    (hdisk : ∀ b, entryRefs bits cs entry (b / cs) ≠ 0 → disk' b = disk b) :
    entryByte cs inflate under disk' entry v = entryByte cs inflate under disk entry v := by
  unfold entryByte
  unfold entryRefs at hdisk
  by_cases hcomp : entry &&& oflagCompressed = 0
  · simp only [hcomp, ne_eq, not_true_eq_false, if_false]
    split
    · rfl
    split
    · rfl
    next hne =>
      refine hdisk _ ?_
      rw [if_neg (not_not.mpr hcomp), div_of_aligned hcs (hal hcomp) (Nat.mod_lt _ hcs)]
      simp [tableRef, hne]
  · simp only [ne_eq, hcomp, not_false_eq_true, if_true]
    refine inflate.reads_extent _ _ _ (fun extent hparse b hlo hhi => hdisk b ?_) _
    rw [if_pos hcomp, hparse]
    have hin : extent.2 ≠ 0 ∧ extent.1 / cs ≤ b / cs ∧ b / cs ≤ (extent.1 + extent.2 - 1) / cs := by
      refine ⟨by omega, Nat.div_le_div_right hlo, Nat.div_le_div_right (by omega)⟩
    simp [extentRefs, hin]

end Instar.Qcow2
