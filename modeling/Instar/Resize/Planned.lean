import Instar.Qcow2.Counts
import Instar.Resize.Staging

/-!
# The patches of a grow

A grow that appends has one shape, whichever planner made it: the new L1, then the new refcount
table and blocks where they are needed, then the blocks that count the new clusters, the header, and
the blocks with the counts of the old tables cleared.  `Append` is what decides the shape, in
clusters, and `Planned` says what each patch holds in terms of the image.
-/

namespace Instar.Resize

open Instar.Qcow2 ByteMap QcowHeader List

/-! ## What the planner was given -/

/-- The counts of refcount block `k`. -/
def countAt (hdr : QcowHeader) (disk : ByteMap) (k j : Nat) : Nat :=
  refcountIn hdr.refcountBits (hdr.blockBytes disk (hdr.blockAt disk k)) j

/-- In `m` the image's block `k` holds the counts `f`. -/
def HasCounts (hdr : QcowHeader) (disk m : ByteMap) (k : Nat) (f : Nat → Nat → Nat) : Prop :=
  ∀ j < hdr.perBlock, refcountIn hdr.refcountBits (hdr.blockBytes m (hdr.blockAt disk k)) j = f k j

/-- The planner's options agree with the image. -/
structure FromImage (hdr : QcowHeader) (disk : ByteMap) (opts : Qcow2ResizeOpts) : Prop where
  clusterSize : opts.clusterSize = hdr.clusterSize
  refcountBits : opts.refcountBits = hdr.refcountBits
  extendedL2 : opts.extendedL2 = hdr.extendedL2
  l1Entries : opts.currentL1Entries = hdr.l1Size
  l1Offset : opts.currentL1TableOffset = hdr.l1TableOffset
  tableOffset : opts.currentRefcountTableOffset = hdr.refcountTableOffset
  tableClusters : opts.currentRefcountTableClusters = hdr.refcountTableClusters
  lazyRefcounts : opts.lazyRefcounts = hdr.lazyRefcounts
  features : opts.currentIncompatibleFeatures = hdr.incompatibleFeatures
  l1_len : opts.existingL1.len = hdr.l1Size * 8
  l1_bytes : ∀ i < hdr.l1Size * 8, opts.existingL1.bytes i = disk (hdr.l1TableOffset + i)
  table_len : opts.existingRefcountTable.len = hdr.refcountTableClusters * hdr.clusterSize
  table_bytes : ∀ i < hdr.refcountTableClusters * hdr.clusterSize,
    opts.existingRefcountTable.bytes i = disk (hdr.refcountTableOffset + i)
  block : ∀ k b, ensureBlockStaged opts k = .ok b →
    Holds hdr.clusterSize hdr.refcountBits b (countAt hdr disk k)

variable {hdr : QcowHeader} {disk : ByteMap} {opts : Qcow2ResizeOpts} {d : Device}
  {config : ResizeConfig} {n cs l1Entries current existing bc tc count k : Nat} {indices : List Nat}
  {plan' : ResizePlan} {m : ByteMap} {lay : AppendLayout}

theorem entry_lt_iff : k * 8 + 8 ≤ n ↔ k < n / 8 := by omega

variable (hf : FromImage hdr disk opts) {blocks : List (Nat × Buffer)} {plan : ResizePlan}
  {target : Qcow2Layout} {table bytes : Buffer} {fuel off i v pre : Nat}

include hf

theorem FromImage.word (hk : k < hdr.tableEntries) :
    wordAt opts.existingRefcountTable k = hdr.blockAt disk k := by
  have hend : k * 8 + 8 ≤ hdr.refcountTableClusters * hdr.clusterSize := entry_lt_iff.mpr hk
  rw [blockAt, if_pos hk]
  exact be_congr fun i hi => (hf.table_bytes _ (by omega)).trans (by rw [add_assoc])

theorem FromImage.l1Word (hi : i < hdr.l1Size) : wordAt opts.existingL1 i = hdr.l1At disk i :=
  be_congr fun b hb => (hf.l1_bytes _ (by omega)).trans (by rw [add_assoc])

omit hf

/-- Every block the run staged is the block of its table entry. -/
theorem stageBlocks_ok (hs : 0 < d.sectorSize)
    (h : stageBlocks d cs table indices = .ok blocks) :
    ∀ s ∈ blocks, s.1 * 8 + 8 ≤ table.len ∧ s.2.len = cs ∧
      ∀ i < cs, s.2.bytes i = d.bytes (wordAt table s.1 + i) := by
  induction indices generalizing blocks with
  | nil =>
    cases h
    simp
  | cons k rest ih =>
    obtain ⟨hlen, h⟩ := ok_of_check h
    obtain ⟨block, hread, h⟩ := ok_of_bind h
    obtain ⟨blocks', hrest, h⟩ := ok_of_bind h
    cases h
    intro s hmem
    rcases mem_cons.mp hmem with rfl | hmem
    · exact ⟨by omega, readStaged_ok hs hread⟩
    · exact ih hrest s hmem

/-- The options of a run agree with the image it runs on. -/
theorem optsOf_fromImage {l1 : Buffer} {l2 : List (Nat × Buffer)}
    (hs : 0 < d.sectorSize) (hl1 : readStaged d hdr.l1TableOffset (hdr.l1Size * 8) = .ok l1)
    (htable : readStaged d hdr.refcountTableOffset (hdr.refcountTableClusters * hdr.clusterSize) =
      .ok table) (hblocks : stageBlocks d hdr.clusterSize table indices = .ok blocks) :
    FromImage hdr d.bytes (optsOf d config hdr l1 table blocks l2) := by
  obtain ⟨hl1len, hl1bytes⟩ := readStaged_ok hs hl1
  obtain ⟨htlen, htbytes⟩ := readStaged_ok hs htable
  refine ⟨rfl, rfl, rfl, rfl, rfl, rfl, rfl, rfl, rfl, hl1len, hl1bytes, htlen, htbytes,
    fun k b hb => ?_⟩
  unfold ensureBlockStaged at hb
  split at hb
  next block hlookup =>
    cases hb
    obtain ⟨hend, hlen, hbytes⟩ := stageBlocks_ok hs hblocks _ (mem_of_lookup hlookup)
    have hk : k < hdr.tableEntries := entry_lt_iff.mp (htlen ▸ hend)
    have hword : wordAt table k = hdr.blockAt d.bytes k := by
      rw [blockAt, if_pos hk]
      refine be_congr fun i hi => (htbytes _ ?_).trans (by rw [add_assoc])
      omega
    refine ⟨hlen, fun j _ => refcountIn_congr hlen fun i hi => ?_⟩
    rw [hbytes i (hlen ▸ hi), hword]
    rfl
  · cases hb

/-- A run that reports success planned from options that agree with the image. -/
theorem planFor_ok (hs : 0 < d.sectorSize) (h : planFor d config hdr fuel = .ok plan) :
    ∃ l1 table blocks l2, FromImage hdr d.bytes (optsOf d config hdr l1 table blocks l2) ∧
      planGrow (optsOf d config hdr l1 table blocks l2) fuel = .ok plan ∧
      (config.newVirtualSize < config.currentVirtualSize →
        ∃ off, stageL2s d config hdr l1 off = .ok l2) := by
  simp only [planFor, bind_eq_ok, failIf_eq_ok, exists_const] at h
  obtain ⟨-, -, l1, hl1, table, htable, indices, -, -, blocks, hblocks, l2, hl2, h⟩ := h
  exact ⟨l1, table, blocks, l2, optsOf_fromImage hs hl1 htable hblocks, ofStop_eq_ok h,
    fun _ => ⟨_, hl2⟩⟩

/-! ## Patches -/

theorem push_ok (h : plan.push off bytes = .ok plan') :
    plan'.totalFileSize = plan.totalFileSize ∧ plan'.patches = plan.patches ++ [(off, bytes)] := by
  unfold ResizePlan.push at h
  split at h
  · cases h
  · cases h
    exact ⟨rfl, rfl⟩

theorem pushIf_ok {c : Prop} [Decidable c]
    (h : plan.pushIf c off bytes = .ok plan') : plan'.totalFileSize = plan.totalFileSize ∧
      plan'.patches = plan.patches ++ if c then [(off, bytes)] else [] := by
  unfold ResizePlan.pushIf at h
  split at h
  next hc =>
    rw [if_pos hc]
    exact push_ok h
  next hc =>
    cases h
    rw [if_neg hc, append_nil]
    exact ⟨rfl, rfl⟩

theorem pushBlocks_ok
    (h : pushBlocks table blocks plan = .ok plan') : plan'.totalFileSize = plan.totalFileSize ∧
      plan'.patches = plan.patches ++ blocks.map (fun s => (wordAt table s.1, s.2)) ∧
      ∀ s ∈ blocks, s.1 * 8 + 8 ≤ table.len ∧ wordAt table s.1 ≠ 0 := by
  induction blocks generalizing plan with
  | nil =>
    cases h
    simp
  | cons s blocks ih =>
    obtain ⟨off, hoff, h⟩ := ok_of_bind h
    obtain ⟨plan1, hpush, h⟩ := ok_of_bind h
    obtain ⟨htotal, hpatches, hall⟩ := ih h
    obtain ⟨htotal1, hpatches1⟩ := push_ok hpush
    unfold blockOffsetInFile at hoff
    split at hoff
    · cases hoff
    next hlen =>
      split at hoff
      · cases hoff
      next hne =>
        cases hoff
        refine ⟨htotal.trans htotal1, ?_, fun s hs => ?_⟩
        · rw [hpatches, hpatches1, append_assoc, map_cons, singleton_append]
        · rcases mem_cons.mp hs with rfl | hs
          · exact ⟨not_lt.mp hlen, hne⟩
          · exact hall s hs

/-- The patches that write staged blocks back. -/
def place (hdr : QcowHeader) (disk : ByteMap) (blocks : List (Nat × Buffer)) :
    List (Nat × Buffer) :=
  blocks.map fun s => (hdr.blockAt disk s.1, s.2)

include hf in
theorem FromImage.place_eq (h : ∀ s ∈ blocks, s.1 * 8 + 8 ≤ opts.existingRefcountTable.len ∧
      wordAt opts.existingRefcountTable s.1 ≠ 0) :
    blocks.map (fun s => (wordAt opts.existingRefcountTable s.1, s.2)) = place hdr disk blocks ∧
      ∀ s ∈ blocks, hdr.blockAt disk s.1 ≠ 0 := by
  have hword : ∀ s ∈ blocks, wordAt opts.existingRefcountTable s.1 = hdr.blockAt disk s.1 :=
    fun s hs => hf.word (entry_lt_iff.mp (hf.table_len ▸ (h s hs).1))
  refine ⟨map_congr_left fun s hs => by rw [hword s hs], fun s hs => ?_⟩
  rw [← hword s hs]
  exact (h s hs).2

theorem be_writeBe (hv : v < 256 ^ n) : (writeBe n off v m).be off n = v := be_splice_ofBe hv

theorem be_writeBe_outside {off' n' : Nat} (h : off' + n' ≤ off ∨ off + n ≤ off') :
    (writeBe n off v m).be off' n' = m.be off' n' :=
  be_splice_outside h

/-- The header a planner writes. -/
def headerLayout (hdr : QcowHeader) (clusterBits virtualSize l1Entries l1Offset tableOffset
    tableClusters : Nat) : Qcow2Layout :=
  { clusterBits
    clusterSize := hdr.clusterSize
    virtualSize
    refcountBits := hdr.refcountBits
    extendedL2 := hdr.extendedL2
    l1Entries
    l1Offset
    refcountTableOffset := tableOffset
    refcountTableClusters := tableClusters
    refcountBlockCount := 0 }

theorem clusterBitsFrom_ok {bits : Nat} (h : clusterBitsFrom cs = .ok bits) : cs = 2 ^ bits := by
  unfold clusterBitsFrom at h
  split at h
  · cases h
  next hne =>
    split at h
    · cases h
    · cases h
      by_contra hpow
      exact hne (.inr hpow)

include hf in
theorem headerFor_ok (hp : hdr.Parsed) {virtualSize l1Offset tableOffset tableClusters : Nat}
    {header : Buffer}
    (h : headerFor opts virtualSize l1Entries l1Offset tableOffset tableClusters = .ok header) :
    header = ⟨hdr.clusterSize,
      headerBytes (headerLayout hdr hdr.clusterBits virtualSize l1Entries l1Offset
      tableOffset tableClusters) hdr.lazyRefcounts⟩ := by
  obtain ⟨bits, hbits, h⟩ := ok_of_bind h
  have hbits' : bits = hdr.clusterBits := by
    have heq := clusterBitsFrom_ok hbits
    rw [hf.clusterSize, hp.size_eq] at heq
    exact (Nat.pow_right_injective (le_refl 2) heq).symm
  have hbuild := ofCreate_eq_ok h
  unfold buildHeader at hbuild
  split at hbuild
  · cases hbuild
  · cases hbuild
    rw [hbits', hf.clusterSize, hf.refcountBits, hf.extendedL2, hf.lazyRefcounts]
    rfl

/-! ## Sizing an append -/

/-- What decides the shape of a grow that appends: the clusters of the old file, the entries of the
new L1, the populated refcount table entries, and its blocks and table clusters. -/
structure Append where
  pre : Nat
  l1Entries : Nat
  count : Nat
  blockCount : Nat
  tableClusters : Nat
deriving DecidableEq

namespace Append

variable (hdr : QcowHeader) (a : Append)

/-- The clusters of the new L1, which start at `pre`. -/
def l1Count : Nat := l1Clusters a.l1Entries hdr.clusterSize

/-- Whether the refcount table moves. -/
def relocates : Bool := hdr.refcountTableClusters < a.tableClusters

/-- The number of new refcount blocks. -/
def newBlocks : Nat := a.blockCount - a.count

/-- Where the new refcount table starts, if there is one. -/
def tableCluster : Nat := a.pre + a.l1Count hdr

/-- Where the new refcount blocks start. -/
def blocksCluster : Nat := a.tableCluster hdr + if a.relocates hdr then a.tableClusters else 0

/-- The clusters of the new file. -/
def total : Nat := a.blocksCluster hdr + a.newBlocks

/-- The new clusters that existing blocks count. -/
def raised : List Nat := range' a.pre (min (a.count * hdr.perBlock) (a.total hdr) - a.pre)

/-- The clusters whose counts are cleared: the old L1, and the old refcount table if it moved. An L1
of no entries counts as one cluster. -/
def cleared : List Nat :=
  range' (hdr.l1TableOffset / hdr.clusterSize) (l1Clusters hdr.l1Size hdr.clusterSize) ++
    if a.relocates hdr then
      range' (hdr.refcountTableOffset / hdr.clusterSize) hdr.refcountTableClusters
    else []

/-- The image's counts with those of the new clusters raised. -/
def raisedCounts (disk : ByteMap) : Nat → Nat → Nat :=
  marked hdr.clusterSize hdr.refcountBits 1 (countAt hdr disk) (a.raised hdr)

/-- And with those of the tables that were left cleared. -/
def clearedCounts (disk : ByteMap) : Nat → Nat → Nat :=
  marked hdr.clusterSize hdr.refcountBits 0 (a.raisedCounts hdr disk) (a.cleared hdr)

/-- The block and table counts are the fixed point of the append loop. -/
structure Sized : Prop where
  blocks : a.blockCount = max (divCeil (a.total hdr) hdr.perBlock) (max a.count 1)
  table : a.tableClusters = max (divCeil (a.blockCount * 8) hdr.clusterSize)
    hdr.refcountTableClusters

variable {hdr a}

namespace Sized

variable (hz : a.Sized hdr)
include hz

theorem count_le : a.count ≤ a.blockCount := by
  rw [hz.blocks]
  omega

theorem blockCount_eq : a.blockCount = a.count + a.newBlocks := by
  have := hz.count_le
  unfold newBlocks
  omega

theorem table_le : hdr.refcountTableClusters ≤ a.tableClusters := by
  rw [hz.table]
  exact le_max_right _ _

/-- The blocks count every cluster of the new file. -/
theorem total_le (hper : 0 < hdr.perBlock) : a.total hdr ≤ a.blockCount * hdr.perBlock := by
  have hle : divCeil (a.total hdr) hdr.perBlock ≤ a.blockCount := by
    rw [hz.blocks]
    exact le_max_left _ _
  exact (le_divCeil_mul hper).trans (Nat.mul_le_mul_right _ hle)

/-- The table has room for every block. -/
theorem entries_le (hcs : 0 < hdr.clusterSize) :
    a.blockCount * 8 ≤ a.tableClusters * hdr.clusterSize := by
  have hle : divCeil (a.blockCount * 8) hdr.clusterSize ≤ a.tableClusters := by
    rw [hz.table]
    exact le_max_left _ _
  exact (le_divCeil_mul hcs).trans (Nat.mul_le_mul_right _ hle)

theorem newBlocks_of_relocates (hcs : 0 < hdr.clusterSize)
    (hcount : a.count * 8 ≤ hdr.refcountTableClusters * hdr.clusterSize)
    (h : a.relocates hdr = true) : 0 < a.newBlocks := by
  have hlt : hdr.refcountTableClusters < a.tableClusters := by simpa [relocates] using h
  by_contra hzero
  have heq : a.blockCount = a.count := by
    have := hz.blockCount_eq
    omega
  have hceil : divCeil (a.blockCount * 8) hdr.clusterSize ≤ hdr.refcountTableClusters :=
    divCeil_le hcs (heq ▸ hcount)
  have htable := hz.table
  omega

/-- New blocks that the old table holds lie past what the old blocks count. -/
theorem old_blocks_full (hper : 2 ≤ hdr.perBlock) (hcount : 0 < a.count) (hnew : 0 < a.newBlocks)
    (h : a.relocates hdr = false) : a.count * hdr.perBlock ≤ a.tableCluster hdr := by
  have hceil : a.blockCount = divCeil (a.total hdr) hdr.perBlock := by
    have h1 := hz.blocks
    have h2 := hz.blockCount_eq
    omega
  have htotal : a.total hdr = a.tableCluster hdr + a.newBlocks := by
    unfold total blocksCluster
    rw [h]
    simp
  have hlast : (a.blockCount - 1) * hdr.perBlock < a.total hdr :=
    (lt_divCeil (by omega)).mp (by rw [← hceil, hz.blockCount_eq]; omega)
  rw [hz.blockCount_eq, show a.count + a.newBlocks - 1 = a.count + (a.newBlocks - 1) by omega,
    add_mul, htotal] at hlast
  have hmul : (a.newBlocks - 1) * 2 ≤ (a.newBlocks - 1) * hdr.perBlock := Nat.mul_le_mul_left _ hper
  omega

end Sized

end Append

/-- The append loop ends at a fixed point. -/
theorem appendLoop_ok {fileSize per l1 b t : Nat}
    (h : appendLoop fileSize cs per l1 current existing fuel b t = .ok (bc, tc)) :
    bc = max (divCeil (appendedClusters fileSize cs l1 current existing bc tc) per)
    (max existing 1) ∧
      tc = max (divCeil (bc * 8) cs) current := by
  induction fuel generalizing b t with
  | zero => cases h
  | succ fuel ih =>
    rw [appendLoop] at h
    split at h
    next heq =>
      cases h
      refine ⟨heq.1.symm, ?_⟩
      have htable := heq.2
      rw [heq.1] at htable
      exact htable.symm
    · exact ih h

theorem appendedClusters_eq {l1 : Nat} (hcs : 0 < cs) :
    appendedClusters (pre * cs) cs l1 current existing bc tc =
      pre + l1 + (if current < tc then tc else 0) + (bc - existing) := by
  unfold appendedClusters
  have hif : (if current < tc then tc * cs else 0) = (if current < tc then tc else 0) * cs := by
    split
    · rfl
    · rw [zero_mul]
  rw [hif, ← add_mul, ← add_mul, ← add_mul, Nat.mul_div_cancel _ hcs]

include hf in
theorem appendRequirements_sized (hcs : 0 < hdr.clusterSize) (hrt : 0 < hdr.refcountTableClusters)
    (hpre : opts.currentFileSize = pre * hdr.clusterSize)
    (h : opts.appendRequirements fuel l1Entries count = .ok (bc, tc)) :
    Append.Sized hdr ⟨pre, l1Entries, count, bc, tc⟩ := by
  have hmax : max hdr.refcountTableClusters 1 = hdr.refcountTableClusters := by omega
  have hper : opts.perBlock = hdr.perBlock := by
    unfold Qcow2ResizeGrowQuery.perBlock perBlock
    rw [hf.clusterSize, hf.refcountBits]
  unfold Qcow2ResizeGrowQuery.appendRequirements computeAppendRequirements at h
  rw [hf.clusterSize, hf.tableClusters, hmax, hper, hpre] at h
  obtain ⟨hb, ht⟩ := appendLoop_ok h
  rw [appendedClusters_eq hcs] at hb
  have htotal : Append.total hdr ⟨pre, l1Entries, count, bc, tc⟩ =
      pre + l1Clusters l1Entries hdr.clusterSize +
        (if hdr.refcountTableClusters < tc then tc else 0) + (bc - count) := by
    simp [Append.total, Append.blocksCluster, Append.tableCluster, Append.l1Count, Append.newBlocks,
      Append.relocates]
  exact ⟨by rw [htotal]; exact hb, ht⟩

/-! ## The pieces of a plan -/

/-- What the patches of a grow hold. -/
structure Pieces where
  l1 : Buffer
  table : Buffer
  blocks : Buffer
  header : Buffer
  incs : List (Nat × Buffer)
  fins : List (Nat × Buffer)

section

variable (hdr : QcowHeader) (disk : ByteMap) (a : Append) (p : Pieces)

/-- The patches before the header. -/
def Pieces.prepare :
    List (Nat × Buffer) :=
  (a.pre * hdr.clusterSize, p.l1) ::
    ((if a.relocates hdr then [(a.tableCluster hdr * hdr.clusterSize, p.table)] else []) ++
      (if 0 < a.newBlocks then [(a.blocksCluster hdr * hdr.clusterSize, p.blocks)] else []) ++
      (if a.relocates hdr = false ∧ 0 < a.newBlocks then [(hdr.refcountTableOffset, p.table)]
        else []) ++
      place hdr disk p.incs)

/-- The patches of a grow that appends. -/
def Pieces.patches :
    List (Nat × Buffer) :=
  p.prepare hdr disk a ++ (0, p.header) :: place hdr disk p.fins

end

/-- The layout of the new header. -/
def Append.layout (hdr : QcowHeader) (a : Append) (newSize : Nat) : Qcow2Layout :=
  headerLayout hdr hdr.clusterBits newSize a.l1Entries (a.pre * hdr.clusterSize)
    (if a.relocates hdr then a.tableCluster hdr * hdr.clusterSize else hdr.refcountTableOffset)
    a.tableClusters

/-- The pieces are the plan of an append. -/
structure Planned (hdr : QcowHeader) (disk : ByteMap) (a : Append) (newSize : Nat) (p : Pieces) :
    Prop where
  l1_len : p.l1.len = a.l1Count hdr * hdr.clusterSize
  l1_word : ∀ i < a.l1Entries, p.l1.be (i * 8) 8 = if i < hdr.l1Size then hdr.l1At disk i else 0
  table_len : p.table.len = a.tableClusters * hdr.clusterSize
  table_word : 0 < a.newBlocks → ∀ k < a.tableClusters * hdr.clusterSize / 8, p.table.be (k * 8) 8 =
    if a.count ≤ k ∧ k < a.blockCount then (a.blocksCluster hdr + (k - a.count)) * hdr.clusterSize
    else hdr.blockAt disk k
  blocks_len : p.blocks.len = a.newBlocks * hdr.clusterSize
  blocks_count : ∀ i < a.newBlocks, ∀ j < hdr.perBlock,
    refcountIn hdr.refcountBits (p.blocks.slice (i * hdr.clusterSize) hdr.clusterSize) j =
      if (a.count + i) * hdr.perBlock + j < a.total hdr then 1 else 0
  header_eq : p.header = ⟨hdr.clusterSize, headerBytes (a.layout hdr newSize) hdr.lazyRefcounts⟩
  incs : Staged hdr.clusterSize hdr.refcountBits 1 (countAt hdr disk) (a.raised hdr) p.incs
  fins : Staged hdr.clusterSize hdr.refcountBits 0
    (marked hdr.clusterSize hdr.refcountBits 1 (countAt hdr disk) (a.raised hdr))
    (a.cleared hdr) p.fins
  placed : ∀ s, s ∈ p.incs ∨ s ∈ p.fins → hdr.blockAt disk s.1 ≠ 0
  size_lt : a.total hdr * hdr.clusterSize < 2 ^ 64
  table_lt : a.tableClusters < 2 ^ 32

include hf

/-- The new L1 holds the old entries and zeroes after them. -/
theorem l1Region_word (clusters : Nat) (i : Nat) :
    (l1Region opts clusters).be (i * 8) 8 = if i < hdr.l1Size then hdr.l1At disk i else 0 := by
  have hlen : min opts.existingL1.len (opts.currentL1Entries * 8) = hdr.l1Size * 8 := by
    rw [hf.l1_len, hf.l1Entries]
    omega
  unfold l1Region Buffer.be
  rw [hlen]
  split
  next hi =>
    rw [← hf.l1Word hi]
    have hin : (splice (fun _ => 0) 0 (hdr.l1Size * 8) opts.existingL1.bytes).be (0 + i * 8) 8 =
        opts.existingL1.bytes.be (i * 8) 8 := be_splice_inside (by omega)
    rwa [zero_add] at hin
  next hi =>
    exact (be_splice_outside (by omega)).trans (be_zeros _ _)

/-- What a grow of the L1 plans. -/
theorem planL1Grow_planned (hp : hdr.Parsed) {a : Append}
    (hz : a.Sized hdr) (hper : 0 < hdr.perBlock)
    (hpre : opts.currentFileSize = a.pre * hdr.clusterSize)
    (hl1 : a.l1Entries = target.l1Entries) (hblocks : a.blockCount = a.count)
    (htable : a.tableClusters = hdr.refcountTableClusters)
    (hfile : a.pre * hdr.clusterSize ≤ 2 ^ 63)
    (hrt : hdr.refcountTableClusters < 2 ^ 32) (h : planL1Grow opts target = .ok plan) :
    ∃ p, Planned hdr disk a opts.newVirtualSize p ∧ plan.patches = p.patches hdr disk a ∧
      plan.totalFileSize = a.total hdr * hdr.clusterSize := by
  have hcs := hp.size_pos
  have hrel : a.relocates hdr = false := by simp [Append.relocates, htable]
  have hnew : a.newBlocks = 0 := by simp [Append.newBlocks, hblocks]
  have htotal : a.total hdr = a.pre + a.l1Count hdr := by
    simp [Append.total, Append.blocksCluster, Append.tableCluster, hrel, hnew]
  have hl1count : l1Clusters target.l1Entries opts.clusterSize = a.l1Count hdr := by
    rw [Append.l1Count, hl1, hf.clusterSize]
  have hraised : range' (opts.currentFileSize / opts.clusterSize) (a.l1Count hdr) =
      a.raised hdr := by
    have hle := hz.total_le hper
    rw [hblocks] at hle
    rw [Append.raised, hpre, hf.clusterSize, Nat.mul_div_cancel _ hcs, min_eq_right hle, htotal,
      Nat.add_sub_cancel_left]
  have hcleared : range' (opts.currentL1TableOffset / opts.clusterSize) opts.oldL1Clusters =
      a.cleared hdr := by
    rw [Append.cleared, hrel, hf.l1Offset, hf.clusterSize, Qcow2ResizeGrowQuery.oldL1Clusters,
      hf.l1Entries, hf.clusterSize]
    simp
  have hseed : ∀ k b, ensureBlockStaged opts k = .ok b →
      Holds opts.clusterSize opts.refcountBits b (countAt hdr disk k) := by
    rw [hf.clusterSize, hf.refcountBits]
    exact hf.block
  unfold planL1Grow at h
  rw [hl1count] at h
  simp only [bind_eq_ok, failIf_eq_ok, exists_const] at h
  obtain ⟨hscratch, st, hst, st', hst', header, hheader, plan1, hplan1, plan2, hplan2,
    plan3, hplan3, h⟩ := h
  rw [hraised] at hst
  rw [hcleared] at hst'
  -- the two staging loops
  have hinc : Incremented opts.clusterSize opts.refcountBits (countAt hdr disk)
      (a.raised hdr) st.slots :=
    foldlM_invariant (fun done (st : BlockSlots) =>
        Incremented opts.clusterSize opts.refcountBits (countAt hdr disk) done st.slots)
      (fun _ _ _ _ _ hst hstep => stageIncrement_step hseed hst hstep)
      ⟨by simp, by simp, Staged.nil _ _⟩ hst
  have hnofinal : finalsOf st.slots = [] := by
    rw [finalsOf, filterMap_eq_nil_iff]
    intro s hs
    rw [(hinc.pending s hs).1]
    rfl
  have hdec : Decremented opts.clusterSize opts.refcountBits
      (marked opts.clusterSize opts.refcountBits 1 (countAt hdr disk) (a.raised hdr))
      (incrementsOf st.slots) (a.cleared hdr) st'.slots :=
    foldlM_invariant (fun done (st' : BlockSlots) => Decremented opts.clusterSize opts.refcountBits
        (marked opts.clusterSize opts.refcountBits 1 (countAt hdr disk) (a.raised hdr))
        (incrementsOf st.slots) done st'.slots)
      (fun _ _ _ _ _ hst hstep => stageDecrement_step hinc.staged.holds
        (fun k b hk hb => hinc.staged.fresh hk (hseed k b hb)) hst hstep)
      ⟨hinc.nodup, fun s hs _ => (hinc.pending s hs).2, fun _ => Iff.rfl,
        hnofinal.symm ▸ Staged.nil _ _⟩ hst'
  obtain ⟨htotal1, hpatches1⟩ := push_ok hplan1
  obtain ⟨htotal2, hpatches2, hall2⟩ := pushBlocks_ok hplan2
  obtain ⟨htotal3, hpatches3⟩ := push_ok hplan3
  obtain ⟨htotal4, hpatches4, hall4⟩ := pushBlocks_ok h
  obtain ⟨hplace2, hne2⟩ := hf.place_eq hall2
  obtain ⟨hplace4, hne4⟩ := hf.place_eq hall4
  have hcs' := hf.clusterSize
  have hbits' := hf.refcountBits
  refine ⟨⟨l1Region opts (a.l1Count hdr), ⟨a.tableClusters * hdr.clusterSize, fun _ => 0⟩,
    ⟨a.newBlocks * hdr.clusterSize, fun _ => 0⟩, header, incrementsOf st'.slots,
    finalsOf st'.slots⟩, ?_, ?_, ?_⟩
  · refine ⟨by rw [l1Region, hcs'], fun i _ => l1Region_word hf _ i, rfl, fun h => ?_, rfl,
      fun i hi => ?_, ?_, ?_, ?_, ?_, ?_, htable ▸ hrt⟩
    · exact absurd h (by omega)
    · exact absurd hi (by omega)
    · have := headerFor_ok hf hp hheader
      rw [this]
      unfold Append.layout
      rw [hrel, hl1, hpre, hf.tableOffset, hf.tableClusters, htable]
      rfl
    · have hincs := hinc.staged.of_mem_iff hdec.increments (hdec.nodup.sublist (carried_keys _ _ _))
      rwa [hcs', hbits'] at hincs
    · rw [hcs', hbits'] at hdec
      exact hdec.staged
    · rintro s (hs | hs)
      · exact hne2 s hs
      · exact hne4 s hs
    · rw [plannerScratchLimit, hcs'] at hscratch
      rw [htotal, add_mul]
      omega
  · rw [hpatches4, hpatches3, hpatches2, hpatches1, hplace2, hplace4]
    unfold Pieces.patches Pieces.prepare
    simp [hrel, hnew, hpre]
  · rw [htotal4, htotal3, htotal2, htotal1, htotal, hpre, hcs']
    ring

/-! ## The tables of a full grow -/

/-- The new refcount table: the new blocks from `count` on, the old entries elsewhere. -/
theorem newTable_word (h8 : 8 ∣ hdr.clusterSize) (count : Nat) (lay : AppendLayout)
    (hle : hdr.refcountTableClusters ≤ lay.tableClusters)
    (hlt : lay.blocksOffset + lay.newBlocks * opts.clusterSize ≤ 2 ^ 64)
    (hcs : 0 < opts.clusterSize) (k : Nat) : (newTable opts count lay).be (k * 8) 8 =
      if count ≤ k ∧ k < count + lay.newBlocks then lay.blocksOffset +
      (k - count) * opts.clusterSize else hdr.blockAt disk k := by
  have hcopy : min opts.existingRefcountTable.len (lay.tableClusters * opts.clusterSize) =
      hdr.refcountTableClusters * hdr.clusterSize := by
    rw [hf.table_len, hf.clusterSize]
    exact min_eq_left (Nat.mul_le_mul_right _ hle)
  have hbase : (splice (fun _ => 0) 0 (hdr.refcountTableClusters * hdr.clusterSize)
      opts.existingRefcountTable.bytes).be (k * 8) 8 = hdr.blockAt disk k := by
    obtain ⟨w, hw⟩ := h8.mul_left hdr.refcountTableClusters
    have hentries : hdr.tableEntries = w := by
      unfold tableEntries
      omega
    by_cases hk : k < hdr.tableEntries
    · rw [← hf.word hk]
      have hin : (splice (fun _ => 0) 0 (hdr.refcountTableClusters * hdr.clusterSize)
          opts.existingRefcountTable.bytes).be (0 + k * 8) 8 =
          opts.existingRefcountTable.bytes.be (k * 8) 8 := be_splice_inside (by omega)
      rwa [zero_add] at hin
    · rw [blockAt_of_le (not_lt.mp hk)]
      exact (be_splice_outside (by omega)).trans (be_zeros _ _)
  -- induction on the number of entries written so far
  have hwrites : ∀ n ≤ lay.newBlocks, ((range n).foldl
      (fun table i => writeBe 8 ((count + i) * 8) (lay.blocksOffset + i * opts.clusterSize) table)
      (splice (fun _ => 0) 0 (hdr.refcountTableClusters * hdr.clusterSize)
        opts.existingRefcountTable.bytes)).be (k * 8) 8 =
      if count ≤ k ∧ k < count + n then lay.blocksOffset + (k - count) * opts.clusterSize
      else hdr.blockAt disk k := by
    intro n hn
    induction n with
    | zero =>
      rw [if_neg (by omega)]
      exact hbase
    | succ n ih =>
      rw [range_succ, foldl_append]
      show (writeBe 8 ((count + n) * 8) (lay.blocksOffset + n * opts.clusterSize) _).be
        (k * 8) 8 = _
      by_cases hk : k = count + n
      · have hval : lay.blocksOffset + n * opts.clusterSize < 256 ^ 8 := by
          have hmul : (n + 1) * opts.clusterSize ≤ lay.newBlocks * opts.clusterSize :=
            Nat.mul_le_mul_right _ hn
          rw [add_mul] at hmul
          omega
        rw [hk, be_writeBe hval, if_pos (by omega), Nat.add_sub_cancel_left]
      · rw [be_writeBe_outside (by omega), ih (by omega)]
        congr 1
        apply propext
        omega
  unfold newTable
  rw [hcopy]
  exact hwrites lay.newBlocks le_rfl

omit hf

/-- A new refcount block counts every cluster of the new file that it covers. -/
theorem newBlock_ok {block : Buffer} (h : newBlock opts count lay i = .ok block) :
    Holds opts.clusterSize opts.refcountBits block fun j =>
      if (count + i) * opts.perBlock + j < lay.totalFileSize / opts.clusterSize then 1 else 0 := by
  have hrun := foldlM_invariant (fun done (block : Buffer) =>
      Holds opts.clusterSize opts.refcountBits block fun j =>
        if j ∈ done ∧ (count + i) * opts.perBlock + j < lay.totalFileSize / opts.clusterSize then 1
        else 0)
    (fun done j block block' _ hblock hstep => ?_) ⟨rfl, fun j _ => ?_⟩ h
  · refine ⟨hrun.1, fun j hj => ?_⟩
    rw [hrun.2 j hj]
    simp [mem_range.mpr (show j < opts.perBlock from hj)]
  · split at hstep
    next hlt =>
      have hset := setRefcount_ok (by decide) hblock hstep
      refine ⟨hset.1, fun k hk => ?_⟩
      rw [hset.2 k hk]
      by_cases hkj : k = j
      · simp [hkj, hlt]
      · simp [hkj]
    next hlt =>
      cases hstep
      refine ⟨hblock.1, fun k hk => ?_⟩
      rw [hblock.2 k hk]
      by_cases hkj : k = j
      · simp [hkj, hlt]
      · simp [hkj]
  · simp [refcountIn_zeros]

/-- The region of the new blocks, block by block. -/
theorem newBlocks_ok {region : Buffer} (h : newBlocks opts count lay = .ok region) :
    region.len = lay.newBlocks * opts.clusterSize ∧ ∀ i < lay.newBlocks,
      ∃ block, newBlock opts count lay i = .ok block ∧
        ∀ x < opts.clusterSize, region.bytes (i * opts.clusterSize + x) = block.bytes x := by
  have hrun := foldlM_invariant (fun done (region : Buffer) =>
      region.len = lay.newBlocks * opts.clusterSize ∧ ∀ i ∈ done,
        ∃ block, newBlock opts count lay i = .ok block ∧
          ∀ x < opts.clusterSize, region.bytes (i * opts.clusterSize + x) = block.bytes x)
    (fun done i region region' _ hregion hstep => ?_) ⟨rfl, by simp⟩ h
  · exact ⟨hrun.1, fun i hi => hrun.2 i (mem_range.mpr hi)⟩
  · obtain ⟨block, hblock, hstep⟩ := ok_of_bind hstep
    cases hstep
    have hlen := (newBlock_ok hblock).1
    refine ⟨hregion.1, fun i' hi' => ?_⟩
    by_cases hii : i' = i
    · subst hii
      refine ⟨block, hblock, fun x hx => ?_⟩
      rw [Buffer.patch_bytes, hlen]
      exact splice_inside hx
    · have hmem : i' ∈ done := by
        rcases mem_append.mp hi' with hi' | hi'
        · exact hi'
        · exact absurd (mem_singleton.mp hi') hii
      obtain ⟨block', hblock', hbytes⟩ := hregion.2 i' hmem
      refine ⟨block', hblock', fun x hx => ?_⟩
      -- block `i` starts after block `i'` ends, or the other way round
      have hout : i' * opts.clusterSize + x < i * opts.clusterSize ∨
          i * opts.clusterSize + opts.clusterSize ≤ i' * opts.clusterSize + x := by
        rcases Nat.lt_or_gt_of_ne hii with hlt | hgt
        · have := Nat.mul_le_mul_right opts.clusterSize (show i' + 1 ≤ i from hlt)
          rw [add_mul] at this
          omega
        · have := Nat.mul_le_mul_right opts.clusterSize (show i + 1 ≤ i' from hgt)
          rw [add_mul] at this
          omega
      rw [Buffer.patch_bytes, hlen, splice_outside hout, hbytes x hx]

include hf in
/-- What a grow of both tables plans. -/
theorem planL1AndRefcountGrow_planned (hp : hdr.Parsed) {a : Append} (hz : a.Sized hdr)
    (hpre : opts.currentFileSize = a.pre * hdr.clusterSize) (hl1 : a.l1Entries = target.l1Entries)
    (hfile : a.pre * hdr.clusterSize ≤ 2 ^ 63) (hrt : hdr.refcountTableClusters < 2 ^ 32)
    (hcounts : opts.appendRequirements fuel target.l1Entries a.count = .ok (a.blockCount,
      a.tableClusters))
    (h : planL1AndRefcountGrow opts fuel target a.count = .ok plan) :
    ∃ p, Planned hdr disk a opts.newVirtualSize p ∧ plan.patches = p.patches hdr disk a ∧
      plan.totalFileSize = a.total hdr * hdr.clusterSize := by
  have hcs := hp.size_pos
  have hcs' := hf.clusterSize
  have hbits' := hf.refcountBits
  have h8 : 8 ∣ hdr.clusterSize := Dvd.dvd.trans (by decide) hp.size_dvd
  have hper : opts.perBlock = hdr.perBlock := by
    unfold Qcow2ResizeGrowQuery.perBlock perBlock
    rw [hcs', hbits']
  have hseed : ∀ k b, ensureBlockStaged opts k = .ok b →
      Holds opts.clusterSize opts.refcountBits b (countAt hdr disk k) := by
    rw [hcs', hbits']
    exact hf.block
  obtain ⟨counts, hcounts', h⟩ := ok_of_bind h
  obtain rfl : counts = (a.blockCount, a.tableClusters) :=
    Except.ok.inj (hcounts'.symm.trans hcounts)
  generalize hlay : opts.appendLayout target.l1Entries a.count (a.blockCount,
    a.tableClusters) = lay at h
  -- the layout in clusters
  have hrel : lay.relocates = a.relocates hdr := by
    rw [← hlay, Append.relocates, ← hf.tableClusters]
    rfl
  have hnew : lay.newBlocks = a.newBlocks := by
    rw [← hlay]
    rfl
  have hl1count : lay.l1Clusters = a.l1Count hdr := by
    rw [← hlay, Append.l1Count, hl1, ← hcs']
    rfl
  have htc : lay.tableClusters = a.tableClusters := by
    rw [← hlay]
    rfl
  have hl1off : lay.l1Offset = a.pre * hdr.clusterSize := by
    rw [← hlay, ← hpre]
    rfl
  have htoff : lay.tableOffset = a.tableCluster hdr * hdr.clusterSize := by
    rw [Append.tableCluster, ← hl1count, ← hlay, add_mul, ← hpre, ← hcs']
    rfl
  have hboff : lay.blocksOffset = a.blocksCluster hdr * hdr.clusterSize := by
    have hdef : lay.blocksOffset =
        lay.tableOffset + if lay.relocates then lay.tableClusters * opts.clusterSize else 0 := by
      rw [← hlay]
      rfl
    rw [hdef, htoff, hrel, htc, hcs', Append.blocksCluster, add_mul]
    split <;> simp
  have htotal : lay.totalFileSize = a.total hdr * hdr.clusterSize := by
    have hdef : lay.totalFileSize = lay.blocksOffset + lay.newBlocks * opts.clusterSize := by
      rw [← hlay]
      rfl
    rw [hdef, hboff, hnew, hcs', Append.total, add_mul]
  have htotal' : lay.totalFileSize / opts.clusterSize = a.total hdr := by
    rw [htotal, hcs', Nat.mul_div_cancel _ hcs]
  have hoverlap : opts.overlap a.count lay = (a.pre,
      min (a.count * hdr.perBlock) (a.total hdr) - a.pre) := by
    unfold Qcow2ResizeGrowQuery.overlap
    rw [htotal', hpre, hcs', Nat.mul_div_cancel _ hcs, hper]
  have hcleared : range' (opts.currentL1TableOffset / opts.clusterSize) opts.oldL1Clusters ++
      (if lay.relocates then range' (opts.currentRefcountTableOffset / opts.clusterSize)
        opts.currentRefcountTableClusters else []) = a.cleared hdr := by
    rw [Append.cleared, hrel, hf.l1Offset, hcs', Qcow2ResizeGrowQuery.oldL1Clusters,
      hf.l1Entries, hcs', hf.tableOffset, hf.tableClusters]
  obtain ⟨hscratch, h⟩ := ok_of_check h
  obtain ⟨-, h⟩ := ok_of_check h
  obtain ⟨-, h⟩ := ok_of_check h
  rw [hnew, hl1count, hrel, htc, hcs', plannerScratchLimit] at hscratch
  have hsize : a.total hdr * hdr.clusterSize < 2 ^ 64 := by
    unfold Append.total Append.blocksCluster Append.tableCluster
    rw [add_mul, add_mul, add_mul]
    cases hr : a.relocates hdr with
    | false => simp only [hr, Bool.false_eq_true, if_false, zero_mul] at hscratch ⊢; omega
    | true => simp only [hr, true_or, if_true] at hscratch ⊢; omega
  have htlt : a.tableClusters < 2 ^ 32 := by
    cases hr : a.relocates hdr with
    | false =>
      have : ¬ hdr.refcountTableClusters < a.tableClusters := by simpa [Append.relocates] using hr
      omega
    | true =>
      simp only [hr, true_or, if_true] at hscratch
      have := Nat.le_mul_of_pos_right a.tableClusters hcs
      omega
  simp only [bind_eq_ok] at h
  obtain ⟨blocks, hblocks, header, hheader, overlap, hover, cleanup1, hclean1,
    cleanup, hclean, plan1,
    hplan1, plan2, hplan2, plan3, hplan3, plan4, hplan4, plan5, hplan5, plan6, hplan6, h⟩ := h
  -- the two staging loops
  rw [hoverlap] at hover
  have hinc := stageEntry_loop (by decide) hseed hover
  have hrun : (a.cleared hdr).foldlM (stageCleanupDecrement opts overlap.blocks)
      { blocks := [], nextStaging := overlap.nextStaging } = .ok cleanup := by
    rw [← hcleared, foldlM_append, hclean1]
    exact hclean
  have hdec := stageEntry_loop (by decide) (cleanupSeed_ok hseed hinc) hrun
  obtain ⟨htotal1, hpatches1⟩ := push_ok hplan1
  obtain ⟨htotal2, hpatches2⟩ := pushIf_ok hplan2
  obtain ⟨htotal3, hpatches3⟩ := pushIf_ok hplan3
  obtain ⟨htotal4, hpatches4⟩ := pushIf_ok hplan4
  obtain ⟨htotal5, hpatches5, hall5⟩ := pushBlocks_ok hplan5
  obtain ⟨htotal6, hpatches6⟩ := push_ok hplan6
  obtain ⟨htotal7, hpatches7, hall7⟩ := pushBlocks_ok h
  obtain ⟨hplace5, hne5⟩ := hf.place_eq hall5
  obtain ⟨hplace7, hne7⟩ := hf.place_eq hall7
  obtain ⟨hblen, hbcount⟩ := newBlocks_ok hblocks
  refine ⟨⟨l1Region opts lay.l1Clusters, ⟨lay.tableClusters * opts.clusterSize,
    newTable opts a.count lay⟩, blocks, header, overlap.blocks, cleanup.blocks⟩, ?_, ?_, ?_⟩
  · refine ⟨by rw [l1Region, hcs', hl1count], fun i _ => l1Region_word hf _ i, by rw [htc, hcs'],
      fun _ k _ => ?_, by rw [hblen, hnew, hcs'], fun i hi j hj => ?_, ?_, ?_, ?_, ?_, hsize, htlt⟩
    · have hword := newTable_word hf h8 a.count lay (by rw [htc]; exact hz.table_le)
        (by rw [hboff, hnew, hcs', ← add_mul]; exact hsize.le) (hcs' ▸ hcs) k
      rw [hnew, ← hz.blockCount_eq, hboff, hcs'] at hword
      show (newTable opts a.count lay).be (k * 8) 8 = _
      rw [hword, add_mul]
    · obtain ⟨block, hblock, hbytes⟩ := hbcount i (hnew ▸ hi)
      have hholds := newBlock_ok hblock
      rw [htotal', hper, hcs', hbits'] at hholds
      refine (refcountIn_congr hholds.1.symm fun x hx => ?_).trans (hholds.2 j hj)
      rw [hcs'] at hbytes
      exact hbytes x hx
    · rw [headerFor_ok hf hp hheader]
      unfold Append.layout
      rw [hrel, hl1off, htoff, htc, hf.tableOffset, hl1]
    · rwa [hcs', hbits'] at hinc
    · rwa [hcs', hbits'] at hdec
    · rintro s (hs | hs)
      · exact hne5 s hs
      · exact hne7 s hs
  · rw [hpatches7, hpatches6, hpatches5, hpatches4, hpatches3, hpatches2, hpatches1,
      hplace5, hplace7]
    unfold Pieces.patches Pieces.prepare
    simp only [hrel, hnew, hl1off, htoff, hboff, hf.tableOffset, nil_append,
      append_assoc, cons_append]
  · rw [htotal7, htotal6, htotal5, htotal4, htotal3, htotal2, htotal1, htotal]

/-! ## Writing staged blocks back -/

section Placing

variable {fileSize : Nat} {others : Nat → Nat} {m : ByteMap} {b k : Nat} {w : Nat × Buffer}
  {t : List (Nat × Buffer)}

variable {bs : List (Nat × Buffer)}

theorem own_of_block (h : hdr.blockAt disk k ≠ 0) :
    hdr.own disk (hdr.blockAt disk k / hdr.clusterSize) ≠ 0 := by
  have hpos := blockRefs_pos h
  unfold own
  omega

variable (hcs : 0 < hdr.clusterSize) (hsound : hdr.Sound disk fileSize others)
include hcs hsound

/-- A staged block goes to its place. -/
theorem place_block (hbs : ∀ s ∈ bs, s.2.len = hdr.clusterSize)
    (hplaced : ∀ s ∈ bs, hdr.blockAt disk s.1 ≠ 0) (hw : w ∈ place hdr disk bs) (hb : Covers w b) :
    ∃ s ∈ bs, w = (hdr.blockAt disk s.1, s.2) ∧ hdr.blockAt disk s.1 ≠ 0 ∧
      hdr.blockAt disk s.1 / hdr.clusterSize = b / hdr.clusterSize := by
  obtain ⟨s, hs, rfl⟩ := mem_map.mp hw
  have hlen : s.2.len = 1 * hdr.clusterSize := by rw [hbs s hs, one_mul]
  have hin := (covers_iff (w :=
    (hdr.blockAt disk s.1, s.2)) hcs (aligned_eq (hsound.block s.1)) hlen).mp hb
  dsimp only at hin
  exact ⟨s, hs, rfl, hplaced s hs, by omega⟩

/-- Staged blocks go to different places. -/
theorem place_disjoint (hnodup : (bs.map Prod.fst).Nodup)
    (hlen : ∀ s ∈ bs, s.2.len = hdr.clusterSize) (hplaced : ∀ s ∈ bs, hdr.blockAt disk s.1 ≠ 0) :
    (place hdr disk bs).Pairwise fun v v' => ∀ b, Covers v b → ¬ Covers v' b := by
  have hkeys : bs.Pairwise fun s s' => s.1 ≠ s'.1 := pairwise_map.mp hnodup
  refine pairwise_map.mpr (hkeys.imp_of_mem fun {s s'} hs hs' hne b hb hb' => hne ?_)
  have hone : ∀ s ∈ bs, Covers (hdr.blockAt disk s.1, s.2) b →
      hdr.blockAt disk s.1 / hdr.clusterSize = b / hdr.clusterSize := by
    intro s hs hcov
    have hlen1 : s.2.len = 1 * hdr.clusterSize := by rw [hlen s hs, one_mul]
    have := (covers_iff (w := (hdr.blockAt disk s.1, s.2)) hcs (aligned_eq (hsound.block s.1))
      hlen1).mp hcov
    dsimp only at this
    omega
  exact hsound.block_inj (hplaced s hs) ((hone s hs hb).trans (hone s' hs' hb').symm)
    (hplaced s' hs')

/-- What writing staged blocks back does to the counts of block `k`. -/
theorem place_counts {value : Nat} {orig : Nat → Nat → Nat} {done : List Nat}
    (hst : Staged hdr.clusterSize hdr.refcountBits value orig done bs)
    (hplaced : ∀ s ∈ bs, hdr.blockAt disk s.1 ≠ 0) (ht : t <+: place hdr disk bs)
    (hk : hdr.blockAt disk k ≠ 0) (hm : HasCounts hdr disk m k orig) :
    (HasCounts hdr disk (applyAll t m) k orig ∧ t ≠ place hdr disk bs) ∨
      HasCounts hdr disk (applyAll t m) k (marked hdr.clusterSize hdr.refcountBits value
        orig done) := by
  have hlen : ∀ s ∈ bs, s.2.len = hdr.clusterSize := fun s hs => (hst.holds s hs).1
  by_cases hmem : ∃ s ∈ bs, s.1 = k ∧ (hdr.blockAt disk k, s.2) ∈ t
  · obtain ⟨s, hs, rfl, hw⟩ := hmem
    refine .inr fun j hj => ?_
    rw [← (hst.holds s hs).2 j hj]
    refine refcountIn_congr (hlen s hs).symm fun i hi => ?_
    have hcov : Covers (hdr.blockAt disk s.1, s.2) (hdr.blockAt disk s.1 + i) :=
        ⟨Nat.le_add_right _ _, by
        have : i < hdr.clusterSize := hi
        rw [hlen s hs]
        omega⟩
    refine (applyAll_mem hw hcov ((place_disjoint hcs hsound hst.nodup hlen hplaced).sublist
      ht.sublist)).trans ?_
    rw [Nat.add_sub_cancel_left]
  · -- no patch of `t` reaches the block
    have hkeep : ∀ j, refcountIn hdr.refcountBits (hdr.blockBytes (applyAll t m)
        (hdr.blockAt disk k)) j =
        refcountIn hdr.refcountBits (hdr.blockBytes m (hdr.blockAt disk k)) j := by
      refine fun j => refcountIn_congr rfl fun i hi => applyAll_outside fun w hw hcov => ?_
      obtain ⟨s, hs, rfl, hne, heq⟩ := place_block hcs hsound hlen hplaced (ht.subset hw) hcov
      rw [div_of_aligned hcs (hsound.block k) hi] at heq
      have hsk := hsound.block_inj hne heq hk
      exact hmem ⟨s, hs, hsk, hsk ▸ hw⟩
    by_cases hfull : t = place hdr disk bs
    · refine .inr fun j hj => ?_
      rw [hkeep, hm j hj, marked, if_neg fun hdone => ?_]
      obtain ⟨s, hs, hsk⟩ := hst.all _ hdone
      have hk' : s.1 = k := hsk.trans ((coords_iff hj).mp rfl).1.symm
      refine hmem ⟨s, hs, hk', ?_⟩
      rw [hfull, ← hk']
      exact mem_map_of_mem hs
    · exact .inl ⟨fun j hj => by rw [hkeep, hm j hj], hfull⟩

end Placing

end Instar.Resize
