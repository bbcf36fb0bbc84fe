import Instar.Resize.Header

/-!
# A grow under way

The patches of a grow that appends go to disk in order: the new tables after the end of the file,
the refcount table in place if it has room for the new blocks, the blocks that count the new
clusters, the header, and the blocks with the old tables' counts cleared.  This module says what the
file holds after each prefix `ws` of that sequence; `prefix_cases` lists where it can end.
-/

namespace Instar.Resize

open Instar.Qcow2 Instar.RefCount QcowHeader List Pieces

/-- A sound image, the append that a grow makes of it, and its plan. -/
structure Growing (hdr : QcowHeader) (disk : ByteMap) (fileSize : Nat) (others : Nat → Nat)
    (newSize : Nat) (a : Append) (p : Pieces) : Prop where
  parsed : hdr.Parsed
  bounded : Bounded hdr
  width : LegalWidth hdr.refcountBits
  gates : validateIncompat hdr.incompatibleFeatures = .ok ()
  sound : hdr.Sound disk fileSize others
  grows : hdr.l1Size < a.l1Entries
  pre_eq : a.pre = divCeil fileSize hdr.clusterSize
  count_eq : a.count = (populatedEntries hdr disk).card
  l1_eq : a.l1Entries = divCeil newSize (l2Coverage hdr.clusterSize hdr.extendedL2)
  l1_le : a.l1Entries ≤ qcow2MaxL1SizeEntries
  sized : a.Sized hdr
  planned : Planned hdr disk a newSize p

/-- The patches past the end of the old file. -/
def Pieces.appended (hdr : QcowHeader) (a : Append) (p : Pieces) : List (Nat × Buffer) :=
  (a.pre * hdr.clusterSize, p.l1) ::
    ((if a.relocates hdr then [(a.tableCluster hdr * hdr.clusterSize, p.table)] else []) ++
      (if 0 < a.newBlocks then [(a.blocksCluster hdr * hdr.clusterSize, p.blocks)] else []))

/-- The refcount table, if it is written in place. -/
def Pieces.inPlace (hdr : QcowHeader) (a : Append) (p : Pieces) : List (Nat × Buffer) :=
  if a.relocates hdr = false ∧ 0 < a.newBlocks then [(hdr.refcountTableOffset, p.table)] else []

theorem Pieces.prepare_eq (hdr : QcowHeader) (disk : ByteMap) (a : Append) (p : Pieces) :
    p.prepare hdr disk a = p.appended hdr a ++ (p.inPlace hdr a ++ place hdr disk p.incs) := by
  unfold prepare appended inPlace
  simp only [cons_append, append_assoc]

variable {hdr : QcowHeader} {disk m : ByteMap} {fileSize newSize : Nat} {others : Nat → Nat}
  {a : Append} {p : Pieces} {ws t : List (Nat × Buffer)} {w : Nat × Buffer} {b c k : Nat}

/-- Where a prefix of the patches ends. -/
theorem prefix_cases (h : ws <+: p.patches hdr disk a) : ws <+: p.appended hdr a ∨
      (∃ t, t <+: place hdr disk p.incs ∧ ws = p.appended hdr a ++ (p.inPlace hdr a ++ t)) ∨
      ∃ t, t <+: place hdr disk p.fins ∧ ws = p.prepare hdr disk a ++ (0, p.header) :: t := by
  rcases prefix_append_cases h with h | ⟨t, ht, rfl⟩
  · rw [prepare_eq] at h
    rcases prefix_append_cases h with h | ⟨t, ht, rfl⟩
    · exact .inl h
    · rcases prefix_append_cases ht with ht | ⟨u, hu, rfl⟩
      · unfold inPlace at ht ⊢
        split at ht
        next hin =>
          rcases prefix_cons_iff.mp ht with rfl | ⟨t', rfl, ht'⟩
          · rw [append_nil]
            exact .inl (prefix_refl _)
          · rw [prefix_nil.mp ht']
            exact .inr (.inl ⟨[], nil_prefix, by rw [if_pos hin, append_nil]⟩)
        · rw [prefix_nil.mp ht, append_nil]
          exact .inl (prefix_refl _)
      · exact .inr (.inl ⟨u, hu, rfl⟩)
  · rcases prefix_cons_iff.mp ht with rfl | ⟨t', rfl, ht'⟩
    · rw [append_nil, prepare_eq]
      exact .inr (.inl ⟨_, prefix_refl _, rfl⟩)
    · exact .inr (.inr ⟨t', ht', rfl⟩)

/-- The patches of a grow. -/
theorem mem_patches (h : ws <+: p.patches hdr disk a) :
    ∀ w ∈ ws, w ∈ p.appended hdr a ∨ (w ∈ p.inPlace hdr a ∨ w ∈ place hdr disk p.incs ∨
      w = (0, p.header) ∨ w ∈ place hdr disk p.fins) := by
  intro w hw
  have hmem := h.subset hw
  rw [patches, prepare_eq] at hmem
  simp only [mem_append, mem_cons] at hmem
  tauto

/-- What may follow the appended tables. -/
def Late (hdr : QcowHeader) (disk : ByteMap) (a : Append) (p : Pieces)
    (rest : List (Nat × Buffer)) : Prop :=
  ∀ w ∈ rest, w ∈ p.inPlace hdr a ∨ w ∈ place hdr disk p.incs ∨ w = (0, p.header) ∨
    w ∈ place hdr disk p.fins

theorem Append.l1Count_pos (hdr : QcowHeader) (a : Append) : 0 < a.l1Count hdr := by
  unfold Append.l1Count l1Clusters
  omega

theorem Append.bounds (hdr : QcowHeader) (a : Append) : a.pre < a.tableCluster hdr ∧
    a.tableCluster hdr ≤ a.blocksCluster hdr ∧ a.blocksCluster hdr ≤ a.total hdr := by
  have := a.l1Count_pos hdr
  unfold Append.total Append.blocksCluster Append.tableCluster
  omega

namespace Growing

variable (hg : Growing hdr disk fileSize others newSize a p)
include hg

variable {rest : List (Nat × Buffer)} {i : Nat}

theorem cs_pos : 0 < hdr.clusterSize := hg.parsed.size_pos

theorem per_ge : 64 ≤ hdr.perBlock := perBlock_ge hg.parsed hg.width

/-- What is referred to lies in the old file. -/
theorem lt_pre (h : hdr.refs disk c + others c ≠ 0) : c < a.pre := by
  rw [hg.pre_eq]
  exact (lt_divCeil hg.cs_pos).mpr (hg.sound.inside c h)

theorem own_lt_pre (h : hdr.own disk c ≠ 0) : c < a.pre := by
  refine hg.lt_pre ?_
  unfold refs
  omega

theorem block_lt_pre (h : hdr.blockAt disk k ≠ 0) :
    hdr.blockAt disk k / hdr.clusterSize < a.pre := by
  have hpos := blockRefs_pos h
  refine hg.own_lt_pre ?_
  unfold own
  omega

theorem table_lt_pre (h : hdr.tableRefs c ≠ 0) : c < a.pre := by
  refine hg.own_lt_pre ?_
  unfold own
  omega

/-- Nothing of the old image lies past its end. -/
theorem refs_zero (h : a.pre ≤ c) : hdr.refs disk c = 0 ∧ others c = 0 := by
  by_contra hne
  have := hg.lt_pre (c := c) (by omega)
  omega

theorem pre_pos : 0 < a.pre := by
  refine hg.own_lt_pre (c := 0) ?_
  unfold own
  simp

theorem count_pos : 0 < a.count := by
  rw [hg.count_eq]
  exact populatedEntries_pos hg.sound

theorem entries_fit : a.count * 8 ≤ hdr.refcountTableClusters * hdr.clusterSize := by
  rw [hg.count_eq]
  exact populatedEntries_fit hdr disk

theorem tableClusters_eq (h : a.relocates hdr = false) :
    a.tableClusters = hdr.refcountTableClusters := by
  have hle := hg.sized.table_le
  have hnot : ¬ hdr.refcountTableClusters < a.tableClusters := by simpa [Append.relocates] using h
  omega

/-! ## Where the patches go -/

/-- The appended tables lie past the end of the old file. -/
theorem appended_high (hw : w ∈ p.appended hdr a) (hb : Covers w b) :
    a.pre ≤ b / hdr.clusterSize := by
  obtain ⟨h1, h2, h3⟩ := a.bounds hdr
  unfold appended at hw
  simp only [mem_cons, mem_append, mem_ite_nil_right, not_mem_nil, or_false] at hw
  rcases hw with rfl | ⟨-, rfl⟩ | ⟨-, rfl⟩
  · exact ((covers_iff hg.cs_pos rfl hg.planned.l1_len).mp hb).1
  · have := ((covers_iff hg.cs_pos rfl hg.planned.table_len).mp hb).1
    omega
  · have := ((covers_iff hg.cs_pos rfl hg.planned.blocks_len).mp hb).1
    omega

/-- The table written in place covers the old table. -/
theorem inPlace_table (hw : w ∈ p.inPlace hdr a) (hb : Covers w b) :
    hdr.tableRefs (b / hdr.clusterSize) ≠ 0 := by
  unfold inPlace at hw
  simp only [mem_ite_nil_right, mem_singleton] at hw
  obtain ⟨⟨hrel, -⟩, rfl⟩ := hw
  have hlen : p.table.len = hdr.refcountTableClusters * hdr.clusterSize := by
    rw [hg.planned.table_len, hg.tableClusters_eq hrel]
  have hin := (covers_iff hg.cs_pos (aligned_eq hg.sound.table) hlen).mp hb
  rw [tableRefs_eq hg.cs_pos hg.sound.table, if_pos hin]
  exact one_ne_zero

/-- A patch of staged blocks covers a refcount block of the image. -/
theorem block_patch (hw : w ∈ place hdr disk p.incs ∨ w ∈ place hdr disk p.fins) (hb : Covers w b) :
    ∃ k, hdr.blockAt disk k ≠ 0 ∧ hdr.blockAt disk k / hdr.clusterSize = b / hdr.clusterSize := by
  rcases hw with hw | hw
  · obtain ⟨s, -, -, hne, heq⟩ := place_block hg.cs_pos hg.sound
      (fun s hs => (hg.planned.incs.holds s hs).1) (fun s hs => hg.planned.placed s (.inl hs)) hw hb
    exact ⟨s.1, hne, heq⟩
  · obtain ⟨s, -, -, hne, heq⟩ := place_block hg.cs_pos hg.sound
      (fun s hs => (hg.planned.fins.holds s hs).1) (fun s hs => hg.planned.placed s (.inr hs)) hw hb
    exact ⟨s.1, hne, heq⟩

/-- The header patch covers the header's cluster. -/
theorem header_patch (hb : Covers (0, p.header) b) : b / hdr.clusterSize = 0 := by
  have h := hb.2
  rw [hg.planned.header_eq] at h
  dsimp only at h
  exact Nat.div_eq_of_lt (by omega)

/-- The patches after the appended tables stay in the old image's own clusters. -/
theorem late_own (hw : w ∈ p.inPlace hdr a ∨ w ∈ place hdr disk p.incs ∨ w = (0, p.header) ∨
    w ∈ place hdr disk p.fins) (hb : Covers w b) : hdr.own disk (b / hdr.clusterSize) ≠ 0 := by
  have hblock : w ∈ place hdr disk p.incs ∨ w ∈ place hdr disk p.fins →
      hdr.own disk (b / hdr.clusterSize) ≠ 0 := by
    intro hw
    obtain ⟨k, hne, heq⟩ := hg.block_patch hw hb
    rw [← heq]
    exact own_of_block hne
  rcases hw with hw | hw | rfl | hw
  · have := hg.inPlace_table hw hb
    unfold own
    omega
  · exact hblock (.inl hw)
  · rw [hg.header_patch hb]
    simp [own]
  · exact hblock (.inr hw)

/-! ## The bytes past the old file -/

variable (hrest : Late hdr disk a p rest)

include hrest in
/-- The bytes past the old file are those of the appended tables. -/
theorem high_bytes (hb : a.pre ≤ b / hdr.clusterSize) :
    applyAll (p.appended hdr a ++ rest) m b = applyAll (p.appended hdr a) m b := by
  rw [applyAll_append]
  refine applyAll_outside fun w hw hcov => ?_
  have := hg.own_lt_pre (hg.late_own (hrest w hw) hcov)
  omega

theorem div_add {q n : Nat} (hi : i < n * hdr.clusterSize) :
      q ≤ (q * hdr.clusterSize + i) / hdr.clusterSize ∧
      (q * hdr.clusterSize + i) / hdr.clusterSize < q + n := by
  rw [Nat.le_div_iff_mul_le hg.cs_pos, Nat.div_lt_iff_lt_mul hg.cs_pos, add_mul]
  omega

include hrest

/-- The new L1. -/
theorem l1_bytes (hi : i < a.l1Count hdr * hdr.clusterSize) :
    applyAll (p.appended hdr a ++ rest) m (a.pre * hdr.clusterSize + i) = p.l1.bytes i := by
  obtain ⟨hlo, hhi⟩ := hg.div_add (q := a.pre) hi
  obtain ⟨h1, h2, h3⟩ := a.bounds hdr
  have hcov : Covers (a.pre * hdr.clusterSize, p.l1) (a.pre * hdr.clusterSize + i) :=
    (covers_iff hg.cs_pos rfl hg.planned.l1_len).mpr ⟨hlo, hhi⟩
  rw [hg.high_bytes hrest hlo]
  refine (applyAll_first hcov fun v hv hv' => ?_).trans (by rw [Nat.add_sub_cancel_left])
  simp only [mem_append, mem_ite_nil_right, mem_singleton] at hv
  unfold Append.tableCluster at h2
  rcases hv with ⟨-, rfl⟩ | ⟨-, rfl⟩
  · have := ((covers_iff hg.cs_pos rfl hg.planned.table_len).mp hv').1
    unfold Append.tableCluster at this
    omega
  · have := ((covers_iff hg.cs_pos rfl hg.planned.blocks_len).mp hv').1
    omega

/-- The new refcount table. -/
theorem table_bytes (hrel : a.relocates hdr = true) (hi : i < a.tableClusters * hdr.clusterSize) :
    applyAll (p.appended hdr a ++ rest) m (a.tableCluster hdr * hdr.clusterSize + i) =
    p.table.bytes i := by
  obtain ⟨hlo, hhi⟩ := hg.div_add (q := a.tableCluster hdr) hi
  obtain ⟨h1, h2, h3⟩ := a.bounds hdr
  have hcov : Covers (a.tableCluster hdr * hdr.clusterSize, p.table)
      (a.tableCluster hdr * hdr.clusterSize + i) :=
    (covers_iff hg.cs_pos rfl hg.planned.table_len).mpr ⟨hlo, hhi⟩
  have hend : a.blocksCluster hdr = a.tableCluster hdr + a.tableClusters := by
    rw [Append.blocksCluster, hrel, if_pos rfl]
  have hsplit : p.appended hdr a = [(a.pre * hdr.clusterSize, p.l1)] ++
      (a.tableCluster hdr * hdr.clusterSize, p.table) ::
        (if 0 < a.newBlocks then [(a.blocksCluster hdr * hdr.clusterSize, p.blocks)] else []) := by
    rw [appended, hrel, if_pos rfl]
    rfl
  rw [hg.high_bytes hrest (by omega), hsplit]
  refine (applyAll_last hcov fun v hv hv' => ?_).trans (by rw [Nat.add_sub_cancel_left])
  simp only [mem_ite_nil_right, mem_singleton] at hv
  obtain ⟨-, rfl⟩ := hv
  have := ((covers_iff hg.cs_pos rfl hg.planned.blocks_len).mp hv').1
  omega

/-- The new refcount blocks. -/
theorem block_bytes (hi : i < a.newBlocks * hdr.clusterSize) :
    applyAll (p.appended hdr a ++ rest) m (a.blocksCluster hdr * hdr.clusterSize + i) =
    p.blocks.bytes i := by
  obtain ⟨hlo, hhi⟩ := hg.div_add (q := a.blocksCluster hdr) hi
  obtain ⟨h1, h2, h3⟩ := a.bounds hdr
  have hnew : 0 < a.newBlocks := pos_of_ne_zero fun h => by rw [h, zero_mul] at hi; omega
  have hcov : Covers (a.blocksCluster hdr * hdr.clusterSize, p.blocks)
      (a.blocksCluster hdr * hdr.clusterSize + i) :=
    (covers_iff hg.cs_pos rfl hg.planned.blocks_len).mpr ⟨hlo, hhi⟩
  have hsplit : p.appended hdr a = ((a.pre * hdr.clusterSize, p.l1) ::
      (if a.relocates hdr then [(a.tableCluster hdr * hdr.clusterSize, p.table)] else [])) ++
        (a.blocksCluster hdr * hdr.clusterSize, p.blocks) :: [] := by
    rw [appended, if_pos hnew]
    rfl
  rw [hg.high_bytes hrest (by omega), hsplit]
  exact (applyAll_last hcov fun v hv =>
    absurd hv not_mem_nil).trans (by rw [Nat.add_sub_cancel_left])

omit hrest

/-! ## The bytes of the old file -/

/-- Data and L2 tables are never written. -/
theorem low_bytes (h : ws <+: p.patches hdr disk a) (hb : b / hdr.clusterSize < a.pre)
    (hown : hdr.own disk (b / hdr.clusterSize) = 0) : applyAll ws m b = m b := by
  refine applyAll_outside fun w hw hcov => ?_
  rcases mem_patches h w hw with hw | hw
  · have := hg.appended_high hw hcov
    omega
  · exact hg.late_own hw hcov hown

/-- The header's cluster is written by the header patch alone. -/
theorem not_header (hw : w ∈ p.appended hdr a ∨ w ∈ p.inPlace hdr a ∨ w ∈ place hdr disk p.incs ∨
    w ∈ place hdr disk p.fins) (hb : Covers w b) : b / hdr.clusterSize ≠ 0 := by
  have hblock : w ∈ place hdr disk p.incs ∨ w ∈ place hdr disk p.fins →
      b / hdr.clusterSize ≠ 0 := by
    intro hw
    obtain ⟨k, hne, heq⟩ := hg.block_patch hw hb
    rw [← heq]
    exact (hg.sound.block_alone hne).1
  have hpre := hg.pre_pos
  rcases hw with hw | hw | hw | hw
  · have := hg.appended_high hw hb
    omega
  · intro h
    have htable := hg.inPlace_table hw hb
    rw [h] at htable
    exact htable hg.sound.zero_alone.2.1
  · exact hblock (.inl hw)
  · exact hblock (.inr hw)

/-- Before the header patch the header is the old one. -/
theorem header_old (h : ws <+: p.prepare hdr disk a) (hb : b < hdr.clusterSize) :
    applyAll ws m b = m b := by
  refine applyAll_outside fun w hw hcov => ?_
  have hmem := h.subset hw
  rw [prepare_eq] at hmem
  simp only [mem_append] at hmem
  exact hg.not_header (by tauto) hcov (Nat.div_eq_of_lt hb)

/-- From the header patch on the header is the new one. -/
theorem header_new (h : t <+: place hdr disk p.fins) (hb : b < hdr.clusterSize) :
    applyAll (ws ++ (0, p.header) :: t) m b = p.header.bytes b := by
  have hlen : p.header.len = hdr.clusterSize := by rw [hg.planned.header_eq]
  have hcov : Covers (0, p.header) b := ⟨Nat.zero_le _, by dsimp only; omega⟩
  exact applyAll_last hcov fun v hv hv' =>
    hg.not_header (.inr (.inr (.inr (h.subset hv)))) hv' (Nat.div_eq_of_lt hb)

/-- Blocks and header leave the refcount table alone. -/
theorem not_table (hw : w ∈ place hdr disk p.incs ∨ w = (0, p.header) ∨ w ∈ place hdr disk p.fins)
    (hb : Covers w b) : hdr.tableRefs (b / hdr.clusterSize) = 0 := by
  have hblock : w ∈ place hdr disk p.incs ∨ w ∈ place hdr disk p.fins →
      hdr.tableRefs (b / hdr.clusterSize) = 0 := by
    intro hw
    obtain ⟨k, hne, heq⟩ := hg.block_patch hw hb
    rw [← heq]
    exact (hg.sound.block_alone hne).2.2.1
  rcases hw with hw | rfl | hw
  · exact hblock (.inl hw)
  · rw [hg.header_patch hb]
    exact hg.sound.zero_alone.2.1
  · exact hblock (.inr hw)

/-- The old refcount table stays until it is written in place. -/
theorem old_table (hws : ∀ w ∈ ws, w ∈ p.appended hdr a ∨ w ∈ place hdr disk p.incs ∨
      w = (0, p.header) ∨ w ∈ place hdr disk p.fins)
    (hb : hdr.tableRefs (b / hdr.clusterSize) ≠ 0) : applyAll ws m b = m b := by
  refine applyAll_outside fun w hw hcov => ?_
  rcases hws w hw with hw | hw
  · have := hg.appended_high hw hcov
    have := hg.table_lt_pre hb
    omega
  · exact hb (hg.not_table hw hcov)

/-- The refcount table once it has been written in place. -/
theorem new_table (hrel : a.relocates hdr = false) (hnew : 0 < a.newBlocks)
    (hws : ∀ w ∈ ws, w ∈ place hdr disk p.incs ∨ w = (0, p.header) ∨ w ∈ place hdr disk p.fins)
    (hi : i < a.tableClusters * hdr.clusterSize) :
    applyAll (p.appended hdr a ++ (p.inPlace hdr a ++ ws)) m (hdr.refcountTableOffset + i) =
      p.table.bytes i := by
  have hin : hdr.tableRefs ((hdr.refcountTableOffset + i) / hdr.clusterSize) ≠ 0 :=
    table_cluster hg.cs_pos hg.sound.table (by rwa [← hg.tableClusters_eq hrel])
  have hcov : Covers (hdr.refcountTableOffset, p.table) (hdr.refcountTableOffset + i) :=
    ⟨Nat.le_add_right _ _, by dsimp only; rw [hg.planned.table_len]; omega⟩
  rw [inPlace, if_pos ⟨hrel, hnew⟩]
  exact (applyAll_last hcov fun v hv hv' => hin (hg.not_table (hws v hv) hv')).trans
    (by rw [Nat.add_sub_cancel_left])

end Growing

end Instar.Resize
