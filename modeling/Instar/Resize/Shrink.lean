import Instar.Resize.Discard
import Instar.Resize.Frame

/-!
# Shrinking a qcow2 image

What a shrink leaves of an image.  The tables of the result are the old ones without what lies above
the new size, and the counts of the freed clusters are zero whatever else refers to them.  So a
shrink of a sound image keeps its promise under conditions that the code does not check, and
`runQcow2_shrink_iff` says exactly which.
-/

namespace Instar.Resize

open Instar.Qcow2 Instar.RefCount Instar.Read ByteMap QcowHeader List Option

/-! ## What remains -/

section Remaining

variable (hdr : QcowHeader) (disk : ByteMap) (size : Nat)

/-- Entry `j` of the table of L1 entry `i` is cleared with the straddled table, which it is in. -/
def CutAway (i j : Nat) : Prop :=
  size % coverage hdr ≠ 0 ∧
    hostOf (hdr.l1At disk i) = hostOf (hdr.l1At disk (straddleIdx hdr size)) ∧ Above hdr size j

instance (i j : Nat) : Decidable (CutAway hdr disk size i j) :=
  inferInstanceAs (Decidable (_ ∧ _ ∧ _))

/-- The table of a remaining L1 entry. -/
def keptHost (i : Nat) : Nat :=
  if i < firstDiscarded hdr size then hostOf (hdr.l1At disk i) else 0

/-- A remaining L2 entry. -/
def keptEntry (i j : Nat) : Nat :=
  if i < firstDiscarded hdr size ∧ ¬ CutAway hdr disk size i j then
    hdr.l2At disk (hostOf (hdr.l1At disk i)) j
  else 0

/-- The references that remain: those of the image's own tables and of the remaining entries. -/
def keptRefs (c : Nat) : Nat :=
  hdr.own disk c + chainRefs hdr.clusterBits hdr.clusterSize hdr.l1Size hdr.l2Entries
    (keptHost hdr disk size) (keptEntry hdr disk size) c

end Remaining

theorem tableRef_zero (cs c : Nat) : tableRef cs 0 c = 0 := by simp [tableRef]

theorem entryRefs_zero (bits cs c : Nat) : entryRefs bits cs 0 c = 0 := by
  simp [entryRefs, tableRef, hostOf]

/-- What remains was there before. -/
theorem keptRefs_le (hdr : QcowHeader) (disk : ByteMap) (size c : Nat) :
    keptRefs hdr disk size c ≤ hdr.refs disk c := by
  refine Nat.add_le_add_left (Finset.sum_le_sum fun p _ => ?_) _
  unfold chainNames keptHost keptEntry
  split
  · split
    · exact le_refl _
    · rw [tableRef_zero]
      exact Nat.zero_le _
  · split
    · exact le_refl _
    · rw [entryRefs_zero]
      exact Nat.zero_le _

/-- No cluster holds both an L2 table and what an L2 entry names. -/
def TablesApart (hdr : QcowHeader) (disk : ByteMap) : Prop :=
  ∀ i < hdr.l1Size, hostOf (hdr.l1At disk i) ≠ 0 → ∀ i' < hdr.l1Size, ∀ j < hdr.l2Entries,
    entryRefs hdr.clusterBits hdr.clusterSize (hdr.l2At disk (hostOf (hdr.l1At disk i')) j)
      (hostOf (hdr.l1At disk i) / hdr.clusterSize) = 0

/-- What a shrink promises of the file `m`. -/
def Shrunk (codec : Codec) (hdr : QcowHeader) (hp : hdr.Parsed) (disk : ByteMap)
    (newSize sector : Nat) (m : ByteMap) : Prop :=
  ∃ (g : QcowHeader) (hgp : g.Parsed), parse ⟨sector, m⟩ = some g ∧
    g.virtualSize = newSize ∧ g.cryptMethod = hdr.cryptMethod ∧
    (∀ x < newSize, g.shown codec hgp m x = hdr.shown codec hp disk x) ∧
    ∀ c, g.refs m c ≤ g.refcount m c

/-- The patches of a shrink that write tables. -/
def tablePatches (hdr : QcowHeader) (disk : ByteMap) (size : Nat) (table l1 : ByteMap) :
    List (Nat × Buffer) :=
  (if Straddles hdr disk size then
    [(hostOf (hdr.l1At disk (straddleIdx hdr size)), ⟨hdr.clusterSize, table⟩)] else []) ++
  (if Drops hdr disk size then
    [(hdr.l1TableOffset, ⟨l1Clusters hdr.l1Size hdr.clusterSize * hdr.clusterSize, l1⟩)] else [])

/-- A sound image and the patches of a shrink to `size`. -/
structure Shrinking (hdr : QcowHeader) (disk : ByteMap) (fileSize : Nat) (others : Nat → Nat)
    (size : Nat) (table l1 : ByteMap) (blocks patches : List (Nat × Buffer)) : Prop
    extends Discards hdr disk size table l1 blocks patches where
  parsed : hdr.Parsed
  bounded : Bounded hdr
  width : LegalWidth hdr.refcountBits
  gates : validateIncompat hdr.incompatibleFeatures = .ok ()
  sound : hdr.Sound disk fileSize others
  covered : divCeil size (coverage hdr) ≤ qcow2MaxL1SizeEntries

variable {hdr : QcowHeader} {disk : ByteMap} {fileSize size : Nat} {others : Nat → Nat}
  {table l1 : ByteMap} {blocks patches : List (Nat × Buffer)} {w : Nat × Buffer} {b c i j k : Nat}
  {d d' : Device} {config : ResizeConfig} {fuel : Nat} {plan : ResizePlan}

namespace Shrinking

variable (hk : Shrinking hdr disk fileSize others size table l1 blocks patches)
include hk

theorem cs_pos : 0 < hdr.clusterSize := hk.parsed.size_pos

/-! ## Where the patches go -/

/-- The L1 goes to its own clusters. -/
theorem l1_patch (hdrop : Drops hdr disk size)
    (hb : Covers (hdr.l1TableOffset, ⟨l1Clusters hdr.l1Size hdr.clusterSize * hdr.clusterSize,
      l1⟩) b) :
    hdr.l1Refs (b / hdr.clusterSize) ≠ 0 := by
  obtain ⟨i, hi, -⟩ := hdrop
  have hpos : 0 < hdr.l1Size := (Nat.zero_le i).trans_lt (mem_discarded.mp hi).2
  have hcover := (covers_iff hk.cs_pos (aligned_eq hk.sound.l1) rfl).mp hb
  have hone : l1Clusters hdr.l1Size hdr.clusterSize = divCeil (hdr.l1Size * 8) hdr.clusterSize := by
    have hlt : 0 < divCeil (hdr.l1Size * 8) hdr.clusterSize := (lt_divCeil hk.cs_pos).mpr (by omega)
    unfold l1Clusters
    omega
  rw [hone] at hcover
  rw [l1Refs_eq hk.cs_pos hk.sound.l1, if_pos hcover]
  exact one_ne_zero

variable (hw : w ∈ (if Drops hdr disk size then [(hdr.l1TableOffset, (⟨l1Clusters hdr.l1Size
  hdr.clusterSize * hdr.clusterSize, l1⟩ :
  Buffer))] else []) ++ (place hdr disk blocks ++ [(0, shrinkHeader hdr size)])) {x sector : Nat}

include hw

/-- The patches after the straddled table stay in the image's own clusters. -/
theorem late_own (hb : Covers w b) : hdr.l1Refs (b / hdr.clusterSize) ≠ 0 ∨
      (∃ k, hdr.blockAt disk k ≠ 0 ∧ hdr.blockAt disk k / hdr.clusterSize = b / hdr.clusterSize) ∨
      b / hdr.clusterSize = 0 := by
  simp only [mem_append, mem_ite_nil_right, mem_singleton] at hw
  rcases hw with ⟨hdrop, rfl⟩ | hw | rfl
  · exact .inl (hk.l1_patch hdrop hb)
  · obtain ⟨s, -, -, hne, heq⟩ := place_block hk.cs_pos hk.sound
      (fun s hs => (hk.cleared.holds s hs).1) hk.placed hw hb
    exact .inr (.inl ⟨s.1, hne, heq⟩)
  · refine .inr (.inr (Nat.div_eq_of_lt ?_))
    have hlt : b < 0 + hdr.clusterSize := hb.2
    omega

/-- What is reached through the L1 is in none of them. -/
theorem late_chain (hb : hdr.chain disk (b / hdr.clusterSize) ≠ 0) : ¬ Covers w b := by
  intro hcov
  rcases hk.late_own hw hcov with h | ⟨k, hne, heq⟩ | h
  · have hown : hdr.own disk (b / hdr.clusterSize) ≠ 0 := by
      unfold own
      omega
    exact hb (hk.sound.alone_own hown).2.1
  · rw [← heq] at hb
    exact hb (hk.sound.block_alone hne).2.2.2.1
  · rw [h] at hb
    exact hb hk.sound.zero_alone.2.2.2

omit hw

section

variable (hc : Straddles hdr disk size)
  (hb : Covers (hostOf (hdr.l1At disk (straddleIdx hdr size)), ⟨hdr.clusterSize, table⟩) b)

include hc hb

/-- The straddled table goes to the cluster of its L1 entry. -/
theorem straddle_cluster :
    b / hdr.clusterSize = hostOf (hdr.l1At disk (straddleIdx hdr size)) / hdr.clusterSize :=
  div_of_mem hk.cs_pos (hk.sound.l2 _ (hk.inside hc)) hb

/-- It is in none of the image's own clusters but the header's. -/
theorem straddle_own (hne : b / hdr.clusterSize ≠ 0) : hdr.own disk (b / hdr.clusterSize) = 0 := by
  have hcluster := hk.straddle_cluster hc hb
  by_contra hown
  have hchain := (hk.sound.alone_own hown).2.1
  rw [hcluster] at hchain hne
  refine chain_table_ne (hk.inside hc) (fun hzero => hne ?_) hchain
  rw [hzero, Nat.zero_div]

end

/-! ## The bytes of the result -/

theorem header_bytes (hb : b < hdr.clusterSize) :
    applyAll patches disk b = (shrinkHeader hdr size).bytes b := by
  have hcov : Covers (0, shrinkHeader hdr size) b := ⟨Nat.zero_le _, by
    show b < 0 + hdr.clusterSize
    omega⟩
  rw [hk.patches_eq, ← append_assoc, ← append_assoc]
  exact applyAll_last hcov (by simp)

theorem parse_after (hsector : 105 ≤ sector) :
    parse ⟨sector, applyAll patches disk⟩ = some (sizedHeader hdr size) :=
  rewritten_parse hk.parsed hk.width hsector hk.covered hk.parsed.l1_le hk.parsed.l1Offset_lt
    hk.bounded.tableOffset_lt hk.bounded.tableClusters_lt fun _ hi => hk.header_bytes hi

/-- The refcount table is left alone. -/
theorem table_kept (hb : hdr.tableRefs (b / hdr.clusterSize) ≠ 0) :
    applyAll patches disk b = disk b := by
  have hown : hdr.own disk (b / hdr.clusterSize) ≠ 0 := by
    unfold own
    omega
  have hone := (hk.sound.alone_own hown).1
  have hzero : b / hdr.clusterSize ≠ 0 := fun h => hb (h ▸ hk.sound.zero_alone.2.1)
  refine applyAll_outside fun w hw hcov => ?_
  rw [hk.patches_eq] at hw
  rcases mem_append.mp hw with hw | hw
  · rw [mem_ite_nil_right, mem_singleton] at hw
    obtain ⟨hc, rfl⟩ := hw
    exact hown (hk.straddle_own hc hcov hzero)
  · rcases hk.late_own hw hcov with h | ⟨k, hne, heq⟩ | h
    · unfold own at hone
      omega
    · rw [← heq] at hb
      exact hb (hk.sound.block_alone hne).2.2.1
    · exact hzero h

/-- What is reached through the L1 is left alone, the straddled table apart. -/
theorem data_kept (hb : hdr.chain disk (b / hdr.clusterSize) ≠ 0) (hcut : Straddles hdr disk size →
      b / hdr.clusterSize ≠ hostOf (hdr.l1At disk (straddleIdx hdr size)) / hdr.clusterSize) :
    applyAll patches disk b = disk b := by
  refine applyAll_outside fun w hw hcov => ?_
  rw [hk.patches_eq] at hw
  rcases mem_append.mp hw with hw | hw
  · rw [mem_ite_nil_right, mem_singleton] at hw
    obtain ⟨hc, rfl⟩ := hw
    exact hcut hc (hk.straddle_cluster hc hcov)
  · exact hk.late_chain hw hb hcov

theorem straddle_bytes (hc : Straddles hdr disk size)
    (hhost : hostOf (hdr.l1At disk (straddleIdx hdr size)) ≠ 0) (hb : b < hdr.clusterSize) :
    applyAll patches disk (hostOf (hdr.l1At disk (straddleIdx hdr size)) + b) =
      if Above hdr size (b / hdr.l2Size) then 0
      else disk (hostOf (hdr.l1At disk (straddleIdx hdr size)) + b) := by
  have hcov : Covers (hostOf (hdr.l1At disk (straddleIdx hdr size)), ⟨hdr.clusterSize, table⟩)
      (hostOf (hdr.l1At disk (straddleIdx hdr size)) + b) :=
    ⟨Nat.le_add_right _ _, by
      show hostOf (hdr.l1At disk (straddleIdx hdr size)) + b <
        hostOf (hdr.l1At disk (straddleIdx hdr size)) + hdr.clusterSize
      omega⟩
  have hchain : hdr.chain disk
      ((hostOf (hdr.l1At disk (straddleIdx hdr size)) + b) / hdr.clusterSize) ≠ 0 := by
    rw [div_of_aligned hk.cs_pos (hk.sound.l2 _ (hk.inside hc)) hb]
    exact chain_table_ne (hk.inside hc) hhost
  rw [hk.patches_eq, if_pos hc, singleton_append, ← hk.table_bytes hc b hb]
  exact (applyAll_first hcov fun v hv =>
    hk.late_chain hv hchain).trans (by rw [Nat.add_sub_cancel_left])

/-- The L1 without the dropped entries. -/
theorem l1_after (hi : i < hdr.l1Size) : (sizedHeader hdr size).l1At (applyAll patches disk) i =
      if i < firstDiscarded hdr size then hdr.l1At disk i else 0 := by
  have hin : ∀ n < 8, hdr.l1Refs ((hdr.l1TableOffset + (i * 8 + n)) / hdr.clusterSize) ≠ 0 :=
      fun n hn =>
    l1_cluster hk.cs_pos hk.sound.l1 (by omega)
  -- no other patch reaches the L1
  have hblock : ∀ n < 8, ∀ v ∈ place hdr disk blocks ++ [(0, shrinkHeader hdr size)],
      ¬ Covers v (hdr.l1TableOffset + (i * 8 + n)) := by
    intro n hn v hv hcov
    have hl1 := hin n hn
    rcases mem_append.mp hv with hv | hv
    · obtain ⟨s, -, -, hne, heq⟩ := place_block hk.cs_pos hk.sound
        (fun s hs => (hk.cleared.holds s hs).1) hk.placed hv hcov
      rw [← heq] at hl1
      exact hl1 (hk.sound.block_alone hne).2.1
    · rw [mem_singleton.mp hv] at hcov
      have hlt : hdr.l1TableOffset + (i * 8 + n) < 0 + hdr.clusterSize := hcov.2
      rw [Nat.div_eq_of_lt (by omega)] at hl1
      exact hl1 hk.sound.zero_alone.1
  have hmem : i ∈ discarded hdr size ↔ ¬ i < firstDiscarded hdr size := by
    rw [mem_discarded]
    omega
  by_cases hdrop : Drops hdr disk size
  · have hword : (sizedHeader hdr size).l1At (applyAll patches disk) i = l1.be (i * 8) 8 := by
      refine be_congr fun n hn => ?_
      have hlen : hdr.l1Size * 8 ≤ l1Clusters hdr.l1Size hdr.clusterSize * hdr.clusterSize :=
        (le_divCeil_mul hk.cs_pos).trans (Nat.mul_le_mul_right _ (le_max_left _ _))
      have hcov : Covers (hdr.l1TableOffset,
          ⟨l1Clusters hdr.l1Size hdr.clusterSize * hdr.clusterSize, l1⟩)
          (hdr.l1TableOffset + (i * 8 + n)) := ⟨Nat.le_add_right _ _, by
        show hdr.l1TableOffset + (i * 8 + n) <
          hdr.l1TableOffset + l1Clusters hdr.l1Size hdr.clusterSize * hdr.clusterSize
        omega⟩
      rw [add_assoc, hk.patches_eq, if_pos hdrop, singleton_append]
      exact (applyAll_last hcov (hblock n hn)).trans (by rw [Nat.add_sub_cancel_left])
    rw [hword, hk.l1_words i hi, ite_congr (propext hmem) (fun _ => rfl) fun _ => rfl, ite_not]
  · have hword : (sizedHeader hdr size).l1At (applyAll patches disk) i = hdr.l1At disk i := by
      refine be_congr fun n hn => applyAll_outside fun v hv hcov => ?_
      rw [add_assoc] at hcov
      have hl1 := hin n hn
      rw [hk.patches_eq, if_neg hdrop, nil_append] at hv
      rcases mem_append.mp hv with hv | hv
      · rw [mem_ite_nil_right, mem_singleton] at hv
        obtain ⟨hc, rfl⟩ := hv
        have hown : hdr.own disk ((hdr.l1TableOffset + (i * 8 + n)) / hdr.clusterSize) = 0 :=
          hk.straddle_own hc hcov fun h => hl1 (h ▸ hk.sound.zero_alone.1)
        unfold own at hown
        omega
      · exact hblock n hn v hv hcov
    rw [hword]
    split
    · rfl
    next hge =>
      by_contra hne
      exact hdrop ⟨i, hmem.mpr hge, hne⟩

/-! ## References and counts -/

theorem view : QcowHeader.SameView hdr (sizedHeader hdr size) :=
  sizedHeader_view hk.parsed hk.bounded hk.gates

theorem blockAt_after (k : Nat) :
    (sizedHeader hdr size).blockAt (applyAll patches disk) k = hdr.blockAt disk k := by
  have hentries : (sizedHeader hdr size).tableEntries = hdr.tableEntries := by
    unfold tableEntries
    rw [hk.view.size]
    rfl
  unfold blockAt
  rw [hentries]
  split
  next hlt =>
    unfold tableEntries at hlt
    refine be_congr fun n hn => hk.table_kept ?_
    show hdr.tableRefs ((hdr.refcountTableOffset + k * 8 + n) / hdr.clusterSize) ≠ 0
    rw [add_assoc]
    exact table_cluster hk.cs_pos hk.sound.table (by omega)
  · rfl

theorem own_after (c : Nat) :
    (sizedHeader hdr size).own (applyAll patches disk) c = hdr.own disk c := by
  have hblocks : (sizedHeader hdr size).blockRefs (applyAll patches disk) c =
      hdr.blockRefs disk c := by
    unfold blockRefs tableEntries
    rw [hk.view.size]
    exact total_congr fun k _ => by
      rw [blockName, blockName, hk.blockAt_after, hk.view.size]
  unfold own QcowHeader.l1Refs tableRefs
  rw [hblocks, hk.view.size]
  rfl

/-- A word in the table of a remaining L1 entry. -/
theorem word_after (hi : i < hdr.l1Size) (hj : j < hdr.l2Entries)
    (hhost : hostOf (hdr.l1At disk i) ≠ 0) {o : Nat} (ho : o + 8 ≤ hdr.l2Size) :
    (applyAll patches disk).be (hostOf (hdr.l1At disk i) + (j * hdr.l2Size + o)) 8 =
      if CutAway hdr disk size i j then 0
      else disk.be (hostOf (hdr.l1At disk i) + (j * hdr.l2Size + o)) 8 := by
  have hend := l2_entry_end hj
  have hentry : ∀ n < 8, (j * hdr.l2Size + o + n) / hdr.l2Size = j := fun n hn => by
    rw [add_assoc, mul_comm, Nat.mul_add_div (l2Size_pos hdr), Nat.div_eq_of_lt (by omega),
      add_zero]
  by_cases hshared : Straddles hdr disk size ∧
      hostOf (hdr.l1At disk i) = hostOf (hdr.l1At disk (straddleIdx hdr size))
  · obtain ⟨hc, heq⟩ := hshared
    have hbyte : ∀ n < 8, applyAll patches disk (hostOf (hdr.l1At disk i) +
        (j * hdr.l2Size + o) + n) =
        if Above hdr size j then 0
        else disk (hostOf (hdr.l1At disk i) + (j * hdr.l2Size + o) + n) := by
      intro n hn
      rw [add_assoc, heq, hk.straddle_bytes hc (heq ▸ hhost) (by omega), hentry n hn]
    split
    next hcut =>
      refine (be_congr fun n hn => ?_).trans (be_zeros 0 8)
      rw [hbyte n hn, if_pos hcut.2.2]
    next hcut =>
      refine be_congr fun n hn => ?_
      rw [hbyte n hn, if_neg fun habove => hcut ⟨hc.1, heq, habove⟩]
  · rw [if_neg fun hcut => hshared ⟨⟨hcut.1, fun hzero => ?_⟩, hcut.2.1⟩]
    · refine be_congr fun n hn => hk.data_kept ?_ fun hc h => ?_
      · rw [add_assoc, div_of_aligned hk.cs_pos (hk.sound.l2 i hi) (by omega)]
        exact chain_table_ne hi hhost
      · rw [add_assoc, div_of_aligned hk.cs_pos (hk.sound.l2 i hi) (by omega)] at h
        refine hshared ⟨hc, ?_⟩
        rw [aligned_eq (hk.sound.l2 i hi), aligned_eq (hk.sound.l2 _ (hk.inside hc)), h]
    · rw [hcut.2.1, hzero] at hhost
      exact hhost rfl

theorem refs_after (c : Nat) :
    (sizedHeader hdr size).refs (applyAll patches disk) c = keptRefs hdr disk size c := by
  unfold refs keptRefs chain
  rw [hk.own_after, hk.view.bits, hk.view.size, hk.view.l2Entries_eq]
  congr 1
  have hhost : ∀ i < hdr.l1Size,
      hostOf ((sizedHeader hdr size).l1At (applyAll patches disk) i) =
      keptHost hdr disk size i := by
    intro i hi
    rw [hk.l1_after hi, keptHost]
    split <;> rfl
  refine chainRefs_congr hhost (fun i hi j hj => ?_) c
  rw [hhost i hi, keptEntry]
  unfold keptHost l2At
  by_cases hlt : i < firstDiscarded hdr size
  · rw [if_pos hlt, hk.view.l2Size_eq]
    by_cases hzero : hostOf (hdr.l1At disk i) = 0
    · simp [hzero]
    · have h8 : 0 + 8 ≤ hdr.l2Size := by
        unfold l2Size
        split <;> omega
      have hword := hk.word_after hi hj hzero h8
      rw [add_zero] at hword
      rw [if_neg hzero, if_neg hzero, hword]
      by_cases hcut : CutAway hdr disk size i j
      · rw [if_pos hcut, if_neg fun h => h.2 hcut]
      · rw [if_neg hcut, if_pos ⟨hlt, hcut⟩]
  · rw [if_neg hlt, if_pos rfl, if_neg fun h => hlt h.1]

/-- The counts of block `k`. -/
theorem counts_after (hblock : hdr.blockAt disk k ≠ 0) (hj : j < hdr.perBlock) :
    refcountIn hdr.refcountBits (hdr.blockBytes (applyAll patches disk) (hdr.blockAt disk k)) j =
      marked hdr.clusterSize hdr.refcountBits 0 (countAt hdr disk) (freed hdr disk size) k j := by
  have hcluster : ∀ n < hdr.clusterSize,
      (hdr.blockAt disk k + n) / hdr.clusterSize = hdr.blockAt disk k / hdr.clusterSize :=
      fun n hn =>
    div_of_aligned hk.cs_pos (hk.sound.block k) hn
  obtain ⟨hnz, hl1, -, -, -⟩ := hk.sound.block_alone hblock
  -- the two tables written before the blocks are elsewhere, and so is the header written after them
  have hbefore : ∀ n < hdr.clusterSize, ∀ v ∈ tablePatches hdr disk size table l1,
      ¬ Covers v (hdr.blockAt disk k + n) := by
    intro n hn v hv hcov
    rcases mem_append.mp hv with hv | hv
    · rw [mem_ite_nil_right, mem_singleton] at hv
      obtain ⟨hc, rfl⟩ := hv
      have hown := hk.straddle_own hc hcov
      rw [hcluster n hn] at hown
      exact own_of_block hblock (hown hnz)
    · rw [mem_ite_nil_right, mem_singleton] at hv
      obtain ⟨hdrop, rfl⟩ := hv
      have hne := hk.l1_patch hdrop hcov
      rw [hcluster n hn] at hne
      exact hne hl1
  have hafter : ∀ n < hdr.clusterSize, ∀ v ∈ [(0, shrinkHeader hdr size)],
      ¬ Covers v (hdr.blockAt disk k + n) := by
    intro n hn v hv hcov
    rw [mem_singleton.mp hv] at hcov
    have hlt : hdr.blockAt disk k + n < 0 + hdr.clusterSize := hcov.2
    refine hnz ?_
    rw [← hcluster n hn]
    exact Nat.div_eq_of_lt (by omega)
  have hstart : HasCounts hdr disk (applyAll (tablePatches hdr disk size table l1) disk) k
      (countAt hdr disk) := fun j _ =>
    refcountIn_congr rfl fun n hn => applyAll_outside (hbefore n hn)
  have hlast : applyAll patches disk = applyAll [(0, shrinkHeader hdr size)]
      (applyAll (place hdr disk blocks) (applyAll (tablePatches hdr disk size table l1) disk)) := by
    rw [← applyAll_append, ← applyAll_append, hk.patches_eq]
    simp only [tablePatches, append_assoc]
  rcases place_counts hk.cs_pos hk.sound hk.cleared hk.placed (prefix_refl _) hblock hstart with
    ⟨-, hne⟩ | hall
  · exact absurd rfl hne
  · rw [← hall j hj, hlast]
    exact refcountIn_congr rfl fun n hn => applyAll_outside (hafter n hn)

theorem refcount_after (c : Nat) : (sizedHeader hdr size).refcount (applyAll patches disk) c =
      if c ∈ freed hdr disk size then 0 else hdr.refcount disk c := by
  have hper : (sizedHeader hdr size).perBlock = hdr.perBlock := by
    unfold perBlock
    rw [hk.view.size]
    rfl
  have hpos : 0 < hdr.perBlock := (by decide : 0 < 64).trans_le (perBlock_ge hk.parsed hk.width)
  unfold refcount
  rw [hper, hk.blockAt_after]
  by_cases hblock : hdr.blockAt disk (c / hdr.perBlock) = 0
  · rw [if_pos hblock, if_pos hblock, ite_self]
  · rw [if_neg hblock, if_neg hblock]
    have hj := Nat.mod_lt c hpos
    have hcoord : c / hdr.perBlock * hdr.perBlock + c % hdr.perBlock = c :=
      Nat.div_add_mod' c hdr.perBlock
    have hcounts := hk.counts_after hblock hj
    rw [marked, show entriesPerBlock hdr.clusterSize hdr.refcountBits = hdr.perBlock
      from rfl, hcoord] at hcounts
    refine Eq.trans ?_ hcounts
    exact refcountIn_congr hk.view.size fun _ _ => rfl

/-! ## Content -/

theorem index_lt (hx : x < size) : hdr.l1Index x < firstDiscarded hdr size :=
  (lt_divCeil (coverage_pos hk.parsed)).mpr ((Nat.div_mul_le_self x (coverage hdr)).trans_lt hx)

/-- The entry a reader finds below the new size. -/
theorem entryAt_after (hgp : (sizedHeader hdr size).Parsed) (hx : x < size) :
    ((sizedHeader hdr size).reader hgp).entryAt (applyAll patches disk) x =
      ((hdr.reader hk.parsed).entryAt disk x).map fun e =>
        if CutAway hdr disk size (hdr.l1Index x) (hdr.l2Index x) then (0, 0) else e := by
  rw [reader_entryAt, reader_entryAt, hk.view.l1Index_eq, hk.view.l2Index_eq, hk.view.l2Size_eq,
    hk.view.ext]
  show (if hdr.l1Size ≤ hdr.l1Index x then none else _) = _
  by_cases hi : hdr.l1Size ≤ hdr.l1Index x
  · rw [if_pos hi, if_pos hi]
    rfl
  · have hlt := Nat.lt_of_not_le hi
    rw [if_neg hi, if_neg hi, hk.l1_after hlt, if_pos (hk.index_lt hx)]
    by_cases hzero : hostOf (hdr.l1At disk (hdr.l1Index x)) = 0
    · rw [if_pos hzero, if_pos hzero]
      rfl
    · have hj := l2Index_lt hk.parsed x
      have hword := hk.word_after (o := 0) hlt hj hzero (by unfold l2Size; split <;> omega)
      have hbitmap : hdr.extendedL2 = true → _ := fun hext =>
        hk.word_after (o := 8) hlt hj hzero (by rw [l2Size, if_pos hext])
      rw [add_zero] at hword
      rw [if_neg hzero, if_neg hzero, hword, map_some]
      simp only [add_assoc]
      by_cases hext : hdr.extendedL2 = true
      · rw [if_pos hext, if_pos hext, hbitmap hext]
        split <;> rfl
      · rw [if_neg hext, if_neg hext]
        split <;> rfl

omit hk in
theorem subclusterType_empty {sc : Nat} {ext : Bool} (h : sc < subclustersPerCluster ext) :
    subclusterType 0 0 sc ext false = .unallocatedPlain := by
  unfold subclusterType
  rw [if_neg (not_le.mpr h)]
  cases ext with
  | false => rfl
  | true => simp [clusterType, hostOf, zeroBits, allocBits]

/-- An entry that was cut away shows zeroes. -/
theorem shown_cut (codec : Codec) (hgp : (sizedHeader hdr size).Parsed) (hx : x < size)
    (hcut : CutAway hdr disk size (hdr.l1Index x) (hdr.l2Index x)) :
    (sizedHeader hdr size).shown codec hgp (applyAll patches disk) x = some 0 := by
  have hfile : ((sizedHeader hdr size).reader hgp).hasDataFile = false := by
    simp [Qcow2State.hasDataFile, reader, hk.view.features, hk.view.external]
  refine layered_absent ?_
  unfold Qcow2State.held
  rw [show Qcow2State.entryAt _ ((inputOf (applyAll patches disk)).device 0).bytes x = _ from
    hk.entryAt_after hgp hx]
  cases (hdr.reader hk.parsed).entryAt disk x with
  | none => rfl
  | some e =>
    rw [map_some, if_pos hcut]
    have hsub := ((sizedHeader hdr size).reader hgp).subcluster_lt
      (Nat.mod_lt x ((sizedHeader hdr size).reader hgp).clusterSize_pos)
    unfold Qcow2State.heldBy
    rw [hfile]
    simp only [dataFileEntryViolation, if_true]
    rw [subclusterType_empty hsub]
    rfl

/-- Every other byte below the new size is shown as before. -/
theorem shown_kept (hapart : TablesApart hdr disk) (codec : Codec)
    (hgp : (sizedHeader hdr size).Parsed)
    (hx : x < size) (hcut : ¬ CutAway hdr disk size (hdr.l1Index x) (hdr.l2Index x)) :
    (sizedHeader hdr size).shown codec hgp (applyAll patches disk) x =
    hdr.shown codec hk.parsed disk x := by
  refine shown_congr ?_
  rw [hk.entryAt_after hgp hx]
  cases hentry : (hdr.reader hk.parsed).entryAt disk x with
  | none => rfl
  | some e =>
    rw [map_some, if_neg hcut]
    obtain ⟨hi, he⟩ := entryAt_some hentry
    have hj := l2Index_lt hk.parsed x
    refine hk.view.heldBy_eq hk.parsed hgp codec x (he ▸ hk.sound.entry _ hi _ hj) fun b hb => ?_
    rw [he] at hb
    refine hk.data_kept (chain_entry_ne hi hj hb) fun hc heq => hb ?_
    rw [heq]
    -- the straddled table holds no data, and without a host it is the header's cluster
    by_cases hhost : hostOf (hdr.l1At disk (straddleIdx hdr size)) = 0
    · rw [heq, hhost, Nat.zero_div] at hb
      exact absurd hk.sound.zero_alone.2.2.2 (chain_entry_ne hi hj hb)
    · exact hapart _ (hk.inside hc) hhost _ hi _ hj

/-- The promise of a shrink to whole clusters. -/
theorem shrunk_iff (hapart : TablesApart hdr disk) (codec : Codec) (hsector : 105 ≤ sector) :
    Shrunk codec hdr hk.parsed disk size sector (applyAll patches disk) ↔
      hdr.cryptMethod = 0 ∧ (∀ c ∈ freed hdr disk size, keptRefs hdr disk size c = 0) ∧
      ∀ x < size, CutAway hdr disk size (hdr.l1Index x) (hdr.l2Index x) →
        hdr.shown codec hk.parsed disk x = some 0 := by
  have hgp := parse_parsed (hk.parse_after hsector)
  constructor
  · rintro ⟨g, hgp', hg, -, hcrypt, hshown, hcount⟩
    obtain rfl := some.inj ((hk.parse_after hsector).symm.trans hg)
    refine ⟨hcrypt.symm, fun c hc => ?_, fun x hx hcut => ?_⟩
    · have hle := hcount c
      rw [hk.refs_after, hk.refcount_after, if_pos hc] at hle
      exact Nat.le_zero.mp hle
    · rw [← hshown x hx]
      exact hk.shown_cut codec hgp' hx hcut
  · rintro ⟨hcrypt, hfree, hzero⟩
    refine ⟨_, hgp, hk.parse_after hsector, rfl, hcrypt.symm, fun x hx => ?_, fun c => ?_⟩
    · by_cases hcut : CutAway hdr disk size (hdr.l1Index x) (hdr.l2Index x)
      · rw [hzero x hx hcut]
        exact hk.shown_cut codec hgp hx hcut
      · exact hk.shown_kept hapart codec hgp hx hcut
    · rw [hk.refs_after, hk.refcount_after]
      split
      next hc =>
        rw [hfree c hc]
      · rw [hk.sound.counted c]
        exact (keptRefs_le hdr disk size c).trans (Nat.le_add_right _ _)

end Shrinking

theorem planGrow_shrink {opts : Qcow2ResizeOpts} (h : planGrow opts fuel = .ok plan)
    (hlt : opts.newVirtualSize < opts.currentVirtualSize) : planShrink opts = .ok plan := by
  obtain ⟨-, h⟩ := ok_of_check h
  obtain ⟨_, -, h⟩ := ok_of_bind h
  obtain ⟨_, -, h⟩ := ok_of_bind h
  rw [if_pos hlt] at h
  split at h
  · exact h
  · cases h

theorem planFor_shrink (hsec : 0 < d.sectorSize) (hparse : parse ⟨d.sectorSize, d.bytes⟩ = some hdr)
    (hs : hdr.Sound d.bytes config.currentFileSize others)
    (hcur : config.currentVirtualSize = hdr.virtualSize)
    (hshrink : config.newVirtualSize < hdr.virtualSize) (h : planFor d config hdr fuel = .ok plan) :
    ∃ table l1 blocks, Shrinking hdr d.bytes config.currentFileSize others
      (config.newVirtualSize / hdr.clusterSize * hdr.clusterSize) table l1 blocks plan.patches := by
  have hp := parse_parsed hparse
  have hcovered : divCeil hdr.virtualSize (coverage hdr) ≤ qcow2MaxL1SizeEntries :=
    parse_covered hparse
  obtain ⟨l1, tbl, blocks, l2, hf, hplan, hl2⟩ := planFor_ok hsec h
  obtain ⟨off, hstage⟩ := hl2 (by omega)
  have hgates := (planGrow_rewrites hf hp hplan).1
  have ht : TablesFrom hdr d.bytes l2 := stageL2s_ok hsec (fun i hi => hf.l1Word hi) hstage
  have hsmall : ∀ n ≤ hdr.virtualSize, divCeil n (coverage hdr) ≤ qcow2MaxL1SizeEntries :=
      fun n hn =>
    (Nat.div_le_div_right (by omega)).trans hcovered
  have hrun := planGrow_shrink hplan (show config.newVirtualSize <
    config.currentVirtualSize by omega)
  obtain ⟨table, l1', blocks', hdiscards⟩ := planShrink_ok hf hp ht (hsmall _ hshrink.le) hrun
  refine ⟨table, l1', blocks', hdiscards, hp, parse_bounded hparse,
    (QcowHeader.parse_eq_some.mp hparse).2 ▸ legalWidth_fieldsOf _, hgates, hs,
    hsmall _ ((Nat.div_mul_le_self _ _).trans hshrink.le)⟩

/-- A shrink of a sound image gives the requested size, keeps the bytes below it and leaves no count
short, exactly if the size is a whole number of clusters, the image is not encrypted, no freed
cluster is still referred to, and what another L1 entry loses with the straddled table showed
zeroes. -/
theorem runQcow2_shrink_iff (codec : Codec) {result : ResizeResult} (hsec : 0 < d.sectorSize)
    (hparse : parse ⟨d.sectorSize, d.bytes⟩ = some hdr)
    (hs : hdr.Sound d.bytes config.currentFileSize others) (hapart : TablesApart hdr d.bytes)
    (hcur : config.currentVirtualSize = hdr.virtualSize)
    (hshrink : config.newVirtualSize < hdr.virtualSize)
    (hrun : runQcow2 d config fuel = (some result, d')) (hok : result.error = none) :
    Shrunk codec hdr (parse_parsed hparse) d.bytes config.newVirtualSize d'.sectorSize d'.bytes ↔
      hdr.clusterSize ∣ config.newVirtualSize ∧ hdr.cryptMethod = 0 ∧
      (∀ c ∈ freed hdr d.bytes config.newVirtualSize, keptRefs hdr d.bytes config.newVirtualSize c =
        0) ∧
      ∀ x < config.newVirtualSize, CutAway hdr d.bytes config.newVirtualSize (hdr.l1Index x)
        (hdr.l2Index x) → hdr.shown codec (parse_parsed hparse) d.bytes x = some 0 := by
  have hsector : 105 ≤ d.sectorSize := parse_len hparse
  obtain ⟨hdr', plan, hparse', hplan, hsize', hbytes', -⟩ := runQcow2_ok hsec hrun hok
  obtain rfl : hdr = hdr' := some.inj (hparse.symm.trans hparse')
  obtain ⟨table, l1, blocks, hk⟩ := planFor_shrink hsec hparse hs hcur hshrink hplan
  rw [hsize', hbytes']
  by_cases hdvd : hdr.clusterSize ∣ config.newVirtualSize
  · rw [Nat.div_mul_cancel hdvd] at hk
    rw [and_iff_right hdvd]
    exact hk.shrunk_iff hapart codec hsector
  · refine iff_of_false ?_ fun h => hdvd h.1
    rintro ⟨g, -, hg, hsize, -⟩
    obtain rfl := some.inj ((hk.parse_after hsector).symm.trans hg)
    have heq : config.newVirtualSize / hdr.clusterSize * hdr.clusterSize = config.newVirtualSize :=
      hsize
    exact hdvd (heq ▸ hk.dvd)

/-! ## Two small images -/

/-- A request to shrink. -/
def shrinkTo (currentVirtualSize currentFileSize newVirtualSize : Nat) : ResizeConfig :=
  { currentVirtualSize, newVirtualSize, currentFileSize, preallocation := .off,
    allowShrink := true }

/-- An image of two clusters with 512-byte clusters: refcount table in cluster 1, its block in 2,
the L1 in 3, the L2 table in 4, the data in 5 and 6. -/
def pairImage (i : Nat) : UInt8 :=
  match i with
  | 0 => 0x51 | 1 => 0x46 | 2 => 0x49 | 3 => 0xfb | 7 => 3 | 23 => 9 | 30 => 4 | 39 => 1 | 46 => 6
  | 54 => 2 | 59 => 1 | 99 => 4 | 103 => 104 | 518 => 4
  | 1025 => 1 | 1027 => 1 | 1029 => 1 | 1031 => 1 | 1033 => 1 | 1035 => 1 | 1037 => 1
  | 1536 => 0x80 | 1542 => 8 | 2048 => 0x80 | 2054 => 0x0a | 2056 => 0x80 | 2062 => 0x0c
  | _ => 0

/-- The same image with the second cluster marked as zeroes instead. -/
def zeroedImage (i : Nat) : UInt8 :=
  match i with
  | 1037 => 0 | 2056 => 0 | 2062 => 0 | 2063 => 1
  | _ => pairImage i

/-- The header of both. -/
def pairHdr : QcowHeader := { smallHdr with virtualSize := 1024 }

theorem pairImages : (parse ⟨512, pairImage⟩ = some pairHdr ∧
    parse ⟨512, zeroedImage⟩ = some pairHdr) ∧
    (TablesApart pairHdr pairImage ∧ TablesApart pairHdr zeroedImage) ∧
    pairHdr.Audit pairImage 3584 7 ∧ pairHdr.Audit zeroedImage 3072 6 := by
  unfold TablesApart
  refine ⟨by decide +kernel, by decide +kernel, ?_, ?_⟩ <;> constructor <;> decide +kernel

theorem pairImage_parse : parse ⟨512, pairImage⟩ = some pairHdr := pairImages.1.1

theorem zeroedImage_parse : parse ⟨512, zeroedImage⟩ = some pairHdr := pairImages.1.2

/-- Dropping the second data cluster works. -/
theorem runQcow2_shrink_pair :
    ∃ result d', runQcow2 (deviceOf pairImage) (shrinkTo 1024 3584 512) 4 = (some result, d') ∧
      result.error = none ∧
      Shrunk noCodec pairHdr (parse_parsed pairImage_parse) pairImage 512 d'.sectorSize
      d'.bytes := by
  obtain ⟨result, hrun, hok⟩ :=
    run_of_eval (deviceOf pairImage) (shrinkTo 1024 3584 512) 4 (by decide +kernel)
  have hs : pairHdr.Sound (deviceOf pairImage).bytes (shrinkTo 1024 3584 512).currentFileSize
      fun _ => 0 := pairImages.2.2.1.sound
  refine ⟨result, _, hrun, hok, ?_⟩
  refine (runQcow2_shrink_iff noCodec (d := deviceOf pairImage) (by decide) pairImage_parse hs
    pairImages.2.1.1 rfl (by decide) hrun hok).mpr ⟨by decide, rfl, by decide +kernel, ?_⟩
  intro x hx hcut
  have hx' : x < 512 := hx
  have habove : 512 ≤ 0 * 32768 + x / 512 % 64 * 512 := hcut.2.2
  omega

/-- Dropping a cluster of zeroes without a host clears the count of the header's cluster. -/
theorem runQcow2_shrink_zeroed :
    ∃ result d', runQcow2 (deviceOf zeroedImage) (shrinkTo 1024 3072 512) 4 = (some result, d') ∧
      result.error = none ∧ pairHdr.Sound zeroedImage 3072 (fun _ => 0) ∧
      TablesApart pairHdr zeroedImage ∧
      ¬ Shrunk noCodec pairHdr (parse_parsed zeroedImage_parse) zeroedImage 512 d'.sectorSize
      d'.bytes := by
  obtain ⟨result, hrun, hok⟩ :=
    run_of_eval (deviceOf zeroedImage) (shrinkTo 1024 3072 512) 4 (by decide +kernel)
  refine ⟨result, _, hrun, hok, pairImages.2.2.2.sound, pairImages.2.1.2, ?_⟩
  rintro ⟨g, -, hg, -, -, -, hcount⟩
  have hparse : parse ⟨(runQcow2 (deviceOf zeroedImage) (shrinkTo 1024 3072 512) 4).2.sectorSize,
      (runQcow2 (deviceOf zeroedImage) (shrinkTo 1024 3072 512) 4).2.bytes⟩ =
        some (sizedHeader pairHdr 512) := by decide +kernel
  obtain rfl := some.inj (hparse.symm.trans hg)
  have hzero : (sizedHeader pairHdr 512).refcount
      (runQcow2 (deviceOf zeroedImage) (shrinkTo 1024 3072 512) 4).2.bytes 0 =
      0 := by decide +kernel
  have hle := hcount 0
  unfold refs own at hle
  simp only [if_true] at hle
  omega

end Instar.Resize
