import Instar.Resize.Header

/-!
# What a shrink discards

A shrink drops the L1 entries above the new size with everything their tables name, and the entries
above it in the table that the new size cuts through.  `freed` lists the clusters whose counts it
clears, as the walk computes them: one mask for every kind of entry, and no regard to other
references.  `Kept` is what is left of the tables.

`planShrink_ok` says what each patch of the plan holds.
-/

namespace Instar.Resize

open Instar.Qcow2 QcowHeader List

section Walk

variable (hdr : QcowHeader) (disk : ByteMap) (size : Nat)

/-- The virtual bytes of one L2 table. -/
def coverage : Nat := hdr.clusterSize * hdr.l2Entries

/-- The first L1 entry that lies above the new size as a whole. -/
def firstDiscarded : Nat := divCeil size (coverage hdr)

/-- The L1 entry that the new size cuts through, if it cuts through one. -/
def straddleIdx : Nat := size / coverage hdr

/-- Entry `j` of the table of L1 entry `i`, as the walk reads it: the table of an entry without a
host offset is read from the start of the file. -/
def walked (i j : Nat) : Nat := disk.be (hostOf (hdr.l1At disk i) + j * hdr.l2Size) 8

/-- The cluster that the walk frees for an entry. -/
def freedByEntry (i j : Nat) : List Nat :=
  if walked hdr disk i j = 0 then [] else [hostOf (walked hdr disk i j) / hdr.clusterSize]

/-- The clusters that the walk frees for an L1 entry. -/
def freedByTable (i : Nat) : List Nat :=
  if hdr.l1At disk i = 0 then []
  else (range hdr.l2Entries).flatMap (freedByEntry hdr disk i) ++
    [hostOf (hdr.l1At disk i) / hdr.clusterSize]

/-- Entry `j` of the straddled table lies above the new size. -/
def Above (j : Nat) : Prop := size ≤ straddleIdx hdr size * coverage hdr + j * hdr.clusterSize

instance (j : Nat) : Decidable (Above hdr size j) := inferInstanceAs (Decidable (_ ≤ _))

/-- The new size cuts through a table. -/
def Straddles : Prop := size % coverage hdr ≠ 0 ∧ hdr.l1At disk (straddleIdx hdr size) ≠ 0

instance : Decidable (Straddles hdr disk size) := inferInstanceAs (Decidable (_ ∧ _))

/-- The clusters that the walk frees for an entry of the straddled table. -/
def freedAbove (j : Nat) : List Nat :=
  if Above hdr size j then freedByEntry hdr disk (straddleIdx hdr size) j else []

/-- The clusters that the walk frees in the straddled table. -/
def freedInStraddle : List Nat :=
  if Straddles hdr disk size then (range hdr.l2Entries).flatMap (freedAbove hdr disk size) else []

/-- The L1 entries that are dropped as a whole. -/
def discarded : List Nat := range' (firstDiscarded hdr size) (hdr.l1Size - firstDiscarded hdr size)

/-- The clusters whose counts a shrink clears. -/
def freed : List Nat := (discarded hdr size).flatMap (freedByTable hdr disk) ++
    freedInStraddle hdr disk size

/-- Some dropped L1 entry is in use. -/
def Drops : Prop := ∃ i ∈ discarded hdr size, hdr.l1At disk i ≠ 0

instance : Decidable (Drops hdr disk size) := inferInstanceAs (Decidable (∃ i ∈ _, _))

end Walk

variable {hdr : QcowHeader} {disk : ByteMap} {size i off j : Nat} {opts : Qcow2ResizeOpts}
  {plan : ResizePlan} {d : Device} {config : ResizeConfig} {done : List Nat} {table : Buffer}

/-! ## The staged tables -/

/-- The L2 tables the planner was given are those of the image. -/
def TablesFrom (hdr : QcowHeader) (disk : ByteMap) (tables : List (Nat × Buffer)) : Prop :=
  ∀ s ∈ tables, s.2.len = hdr.clusterSize ∧
    ∀ b < hdr.clusterSize, s.2.bytes b = disk (hostOf (hdr.l1At disk s.1) + b)

theorem stageL2s_ok {l1 : Buffer} {tables : List (Nat × Buffer)} (hs : 0 < d.sectorSize)
    (hl1 : ∀ i < hdr.l1Size, wordAt l1 i = hdr.l1At d.bytes i)
    (h : stageL2s d config hdr l1 off = .ok tables) : TablesFrom hdr d.bytes tables := by
  unfold stageL2s at h
  split at h
  · refine foldlM_invariant (fun _ tables => TablesFrom hdr d.bytes tables)
      (fun _ li staged staged' hli hst hstep => ?_) (by simp [TablesFrom]) h
    unfold stageL2 at hstep
    dsimp only at hstep
    split at hstep
    · cases hstep
      exact hst
    split at hstep
    · cases hstep
      exact hst
    split at hstep
    · cases hstep
      exact hst
    split at hstep
    · cases hstep
    split at hstep
    · cases hstep
    obtain ⟨table, hread, hstep⟩ := ok_of_bind hstep
    cases hstep
    intro s hmem
    rcases mem_append.mp hmem with hmem | hmem
    · exact hst s hmem
    · rw [mem_singleton.mp hmem]
      rw [hl1 li (mem_range.mp hli)] at hread
      exact readStaged_ok hs hread
  · cases h
    simp [TablesFrom]

theorem lookupL2_ok (ht : TablesFrom hdr disk opts.existingL2)
    (h : lookupL2 opts i = .ok table) : table.len = hdr.clusterSize ∧
      ∀ b < hdr.clusterSize, table.bytes b = disk (hostOf (hdr.l1At disk i) + b) := by
  unfold lookupL2 at h
  split at h
  next t hlookup =>
    cases h
    exact ht _ (mem_of_lookup hlookup)
  · cases h

/-- What the walk reads in a staged table. -/
theorem walked_eq (hj : j < hdr.l2Entries)
    (htable : ∀ b < hdr.clusterSize, table.bytes b = disk (hostOf (hdr.l1At disk i) + b)) :
    table.be (j * hdr.l2Size) 8 = walked hdr disk i j := by
  have hend := l2_entry_end hj
  have h8 : 8 ≤ hdr.l2Size := by
    unfold l2Size
    split <;> omega
  exact ByteMap.be_congr fun b hb => (htable _ (by omega)).trans (by rw [Nat.add_assoc])

variable (hf : FromImage hdr disk opts)

include hf in
theorem l1Word_ok {w : Nat} (h : l1Word opts i = .ok w) : i < hdr.l1Size ∧ w = hdr.l1At disk i := by
  unfold l1Word at h
  split at h
  · cases h
  next hlen =>
    cases h
    rw [hf.l1_len] at hlen
    exact ⟨by omega, hf.l1Word (by omega)⟩

/-! ## The walk -/

/-- The counts a shrink has staged after freeing `done`. -/
abbrev Cleared (hdr : QcowHeader) (disk : ByteMap) (done : List Nat) (st : Slots) : Prop :=
  Staged hdr.clusterSize hdr.refcountBits 0 (countAt hdr disk) done st.blocks

variable (hp : hdr.Parsed) {is : List Nat}

include hf in
theorem decrementCluster_ok {st st' : Slots} {host : Nat} (hst : Cleared hdr disk done st)
    (h : decrementCluster opts st host = .ok st') :
    Cleared hdr disk (done ++ [host / hdr.clusterSize]) st' := by
  have hseed : ∀ k b, ensureBlockStaged opts k = .ok b →
      Holds opts.clusterSize opts.refcountBits b (countAt hdr disk k) := by
    rw [hf.clusterSize, hf.refcountBits]
    exact hf.block
  have hst' : Staged opts.clusterSize opts.refcountBits 0 (countAt hdr disk) done st.blocks := by
    rw [hf.clusterSize, hf.refcountBits]
    exact hst
  have hnext := stageEntry_staged (by decide) hseed hst' h
  rwa [hf.clusterSize, hf.refcountBits] at hnext

theorem flatMap_snoc {α β : Type} (f : α → List β) (xs : List α) (x : α) :
    (xs ++ [x]).flatMap f = xs.flatMap f ++ f x := by
  rw [flatMap_append, flatMap_singleton]

include hf

theorem l2EntrySize_eq : l2EntrySize opts.extendedL2 = hdr.l2Size := by
  rw [hf.extendedL2]
  rfl

theorem walkL2ForDiscard_ok
    (htable : ∀ b < hdr.clusterSize, table.bytes b = disk (hostOf (hdr.l1At disk i) + b))
    {st st' : Slots}
    (hst : Cleared hdr disk done st) (h : walkL2ForDiscard opts table st = .ok st') :
    Cleared hdr disk (done ++ (range hdr.l2Entries).flatMap (freedByEntry hdr disk i)) st' := by
  unfold walkL2ForDiscard at h
  dsimp only at h
  rw [l2EntrySize_eq hf, hf.clusterSize] at h
  refine foldlM_invariant (fun js st =>
    Cleared hdr disk (done ++ js.flatMap (freedByEntry hdr disk i)) st)
    (fun js j st st' hj hst hstep => ?_) (by rwa [flatMap_nil, append_nil]) h
  have hwalk := walked_eq (mem_range.mp hj) htable
  rw [flatMap_snoc, ← append_assoc]
  split at hstep
  · cases hstep
  split at hstep
  next hzero =>
    cases hstep
    rw [freedByEntry, if_pos (hwalk ▸ hzero), append_nil]
    exact hst
  rename_i hne
  split at hstep
  · cases hstep
  rw [freedByEntry, if_neg (hwalk ▸ hne), ← hwalk]
  exact decrementCluster_ok hf hst hstep

omit hf

/-- The words of the L1 once the entries `done` are dropped. -/
def Zeroed (hdr : QcowHeader) (disk : ByteMap) (done : List Nat) (l1 : ByteMap) : Prop :=
  ∀ i < hdr.l1Size, l1.be (i * 8) 8 = if i ∈ done then 0 else hdr.l1At disk i

include hf

theorem discardL1Entry_ok (ht : TablesFrom hdr disk opts.existingL2)
    {st st' : Discard} (hst : Cleared hdr disk done st.slots)
    (hl1 : Zeroed hdr disk is st.l1) (h : discardL1Entry opts st i = .ok st') :
    Cleared hdr disk (done ++ freedByTable hdr disk i) st'.slots ∧
    Zeroed hdr disk (is ++ [i]) st'.l1 := by
  obtain ⟨w, hw, h⟩ := ok_of_bind h
  obtain ⟨hi, rfl⟩ := l1Word_ok hf hw
  split at h
  next hzero =>
    cases h
    rw [freedByTable, if_pos hzero, append_nil]
    refine ⟨hst, fun k hk => ?_⟩
    rw [hl1 k hk]
    by_cases hki : k = i
    · subst hki
      simp [hzero]
    · simp [hki]
  next hne =>
    obtain ⟨table, htable, h⟩ := ok_of_bind h
    obtain ⟨slots, hwalk, h⟩ := ok_of_bind h
    obtain ⟨slots', hdec, h⟩ := ok_of_bind h
    cases h
    have hcleared := decrementCluster_ok hf
      (walkL2ForDiscard_ok hf (lookupL2_ok ht htable).2 hst hwalk) hdec
    rw [freedByTable, if_neg hne, ← append_assoc]
    refine ⟨hcleared, fun k hk => ?_⟩
    by_cases hki : k = i
    · subst hki
      rw [if_pos (by simp)]
      exact be_writeBe (by decide)
    · rw [be_writeBe_outside (by omega), hl1 k hk]
      simp [hki]

theorem l1Region_zeroed (clusters : Nat) : Zeroed hdr disk [] (l1Region opts clusters).bytes := by
  intro i hi
  rw [if_neg not_mem_nil, ← hf.l1Word hi]
  refine ByteMap.be_congr fun b hb => ?_
  unfold l1Region
  dsimp only
  rw [hf.l1_len, hf.l1Entries, Nat.min_self, ByteMap.splice_mem (Nat.zero_le _) (by omega),
    Nat.sub_zero]

theorem discardWalk_ok (ht : TablesFrom hdr disk opts.existingL2) {clusters next : Nat}
    {st : Discard} (h : is.foldlM (discardL1Entry opts)
      { l1 := (l1Region opts clusters).bytes, slots := { blocks := [], nextStaging := next } } =
      .ok st) :
    Cleared hdr disk (is.flatMap (freedByTable hdr disk)) st.slots ∧ Zeroed hdr disk is st.l1 := by
  refine foldlM_invariant (fun (is : List Nat) (st : Discard) =>
    Cleared hdr disk (is.flatMap (freedByTable hdr disk)) st.slots ∧ Zeroed hdr disk is st.l1)
    (fun is i st st' _ hst hstep => ?_) ?_ h
  · rw [flatMap_snoc]
    exact discardL1Entry_ok hf ht hst.1 hst.2 hstep
  · exact ⟨Staged.nil _ _, l1Region_zeroed hf clusters⟩

omit hf

/-! ## The straddled table -/

theorem writeBe_zero {n : Nat} (m : ByteMap) (b : Nat) :
    writeBe n off 0 m b = if off ≤ b ∧ b < off + n then 0 else m b := by
  unfold writeBe ByteMap.splice ByteMap.ofBe
  simp

theorem clearEntry_apply (hdr : QcowHeader) (off : Nat) (m : ByteMap) (b : Nat) :
    clearEntry off hdr.l2Size m b = if off ≤ b ∧ b < off + hdr.l2Size then 0 else m b := by
  unfold clearEntry l2Size
  cases hdr.extendedL2 with
  | false => exact writeBe_zero m b
  | true =>
    show writeBe 8 (off + 8) 0 (writeBe 8 off 0 m) b = _
    rw [writeBe_zero, writeBe_zero]
    split
    · rw [if_pos (by simp only [if_true]; omega)]
    · split
      · rw [if_pos (by simp only [if_true]; omega)]
      · rw [if_neg (by simp only [if_true]; omega)]

/-- The straddled table once the entries `js` have been visited. -/
structure Cut (hdr : QcowHeader) (disk : ByteMap) (size : Nat) (done js : List Nat)
    (st : Straddle) : Prop where
  slots : Cleared hdr disk (done ++ js.flatMap (freedAbove hdr disk size)) st.slots
  table : ∀ b < hdr.clusterSize, st.table b =
    if b / hdr.l2Size ∈ js ∧ Above hdr size (b / hdr.l2Size) then 0
    else disk (hostOf (hdr.l1At disk (straddleIdx hdr size)) + b)
  emit : st.emit = true ↔ ∃ j ∈ js, Above hdr size j

include hf in
theorem discardStraddled_ok (htable : ∀ b < hdr.clusterSize,
      table.bytes b = disk (hostOf (hdr.l1At disk (straddleIdx hdr size)) + b)) {js : List Nat}
    (hj : j < hdr.l2Entries) {st st' : Straddle} (hst : Cut hdr disk size done js st)
    (h : discardStraddled opts table (straddleIdx hdr size * coverage hdr) size st j = .ok st') :
    Cut hdr disk size done (js ++ [j]) st' := by
  have hwalk := walked_eq hj htable
  have hmem : ∀ b, b / hdr.l2Size = j ↔ j * hdr.l2Size ≤ b ∧ b < j * hdr.l2Size + hdr.l2Size := by
    intro b
    rw [Nat.div_eq_iff (l2Size_pos hdr)]
    have := l2Size_pos hdr
    omega
  -- the table after the entry is cleared
  have hclear : Above hdr size j →
        ∀ b < hdr.clusterSize, clearEntry (j * hdr.l2Size) hdr.l2Size st.table b =
        if b / hdr.l2Size ∈ js ++ [j] ∧ Above hdr size (b / hdr.l2Size) then 0
        else disk (hostOf (hdr.l1At disk (straddleIdx hdr size)) + b) := by
    intro habove b hb
    rw [clearEntry_apply, hst.table b hb]
    by_cases hbj : b / hdr.l2Size = j
    · rw [if_pos ((hmem b).mp hbj), hbj, if_pos ⟨by simp, habove⟩]
    · rw [if_neg fun hin => hbj ((hmem b).mpr hin)]
      simp [hbj]
  unfold discardStraddled at h
  dsimp only at h
  rw [l2EntrySize_eq hf, hf.clusterSize, hwalk] at h
  split at h
  next hlt =>
    have hnot : ¬ Above hdr size j := not_le.mpr hlt
    cases h
    refine ⟨?_, fun b hb => ?_, ?_⟩
    · rw [flatMap_snoc, freedAbove, if_neg hnot, append_nil]
      exact hst.slots
    · rw [hst.table b hb]
      by_cases hbj : b / hdr.l2Size = j
      · rw [if_neg fun hin => hnot (hbj ▸ hin.2), if_neg fun hin => hnot (hbj ▸ hin.2)]
      · simp [hbj]
    · rw [hst.emit]
      simp [hnot]
  rename_i hle
  have habove : Above hdr size j := not_lt.mp hle
  split at h
  next hzero =>
    cases h
    refine ⟨?_, hclear habove, ?_⟩
    · rw [flatMap_snoc, freedAbove, if_pos habove, freedByEntry, if_pos hzero, append_nil]
      exact hst.slots
    · simp [habove]
  next hne =>
    obtain ⟨slots, hdec, h⟩ := ok_of_bind h
    cases h
    refine ⟨?_, hclear habove, ?_⟩
    · rw [flatMap_snoc, freedAbove, if_pos habove, freedByEntry, if_neg hne, ← append_assoc]
      exact decrementCluster_ok hf hst.slots hdec
    · simp [habove]

theorem coverage_eq (hdr : QcowHeader) : l2Coverage hdr.clusterSize hdr.extendedL2 = coverage hdr :=
  rfl

include hp

theorem coverage_pos : 0 < coverage hdr := mul_pos hp.size_pos (l2Entries_pos hp)

theorem l2Size_dvd : hdr.l2Size ∣ hdr.clusterSize := by
  refine Dvd.dvd.trans ?_ hp.size_dvd
  unfold l2Size
  split <;> decide

/-- A size of whole clusters leaves the last entry of its table above. -/
theorem above_last (hdvd : hdr.clusterSize ∣ size) : Above hdr size (hdr.l2Entries - 1) := by
  have hlt := Nat.mod_lt size (coverage_pos hp)
  have hsplit := Nat.div_add_mod size (coverage hdr)
  -- what is left of the size in its table is a whole number of clusters
  have hrest : hdr.clusterSize ∣ size % coverage hdr :=
    (Nat.dvd_mod_iff (dvd_mul_right hdr.clusterSize hdr.l2Entries)).mpr hdvd
  obtain ⟨r, hr⟩ := hrest
  have hrE : r < hdr.l2Entries := by
    rw [hr] at hlt
    exact Nat.lt_of_mul_lt_mul_left hlt
  have hmul : hdr.clusterSize * r ≤ (hdr.l2Entries - 1) * hdr.clusterSize := by
    rw [mul_comm]
    exact Nat.mul_le_mul_right _ (by omega)
  unfold Above straddleIdx
  rw [mul_comm (size / coverage hdr)]
  omega

include hf in
theorem discardStraddle_ok (ht : TablesFrom hdr disk opts.existingL2)
    (hdvd : hdr.clusterSize ∣ size)
    (hsmall : straddleIdx hdr size < 2 ^ 32) {slots : Slots} {st : Straddle}
    (hst : Cleared hdr disk done slots) (h : discardStraddle opts size slots = .ok st) :
    Cleared hdr disk (done ++ freedInStraddle hdr disk size) st.slots ∧
      (st.emit = true ↔ Straddles hdr disk size) ∧
      (Straddles hdr disk size → straddleIdx hdr size < hdr.l1Size ∧
        ∀ b < hdr.clusterSize, st.table b = if Above hdr size (b / hdr.l2Size) then 0
          else disk (hostOf (hdr.l1At disk (straddleIdx hdr size)) + b)) := by
  have hcov : l2Coverage opts.clusterSize opts.extendedL2 = coverage hdr := by
    rw [hf.clusterSize, hf.extendedL2, coverage_eq]
  unfold discardStraddle at h
  dsimp only at h
  rw [hcov, show size / coverage hdr % 2 ^ 32 = straddleIdx hdr size
    from Nat.mod_eq_of_lt hsmall] at h
  split at h
  next hmod =>
    cases h
    have hnot : ¬ Straddles hdr disk size := fun hc => hc.1 hmod
    rw [freedInStraddle, if_neg hnot, append_nil]
    exact ⟨hst, by simp [hnot], fun hc => absurd hc hnot⟩
  rename_i hmod
  obtain ⟨w, hw, h⟩ := ok_of_bind h
  obtain ⟨hi, rfl⟩ := l1Word_ok hf hw
  split at h
  next hzero =>
    cases h
    have hnot : ¬ Straddles hdr disk size := fun hc => hc.2 hzero
    rw [freedInStraddle, if_neg hnot, append_nil]
    exact ⟨hst, by simp [hnot], fun hc => absurd hc hnot⟩
  rename_i hne
  have hstraddles : Straddles hdr disk size := ⟨hmod, hne⟩
  obtain ⟨table, htable, h⟩ := ok_of_bind h
  have hbytes := (lookupL2_ok ht htable).2
  rw [l2EntrySize_eq hf, hf.clusterSize] at h
  have hcut : Cut hdr disk size done (range hdr.l2Entries) st := by
    refine foldlM_invariant (fun js st => Cut hdr disk size done js st)
      (fun js j st st' hj hst hstep => discardStraddled_ok hf hbytes (mem_range.mp hj) hst hstep)
      ⟨by rwa [flatMap_nil, append_nil], fun b hb => ?_, by simp⟩ h
    exact hbytes b hb
  refine ⟨?_, ?_, fun _ => ⟨hi, fun b hb => ?_⟩⟩
  · rw [freedInStraddle, if_pos hstraddles]
    exact hcut.slots
  · rw [hcut.emit]
    have hE := l2Entries_pos hp
    exact iff_of_true ⟨_, mem_range.mpr (by omega), above_last hp hdvd⟩ hstraddles
  · have hin : b / hdr.l2Size ∈ range hdr.l2Entries := by
      rw [mem_range, Nat.div_lt_iff_lt_mul (l2Size_pos hdr)]
      refine hb.trans_le (le_of_eq ?_)
      exact (Nat.div_mul_cancel (l2Size_dvd hp)).symm
    rw [hcut.table b hb]
    simp only [hin, true_and]

omit hp

/-! ## The plan -/

/-- The header of a shrink. -/
def shrinkHeader (hdr : QcowHeader) (size : Nat) : Buffer :=
  ⟨hdr.clusterSize, headerBytes (headerLayout hdr hdr.clusterBits size hdr.l1Size hdr.l1TableOffset
    hdr.refcountTableOffset hdr.refcountTableClusters) hdr.lazyRefcounts⟩

/-- The patches of a shrink to `size` and what they hold: the straddled table, the L1, the refcount
blocks and the header. -/
structure Discards (hdr : QcowHeader) (disk : ByteMap) (size : Nat) (table l1 : ByteMap)
    (blocks patches : List (Nat × Buffer)) : Prop where
  dvd : hdr.clusterSize ∣ size
  inside : Straddles hdr disk size → straddleIdx hdr size < hdr.l1Size
  patches_eq : patches = (if Straddles hdr disk size then
      [(hostOf (hdr.l1At disk (straddleIdx hdr size)), ⟨hdr.clusterSize, table⟩)] else []) ++
    ((if Drops hdr disk size then
      [(hdr.l1TableOffset, ⟨l1Clusters hdr.l1Size hdr.clusterSize * hdr.clusterSize, l1⟩)]
        else []) ++
    (place hdr disk blocks ++ [(0, shrinkHeader hdr size)]))
  table_bytes : Straddles hdr disk size → ∀ b < hdr.clusterSize, table b =
    if Above hdr size (b / hdr.l2Size) then 0
    else disk (hostOf (hdr.l1At disk (straddleIdx hdr size)) + b)
  l1_words : Zeroed hdr disk (discarded hdr size) l1
  cleared : Staged hdr.clusterSize hdr.refcountBits 0 (countAt hdr disk)
    (freed hdr disk size) blocks
  placed : ∀ s ∈ blocks, hdr.blockAt disk s.1 ≠ 0

theorem mem_discarded : i ∈ discarded hdr size ↔ firstDiscarded hdr size ≤ i ∧ i < hdr.l1Size := by
  unfold discarded
  rw [mem_range'_1]
  omega

include hp in
include hf in
/-- What a shrink plans. -/
theorem planShrink_ok (ht : TablesFrom hdr disk opts.existingL2)
    (hsmall : divCeil opts.newVirtualSize (coverage hdr) ≤ qcow2MaxL1SizeEntries)
    (h : planShrink opts = .ok plan) : ∃ table l1 blocks, Discards hdr disk
      (opts.newVirtualSize / hdr.clusterSize * hdr.clusterSize) table l1 blocks plan.patches := by
  have hcov : l2Coverage opts.clusterSize opts.extendedL2 = coverage hdr := by
    rw [hf.clusterSize, hf.extendedL2, coverage_eq]
  unfold planShrink at h
  obtain ⟨_, -, h⟩ := ok_of_bind h
  dsimp only at h
  rw [hcov, hf.clusterSize] at h
  generalize hsize : opts.newVirtualSize / hdr.clusterSize * hdr.clusterSize = size at h ⊢
  have hdvd : hdr.clusterSize ∣ size := hsize ▸ dvd_mul_left _ _
  have hle : size ≤ opts.newVirtualSize := hsize ▸ Nat.div_mul_le_self _ _
  have hfirst : firstDiscarded hdr size < 2 ^ 32 := by
    have hmono : divCeil size (coverage hdr) ≤ divCeil opts.newVirtualSize (coverage hdr) :=
      Nat.div_le_div_right (by omega)
    unfold qcow2MaxL1SizeEntries at hsmall
    unfold firstDiscarded
    omega
  have hidx : straddleIdx hdr size < 2 ^ 32 := by
    refine (Nat.div_le_div_right ?_).trans_lt hfirst
    have := coverage_pos hp
    omega
  rw [show divCeil size (coverage hdr) % 2 ^ 32 = firstDiscarded hdr size
    from Nat.mod_eq_of_lt hfirst,
    show size / coverage hdr % 2 ^ 32 = straddleIdx hdr size from Nat.mod_eq_of_lt hidx,
    hf.l1Entries] at h
  change (failIf _ _ >>= fun _ => failIf _ _ >>= fun _ =>
    (discarded hdr size).foldlM (discardL1Entry opts) _ >>= _) = _ at h
  simp only [bind_eq_ok, failIf_eq_ok, exists_const] at h
  obtain ⟨-, -, st, hwalk, straddle, hstraddle, header, hheader, plan1, hpush1,
    plan2, hpush2, plan3, hpush3, h⟩ := h
  have hdone := discardWalk_ok hf ht hwalk
  obtain ⟨hslots, hemit, htable⟩ := discardStraddle_ok hf hp ht hdvd hidx hdone.1 hstraddle
  -- the patches in order
  obtain ⟨-, hp1⟩ := pushIf_ok hpush1
  obtain ⟨-, hp2⟩ := pushIf_ok hpush2
  obtain ⟨-, hp3, hall⟩ := pushBlocks_ok hpush3
  obtain ⟨-, hp4⟩ := push_ok h
  obtain ⟨hplace, hne⟩ := hf.place_eq hall
  refine ⟨straddle.table, st.l1, straddle.slots.blocks, hdvd, fun hc => (htable hc).1, ?_,
    fun hc => (htable hc).2, hdone.2, hslots, hne⟩
  have hdrops : (∃ i ∈ range' (firstDiscarded hdr size) (hdr.l1Size - firstDiscarded hdr size),
      wordAt opts.existingL1 i ≠ 0) ↔ Drops hdr disk size := by
    refine exists_congr fun i => and_congr_right fun hi => ?_
    rw [hf.l1Word (mem_discarded.mp hi).2]
  have hcut : Straddles hdr disk size →
      wordAt opts.existingL1 (straddleIdx hdr size) = hdr.l1At disk (straddleIdx hdr size) :=
    fun hc => hf.l1Word (htable hc).1
  have hclusters : opts.oldL1Clusters = l1Clusters hdr.l1Size hdr.clusterSize := by
    unfold Qcow2ResizeGrowQuery.oldL1Clusters
    rw [hf.l1Entries, hf.clusterSize]
  have hhead := headerFor_ok hf hp hheader
  rw [hf.l1Offset, hf.tableOffset, hf.tableClusters] at hhead
  rw [hp4, hp3, hplace, hp2, hp1, hhead, hclusters, hf.l1Offset]
  simp only [hemit, hdrops, nil_append, append_assoc]
  by_cases hc : Straddles hdr disk size
  · rw [if_pos hc, if_pos hc, hcut hc, shrinkHeader]
  · rw [if_neg hc, if_neg hc, shrinkHeader]

end Instar.Resize
