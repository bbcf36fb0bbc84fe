import Instar.Write.Invariance
import Instar.Write.Ledger

/-!
# The image a planner state stands for

Between a write and the next flush the image is spread over the disk, the staged L1, the window of
L2 tables and the staged refblocks.  `effHost` and `effTab` are the L1 and the L2 tables as they
would be read if everything were written back: a table in the window counts as its slot has it.
`Store` ties the staged refcounts to the references of that image.
-/

namespace Instar.Write

open Instar.Qcow2 ByteMap WriteState Function

/-! ## Slots by table -/

variable {idx : Nat}

section

variable {st st' : WriteState} {i v w : Nat} {slot : L2Slot}

theorem findSlot_iff (hinj : SlotsInj st.config.l2Slots st.l2Slots) : st.findSlot i = some v ↔
      v < st.config.l2Slots ∧ (st.l2Slots v).valid = true ∧ (st.l2Slots v).l1Idx = i := by
  constructor
  · exact findSlot_some
  · intro ⟨hv, hvalid, hidx⟩
    obtain ⟨w, hw⟩ := Option.isSome_iff_exists.mp (findSlot_isSome hv hvalid hidx)
    obtain ⟨hwlt, hwvalid, hwidx⟩ := findSlot_some hw
    rw [hw, hinj w hwlt v hv hwvalid hvalid (hwidx.trans hidx.symm)]

/-- Two states with the same tables in their windows. -/
structure SameTables (st st' : WriteState) : Prop where
  geometry : st'.geometry = st.geometry
  config : st'.config = st.config
  valid : ∀ v, (st'.l2Slots v).valid = (st.l2Slots v).valid
  l1Idx : ∀ v, (st'.l2Slots v).l1Idx = (st.l2Slots v).l1Idx
  hostOffset : ∀ v, (st'.l2Slots v).hostOffset = (st.l2Slots v).hostOffset

theorem SameTables.findSlot (h : SameTables st st') (i : Nat) : st'.findSlot i = st.findSlot i := by
  unfold WriteState.findSlot
  rw [h.config]
  congr 1
  funext w
  rw [h.valid w, h.l1Idx w]

theorem SameTables.inj (h : SameTables st st') (hinj : SlotsInj st.config.l2Slots st.l2Slots) :
    SlotsInj st'.config.l2Slots st'.l2Slots := by
  intro i hi j hj hvi hvj hidx
  rw [h.config] at hi hj
  rw [h.valid] at hvi hvj
  rw [h.l1Idx, h.l1Idx] at hidx
  exact hinj i hi j hj hvi hvj hidx

section

variable (hgeo : st'.geometry = st.geometry) (hconfig : st'.config = st.config)

include hgeo hconfig

/-- A change of one slot that keeps its table. -/
theorem sameTables_update (hslots : st'.l2Slots = Function.update st.l2Slots v slot)
    (hvalid : slot.valid = (st.l2Slots v).valid) (hidx : slot.l1Idx = (st.l2Slots v).l1Idx)
    (hhost : slot.hostOffset = (st.l2Slots v).hostOffset) : SameTables st st' := by
  refine ⟨hgeo, hconfig, fun w => ?_, fun w => ?_, fun w => ?_⟩ <;> rw [hslots] <;>
    by_cases hw : w = v
  all_goals first
    | (rw [update_of_ne hw])
    | (rw [hw, update_self]; assumption)

theorem sameTables_of_slots (hslots : st'.l2Slots = st.l2Slots) : SameTables st st' := by
  refine ⟨hgeo, hconfig, fun w => ?_, fun w => ?_, fun w => ?_⟩ <;> rw [hslots]

end

section

variable (hconfig : st'.config = st.config)
  (hslots : st'.l2Slots = Function.update st.l2Slots v slot)

include hconfig hslots

/-- Freeing a slot: its table is found no more, every other one as before. -/
theorem findSlot_free (hvalid : slot.valid = false) (hinj : SlotsInj st.config.l2Slots st.l2Slots)
    (i : Nat) : st'.findSlot i = if st.findSlot i = some v then none else st.findSlot i := by
  have hinj' : SlotsInj st'.config.l2Slots st'.l2Slots := by
    rw [hconfig, hslots]
    exact hinj.update fun h => by rw [hvalid] at h; cases h
  refine Option.ext fun w => ?_
  rw [findSlot_iff hinj', hconfig, hslots]
  by_cases hw : w = v
  · subst hw
    split <;> simp_all
  · rw [update_of_ne hw, ← findSlot_iff hinj]
    split
    next hv =>
      rw [hv]
      simp [Ne.symm hw]
    · rfl

/-- Pointing a slot at a table that no slot holds. -/
theorem findSlot_assign (hv : v < st.config.l2Slots)
    (hvalid : slot.valid = true) (hidx : slot.l1Idx = idx) (hnone : st.findSlot idx = none)
    (hinj : SlotsInj st.config.l2Slots st.l2Slots) (i : Nat) :
    st'.findSlot i = if i = idx then some v
      else if st.findSlot i = some v then none else st.findSlot i := by
  have hfree := findSlot_eq_none.mp hnone
  have hinj' : SlotsInj st'.config.l2Slots st'.l2Slots := by
    rw [hconfig, hslots]
    refine hinj.update fun _ w hw _ hvw => ?_
    rw [hidx]
    exact hfree w hw hvw
  refine Option.ext fun w => ?_
  rw [findSlot_iff hinj', hconfig, hslots]
  by_cases hw : w = v
  · subst hw
    rw [update_self, hvalid, hidx]
    by_cases hi : i = idx
    · simp [hi, hv]
    · rw [if_neg hi]
      have hne : ¬ idx = i := fun heq => hi heq.symm
      split <;> simp_all
  · rw [update_of_ne hw, ← findSlot_iff hinj]
    by_cases hi : i = idx
    · rw [if_pos hi, hi, hnone]
      simp [Ne.symm hw]
    · rw [if_neg hi]
      split
      next hs =>
        rw [hs]
        simp [Ne.symm hw]
      · rfl

end

end

/-! ## The effective tables -/

/-- Where the L2 table `i` of the image lives. -/
def effHost (st : WriteState) (sg : StagedRegions) (i : Nat) : Nat :=
  match st.findSlot i with
  | some v => (st.l2Slots v).hostOffset
  | none => hostOf (readStagedL1Entry sg i)

/-- Entry `j` of the L2 table `i` of the image. -/
def effTab (st : WriteState) (sg : StagedRegions) (disk : ByteMap) (i j : Nat) : Nat :=
  match st.findSlot i with
  | some v => sg.l2Window.be (v * st.geometry.clusterSize + j * 8) 8
  | none => diskTab disk (hostOf (readStagedL1Entry sg i)) j

/-- A cluster with exactly one reference. -/
structure SoleHost (geo : Geometry) (rb : Buffer) (host : Nat) : Prop where
  ne : host ≠ 0
  ok : HostOk geo host
  count : CountIs geo rb host 1

/-- A slot holds what the disk holds. -/
def SlotOnDisk (st : WriteState) (sg : StagedRegions) (disk : ByteMap) (v : Nat) : Prop :=
  ∀ k < st.geometry.clusterSize, sg.l2Window.bytes (v * st.geometry.clusterSize + k)
    = disk ((st.l2Slots v).hostOffset + k)

/-- The staged L1 names the cluster of a slot. -/
def Linked (st : WriteState) (sg : StagedRegions) (v : Nat) : Prop :=
  hostOf (readStagedL1Entry sg (st.l2Slots v).l1Idx) = (st.l2Slots v).hostOffset

/-- The image that the disk and the staged regions stand for, with its references counted. -/
structure Store (fixed held : Nat → Nat) (st : WriteState) (sg : StagedRegions) (disk : ByteMap) :
    Prop where
  fit : BlocksFit st sg.refblocks
  inj : SlotsInj st.config.l2Slots st.l2Slots
  slot : ∀ v < st.config.l2Slots, (st.l2Slots v).valid = true →
      (st.l2Slots v).l1Idx < st.geometry.l1Size ∧
      SoleHost st.geometry sg.refblocks (st.l2Slots v).hostOffset
  clean : ∀ v < st.config.l2Slots, (st.l2Slots v).valid = true → (st.l2Slots v).dirty = false →
    SlotOnDisk st sg disk v
  ledger : Ledger st.geometry fixed held sg.refblocks (effHost st sg) (effTab st sg disk)

section

variable {fixed held held' : Nat → Nat} {st st' : WriteState} {sg sg' : StagedRegions}
  {disk disk' : ByteMap} {i j v c : Nat}
  {geo : Geometry} {rb' : Buffer} {host cs value : Nat} {src : ByteMap} {slot : L2Slot}

theorem effHost_some (h : st.findSlot i = some v) :
    effHost st sg i = (st.l2Slots v).hostOffset := by
  simp only [effHost, h]

theorem effHost_none (h : st.findSlot i = none) :
    effHost st sg i = hostOf (readStagedL1Entry sg i) := by
  simp only [effHost, h]

theorem effTab_some (h : st.findSlot i = some v) :
    effTab st sg disk i j = sg.l2Window.be (v * st.geometry.clusterSize + j * 8) 8 := by
  simp only [effTab, h]

theorem effTab_none (h : st.findSlot i = none) :
    effTab st sg disk i j = diskTab disk (effHost st sg i) j := by
  rw [effHost_none h]
  simp only [effTab, h]

variable (h : SameTables st st')

include h

theorem SameTables.host_eq (sg : StagedRegions) : effHost st' sg = effHost st sg := by
  funext i
  simp only [effHost, h.findSlot]
  cases st.findSlot i with
  | none => rfl
  | some v => exact h.hostOffset v

theorem SameTables.tab_eq (sg : StagedRegions) (disk : ByteMap) :
    effTab st' sg disk = effTab st sg disk := by
  funext i j
  simp only [effTab, h.findSlot, h.geometry]

variable (hst : Store fixed held st sg disk)

include hst

/-- A state with the same tables; a slot may only become clean if its table is on disk. -/
theorem Store.cleaned (hfit : BlocksFit st' sg.refblocks)
    (hclean : ∀ w < st.config.l2Slots, (st.l2Slots w).valid = true → (st'.l2Slots w).dirty = false →
      (st.l2Slots w).dirty = false ∨ SlotOnDisk st sg disk w) : Store fixed held st' sg disk := by
  refine ⟨hfit, h.inj hst.inj, fun w hw hvalid => ?_, fun w hw hvalid hd => ?_, ?_⟩
  · rw [h.config] at hw
    rw [h.valid] at hvalid
    rw [h.l1Idx, h.hostOffset, h.geometry]
    exact hst.slot w hw hvalid
  · rw [h.config] at hw
    rw [h.valid] at hvalid
    unfold SlotOnDisk
    rw [h.geometry, h.hostOffset]
    rcases hclean w hw hvalid hd with hold | hold
    · exact hst.clean w hw hvalid hold
    · exact hold
  · rw [h.geometry, h.host_eq, h.tab_eq]
    exact hst.ledger

theorem Store.same (hfit : BlocksFit st' sg.refblocks)
    (hdirty : ∀ v, (st'.l2Slots v).dirty = false → (st.l2Slots v).dirty = false) :
    Store fixed held st' sg disk :=
  hst.cleaned h hfit fun w _ _ hd => .inl (hdirty w hd)

omit h hst

/-! ## Counting -/

/-- The slot hosts survive a change of the refblocks that leaves their counts alone. -/
theorem SoleHost.blocks {rb : Buffer} (h : SoleHost geo rb host) (hlen : rb'.len = rb.len)
    (hrc : rcAt rb'.bytes (host / geo.clusterSize) = rcAt rb.bytes (host / geo.clusterSize)) :
    SoleHost geo rb' host := by
  refine ⟨h.ne, h.ok, ?_, hrc.trans h.count.count⟩
  unfold counted
  rw [hlen]
  exact h.count.covered

include hst

include h in
/-- Changing the refblocks and nothing else. -/
theorem Store.setBlocks (hdirty : ∀ v, (st'.l2Slots v).dirty = (st.l2Slots v).dirty)
    (hfit : BlocksFit st' rb') (hlen : rb'.len = sg.refblocks.len)
    (hrc : ∀ v < st.config.l2Slots, (st.l2Slots v).valid = true →
      rcAt rb'.bytes ((st.l2Slots v).hostOffset / st.geometry.clusterSize)
      = rcAt sg.refblocks.bytes ((st.l2Slots v).hostOffset / st.geometry.clusterSize))
    (hled : Ledger st.geometry fixed held' rb' (effHost st sg) (effTab st sg disk)) :
    Store fixed held' st' { sg with refblocks := rb' } disk := by
  refine ⟨hfit, h.inj hst.inj, fun v hv hvalid => ?_, fun v hv hvalid hd => ?_, ?_⟩
  · rw [h.config] at hv
    rw [h.valid] at hvalid
    rw [h.l1Idx, h.hostOffset, h.geometry]
    obtain ⟨hidx, hslot⟩ := hst.slot v hv hvalid
    exact ⟨hidx, hslot.blocks hlen (hrc v hv hvalid)⟩
  · rw [h.config] at hv
    rw [h.valid] at hvalid
    rw [hdirty] at hd
    unfold SlotOnDisk
    rw [h.geometry, h.hostOffset]
    exact hst.clean v hv hvalid hd
  · rw [h.geometry, h.host_eq, h.tab_eq]
    exact hled

/-- Nothing but its L1 entry refers to the table of a slot. -/
theorem Store.slot_alone (hv : v < st.config.l2Slots) (hvalid : (st.l2Slots v).valid = true) :
    fixed ((st.l2Slots v).hostOffset / st.geometry.clusterSize) = 0 ∧
      held ((st.l2Slots v).hostOffset / st.geometry.clusterSize) = 0 ∧
      ∀ q ∈ refPointers st.geometry, q ≠ ((st.l2Slots v).l1Idx, st.geometry.entriesPerL2) →
        refNames st.geometry (effHost st sg) (effTab st sg disk) q
          ((st.l2Slots v).hostOffset / st.geometry.clusterSize) = 0 := by
  obtain ⟨hidx, hslot⟩ := hst.slot v hv hvalid
  refine hst.ledger.alone (table_mem hidx) hslot.count ?_
  rw [refNames_table, effHost_some ((findSlot_iff hst.inj).mpr ⟨hv, hvalid, rfl⟩),
    tableRef_eq_oneRef hslot.ne, oneRef_self]

/-- Nothing but its entry refers to a data cluster with one reference. -/
theorem Store.entry_alone (hsole : SoleHost st.geometry sg.refblocks host)
    (hi : i < st.geometry.l1Size)
    (hj : j < st.geometry.entriesPerL2) (hplain : effTab st sg disk i j &&& oflagCompressed = 0)
    (hhost : hostOf (effTab st sg disk i j) = host) :
    fixed (host / st.geometry.clusterSize) = 0 ∧ held (host / st.geometry.clusterSize) = 0 ∧
      ∀ q ∈ refPointers st.geometry, q ≠ (i, j) →
      refNames st.geometry (effHost st sg) (effTab st sg disk) q
          (host / st.geometry.clusterSize) = 0 := by
  refine hst.ledger.alone (entry_mem hi hj) hsole.count ?_
  rw [refNames_entry hj, entryRefs_plain hplain, hhost, tableRef_eq_oneRef hsole.ne, oneRef_self]

include h in
/-- An allocation claims a cluster that nothing refers to. -/
theorem Store.alloc {cursor : AllocCursor}
    (hdirty : ∀ v, (st'.l2Slots v).dirty = (st.l2Slots v).dirty)
    (hfit : BlocksFit st' rb') (halloc : allocCall st sg.refblocks = (.ok host, rb', cursor)) :
    Store fixed (fun c => held c + oneRef st.geometry host c) st' { sg with refblocks :=
      rb' } disk ∧ HostOk st.geometry host ∧ CountIs st.geometry rb' host 1 ∧
      fixed (host / st.geometry.clusterSize) = 0 ∧ held (host / st.geometry.clusterSize) = 0 := by
  have hok := allocCall_hostOk hst.fit halloc
  obtain ⟨c, hhost, hc, hfree, hlen, hrc, -, -⟩ := allocCall_ok hst.fit halloc
  have hdiv : host / st.geometry.clusterSize = c := by
    rw [hhost, Nat.mul_div_cancel _ hst.fit.geo.size_pos]
  have hcount := hst.ledger.count c hc
  refine ⟨hst.setBlocks h hdirty hfit hlen (fun v hv hvalid => ?_) ?_, hok, ⟨?_, ?_⟩, ?_, ?_⟩
  · rw [hrc, if_neg]
    intro heq
    have hone := (hst.slot v hv hvalid).2.count.count
    rw [heq] at hone
    omega
  · refine hst.ledger.alloc hlen (by rw [hdiv]; exact hfree) fun c' => ?_
    rw [hdiv]
    exact hrc c'
  · rw [hdiv]
    unfold counted
    rw [hlen]
    exact hc
  · rw [hdiv, hrc, if_pos rfl]
  · rw [hdiv]
    omega
  · rw [hdiv]
    omega

omit hst

/-- Dropping a reference held by the write. -/
theorem Store.drop {rbIdx : Nat}
    (hst : Store fixed (fun c => held c + oneRef st.geometry host c) st sg disk)
    (h : SameTables st st') (hdirty : ∀ v, (st'.l2Slots v).dirty = (st.l2Slots v).dirty)
    (hfit : BlocksFit st' rb')
    (hdec : decRefblocks st.geometry sg.refblocks host = .ok (rbIdx, rb')) :
    Store fixed held st' { sg with refblocks := rb' } disk := by
  obtain ⟨-, -, -, hlen, hrc, -⟩ := decRefblocks_ok hst.fit.geo hdec
  refine hst.setBlocks h hdirty hfit hlen (fun v hv hvalid => ?_) (hst.ledger.drop hlen hrc)
  rw [hrc, if_neg]
  intro heq
  have hheld := (hst.slot_alone hv hvalid).2.1
  rw [heq, oneRef_self] at hheld
  omega

/-! ## Writing to the disk -/

/-- A table on disk is read from its own cluster. -/
theorem diskTab_congr (hj : j * 8 + 8 ≤ cs)
    (h : host ≠ 0 → ∀ k < cs, disk' (host + k) = disk (host + k)) :
    diskTab disk' host j = diskTab disk host j := by
  unfold diskTab
  split
  · rfl
  next hne =>
    refine be_congr fun k hk => ?_
    rw [add_assoc]
    exact h hne _ (by omega)

theorem Geometry.Wf.entry_le (hgeo : geo.Wf) (hj : j < geo.entriesPerL2) :
    j * 8 + 8 ≤ geo.clusterSize := by
  have := hgeo.entries
  omega

include hst

/-- A change of the disk that leaves alone the tables that are read from it. -/
theorem Store.writeDisk (hkeep : ∀ i < st.geometry.l1Size,
      (∀ v, st.findSlot i = some v → (st.l2Slots v).dirty = false) → effHost st sg i ≠ 0 →
      ∀ k < st.geometry.clusterSize, disk' (effHost st sg i + k) = disk (effHost st sg i + k)) :
    Store fixed held st sg disk' ∧ ∀ i < st.geometry.l1Size, ∀ j < st.geometry.entriesPerL2,
      effTab st sg disk' i j = effTab st sg disk i j := by
  have htab : ∀ i < st.geometry.l1Size, ∀ j < st.geometry.entriesPerL2,
      effTab st sg disk' i j = effTab st sg disk i j := by
    intro i hi j hj
    cases hslot : st.findSlot i with
    | some v => rw [effTab_some hslot, effTab_some hslot]
    | none =>
      rw [effTab_none hslot, effTab_none hslot]
      refine diskTab_congr (hst.fit.geo.entry_le hj) fun hne => hkeep i hi ?_ hne
      intro v hv
      rw [hslot] at hv
      cases hv
  refine ⟨⟨hst.fit, hst.inj, hst.slot, fun v hv hvalid hd k hk => ?_, ?_⟩, htab⟩
  · obtain ⟨hidx, hslot⟩ := hst.slot v hv hvalid
    have hfind : st.findSlot (st.l2Slots v).l1Idx = some v :=
      (findSlot_iff hst.inj).mpr ⟨hv, hvalid, rfl⟩
    have hhost : effHost st sg (st.l2Slots v).l1Idx = (st.l2Slots v).hostOffset :=
      effHost_some hfind
    have hdisk := hkeep (st.l2Slots v).l1Idx hidx ?_ (by rw [hhost]; exact hslot.ne) k hk
    · rw [hhost] at hdisk
      rw [hdisk]
      exact hst.clean v hv hvalid hd k hk
    · intro w hw
      rw [hfind] at hw
      cases hw
      exact hd
  · exact hst.ledger.congr (fun i _ => rfl) htab

/-- A change of one cluster that no table lives in, except one whose slot is dirty. -/
theorem Store.writeCluster {H : Nat} (hdisk : ∀ b, b / st.geometry.clusterSize ≠ H →
    disk' b = disk b)
    (hfree : ∀ i < st.geometry.l1Size, tableRef st.geometry.clusterSize (effHost st sg i) H ≠ 0 →
      ∃ v, st.findSlot i = some v ∧ (st.l2Slots v).dirty = true) :
    Store fixed held st sg disk' ∧ ∀ i < st.geometry.l1Size, ∀ j < st.geometry.entriesPerL2,
      effTab st sg disk' i j = effTab st sg disk i j := by
  refine hst.writeDisk fun i hi hclean hne k hk => hdisk _ ?_
  rw [div_of_aligned hst.fit.geo.size_pos (hst.ledger.hostOk i hi).aligned hk]
  intro heq
  obtain ⟨v, hv, hd⟩ := hfree i hi (by simp [tableRef, hne, heq])
  rw [hclean v hv] at hd
  cases hd

omit hst

theorem splice_cluster_outside {off len b : Nat} (hcs : 0 < cs) (hal : host % cs = 0)
    (hlen : off + len ≤ cs)
    (hb : b / cs ≠ host / cs) : (disk.splice (host + off) len src) b = disk b := by
  refine splice_outside ?_
  by_contra hin
  exact hb (div_of_mem hcs hal (by omega))

/-! ## Slots leaving and entering the window -/

include hst

/-- Writing a dirty slot's table to its cluster. -/
theorem Store.writeback (hv : v < st.config.l2Slots) (hvalid : (st.l2Slots v).valid = true)
    (hd : (st.l2Slots v).dirty = true)
    (hdisk : disk' = disk.splice (st.l2Slots v).hostOffset st.geometry.clusterSize
      (sg.l2Window.bytes.drop (v * st.geometry.clusterSize))) :
    Store fixed held st sg disk' ∧ (∀ i < st.geometry.l1Size, ∀ j < st.geometry.entriesPerL2,
      effTab st sg disk' i j = effTab st sg disk i j) ∧ SlotOnDisk st sg disk' v := by
  obtain ⟨hidx, hslot⟩ := hst.slot v hv hvalid
  have hfind : st.findSlot (st.l2Slots v).l1Idx = some v :=
    (findSlot_iff hst.inj).mpr ⟨hv, hvalid, rfl⟩
  have houtside : ∀ b, b / st.geometry.clusterSize
      ≠ (st.l2Slots v).hostOffset / st.geometry.clusterSize → disk' b = disk b := by
    intro b hb
    rw [hdisk]
    show (disk.splice ((st.l2Slots v).hostOffset + 0) st.geometry.clusterSize _) b = disk b
    exact splice_cluster_outside hst.fit.geo.size_pos hslot.ok.aligned (by omega) hb
  obtain ⟨hst', htab⟩ := hst.writeCluster houtside fun i hi href => by
    by_cases heq : i = (st.l2Slots v).l1Idx
    · exact ⟨v, by rw [heq]; exact hfind, hd⟩
    · have halone := (hst.slot_alone hv hvalid).2.2 (i, st.geometry.entriesPerL2) (table_mem hi)
        (by simpa using heq)
      rw [refNames_table] at halone
      exact absurd halone href
  refine ⟨hst', htab, fun k hk => ?_⟩
  rw [hdisk, splice_inside hk]
  rfl

/-- Forgetting a slot whose table is on disk, where the L1 says. -/
theorem Store.free (hgeo : st'.geometry = st.geometry) (hconfig : st'.config = st.config)
    (hslots : st'.l2Slots = Function.update st.l2Slots v slot) (hinvalid : slot.valid = false)
    (hfit : BlocksFit st' sg.refblocks)
    (hold : v < st.config.l2Slots → (st.l2Slots v).valid = true → SlotOnDisk st sg disk v ∧
      Linked st sg v) :
    Store fixed held st' sg disk ∧ (∀ i, effHost st' sg i = effHost st sg i) ∧
      ∀ i, ∀ j < st.geometry.entriesPerL2, effTab st' sg disk i j = effTab st sg disk i j := by
  have hfind := findSlot_free hconfig hslots hinvalid hst.inj
  have hother : ∀ w, (st'.l2Slots w).valid = true → w ≠ v ∧ st'.l2Slots w = st.l2Slots w := by
    intro w hw
    have hne : w ≠ v := by
      rintro rfl
      rw [hslots, update_self, hinvalid] at hw
      cases hw
    exact ⟨hne, by rw [hslots, update_of_ne hne]⟩
  have hhost : ∀ i, effHost st' sg i = effHost st sg i := by
    intro i
    by_cases hi : st.findSlot i = some v
    · obtain ⟨hv, hvalid, hidx⟩ := findSlot_some hi
      rw [effHost_none (by rw [hfind, if_pos hi]), effHost_some hi, ← hidx]
      exact (hold hv hvalid).2
    · cases hw : st.findSlot i with
      | none => rw [effHost_none (by rw [hfind, if_neg hi, hw]), effHost_none hw]
      | some w =>
        have hfind' : st'.findSlot i = some w := by rw [hfind, if_neg hi, hw]
        rw [effHost_some hfind', effHost_some hw, (hother w (findSlot_some hfind').2.1).2]
  have htab : ∀ i, ∀ j < st.geometry.entriesPerL2, effTab st' sg disk i j =
      effTab st sg disk i j := by
    intro i j hj
    by_cases hi : st.findSlot i = some v
    · obtain ⟨hv, hvalid, hidx⟩ := findSlot_some hi
      have hentry := hst.fit.geo.entry_le hj
      rw [effTab_none (by rw [hfind, if_pos hi]), hhost, effTab_some hi, effHost_some hi, diskTab,
        if_neg (hst.slot v hv hvalid).2.ne]
      refine be_congr fun k hk => ?_
      rw [add_assoc, add_assoc]
      exact ((hold hv hvalid).1 (j * 8 + k) (by omega)).symm
    · cases hw : st.findSlot i with
      | none => rw [effTab_none (by rw [hfind, if_neg hi, hw]), effTab_none hw, hhost]
      | some w => rw [effTab_some (by rw [hfind, if_neg hi, hw]), effTab_some hw, hgeo]
  refine ⟨⟨hfit, ?_, fun w hw hvalid => ?_, fun w hw hvalid hd => ?_, ?_⟩, hhost, htab⟩
  · rw [hconfig, hslots]
    exact hst.inj.update fun h => by rw [hinvalid] at h; cases h
  · obtain ⟨-, heq⟩ := hother w hvalid
    rw [heq] at hvalid ⊢
    rw [hgeo]
    exact hst.slot w (hconfig ▸ hw) hvalid
  · obtain ⟨-, heq⟩ := hother w hvalid
    unfold SlotOnDisk
    rw [heq] at hvalid hd ⊢
    rw [hgeo]
    exact hst.clean w (hconfig ▸ hw) hvalid hd
  · rw [hgeo]
    exact hst.ledger.congr (fun i _ => hhost i) fun i _ j hj => htab i j hj

omit hst

/-- The staged regions with other bytes in the window. -/
def StagedRegions.withWindow (sg : StagedRegions) (bytes : ByteMap) : StagedRegions :=
  { sg with l2Window := { sg.l2Window with bytes } }

/-- The staged regions with other bytes in the L1. -/
def StagedRegions.withL1 (sg : StagedRegions) (bytes : ByteMap) : StagedRegions :=
  { sg with l1 := { sg.l1 with bytes } }

include hst

section

variable (hgeo : st'.geometry = st.geometry) (hconfig : st'.config = st.config)
  (hslots : st'.l2Slots = Function.update st.l2Slots v slot) (hv : v < st.config.l2Slots)
  (hvalid : slot.valid = true) (hidx : slot.l1Idx < st.geometry.l1Size)
  (hnone : st.findSlot slot.l1Idx = none) (hfit : BlocksFit st' sg.refblocks)
  (hhost : SoleHost st.geometry sg.refblocks slot.hostOffset)
  (hclean : slot.dirty = false →
    ∀ k < st.geometry.clusterSize, src k = disk (slot.hostOffset + k))
  (hsrc : ∀ j < st.geometry.entriesPerL2, src.be (j * 8) 8 = effTab st sg disk slot.l1Idx j)
  (hheld : ∀ c, held' c + tableRef st.geometry.clusterSize slot.hostOffset c
    = held c + tableRef st.geometry.clusterSize (effHost st sg slot.l1Idx) c)

include hgeo hconfig hslots hv hvalid hidx hnone hfit hhost hclean hsrc hheld

/-- Bringing a table into a free slot. -/
theorem Store.assign (hfree : (st.l2Slots v).valid = false) :
    let sg' := sg.withWindow
      (sg.l2Window.bytes.splice (v * st.geometry.clusterSize) st.geometry.clusterSize src)
    Store fixed held' st' sg' disk ∧ (∀ i, i ≠ slot.l1Idx → effHost st' sg' i = effHost st sg i) ∧
      ∀ i, ∀ j < st.geometry.entriesPerL2, effTab st' sg' disk i j = effTab st sg disk i j := by
  intro sg'
  have hfind : ∀ i, st'.findSlot i = if i = slot.l1Idx then some v else st.findSlot i := by
    intro i
    rw [findSlot_assign hconfig hslots hv hvalid rfl hnone hst.inj]
    split
    · rfl
    · rw [if_neg]
      intro hi
      have hvi := (findSlot_some hi).2.1
      rw [hfree] at hvi
      cases hvi
  have hslot_ne : ∀ {i w}, st.findSlot i = some w → w ≠ v := by
    rintro i w hi rfl
    have hvi := (findSlot_some hi).2.1
    rw [hfree] at hvi
    cases hvi
  have hsg : ∀ i, readStagedL1Entry sg' i = readStagedL1Entry sg i := fun _ => rfl
  have hhosts : ∀ i, i ≠ slot.l1Idx → effHost st' sg' i = effHost st sg i := by
    intro i hi
    cases hw : st.findSlot i with
    | none => rw [effHost_none (by rw [hfind, if_neg hi, hw]), effHost_none hw, hsg]
    | some w =>
      rw [effHost_some (by rw [hfind, if_neg hi, hw]), effHost_some hw, hslots,
        update_of_ne (hslot_ne hw)]
  have htab : ∀ i, ∀ j < st.geometry.entriesPerL2, effTab st' sg' disk i j =
      effTab st sg disk i j := by
    intro i j hj
    have hentry := hst.fit.geo.entry_le hj
    by_cases hi : i = slot.l1Idx
    · rw [effTab_some (by rw [hfind, if_pos hi]), hi, ← hsrc j hj, hgeo]
      exact be_splice_inside hentry
    · cases hw : st.findSlot i with
      | none => rw [effTab_none (by rw [hfind, if_neg hi, hw]), effTab_none hw, hhosts i hi]
      | some w =>
        rw [effTab_some (by rw [hfind, if_neg hi, hw]), effTab_some hw, hgeo]
        exact be_fill_slot hentry (hslot_ne hw)
  have hnew : effHost st' sg' slot.l1Idx = slot.hostOffset := by
    rw [effHost_some (by rw [hfind, if_pos rfl]), hslots, update_self]
  refine ⟨⟨hfit, ?_, fun w hw hvw => ?_, fun w hw hvw hd k hk => ?_, ?_⟩, hhosts, htab⟩
  · rw [hconfig, hslots]
    exact hst.inj.update fun _ w hw _ hvw => findSlot_eq_none.mp hnone w hw hvw
  · rw [hconfig] at hw
    rw [hgeo]
    by_cases hwv : w = v
    · rw [hslots, hwv, update_self]
      exact ⟨hidx, hhost⟩
    · rw [hslots, update_of_ne hwv] at hvw ⊢
      exact hst.slot w hw hvw
  · rw [hconfig] at hw
    rw [hgeo] at hk ⊢
    by_cases hwv : w = v
    · rw [hslots, hwv, update_self] at hd ⊢
      rw [← hclean hd k hk]
      exact splice_inside hk
    · rw [hslots, update_of_ne hwv] at hvw hd ⊢
      rw [← hst.clean w hw hvw hd k hk]
      have := slot_apart st.geometry.clusterSize hwv
      exact splice_outside (by omega)
  · rw [hgeo]
    refine hst.ledger.setTable hidx ?_ (fun i _ hi => hhosts i hi) (fun i _ j hj =>
      htab i j hj) ?_ ?_
    · rw [hnew]
      exact hhost.ok
    · rw [hnew]
      exact hheld
    · intro c hc
      rw [hnew, tableRef_eq_oneRef hhost.ne, oneRef, if_neg]
      have := hhost.count.covered
      show ¬ c = _
      omega

/-- Bringing a table into a slot whose old table is on disk, where the L1 says. -/
theorem Store.reassign
    (hold : (st.l2Slots v).valid = true → SlotOnDisk st sg disk v ∧ Linked st sg v) :
    let sg' := sg.withWindow
      (sg.l2Window.bytes.splice (v * st.geometry.clusterSize) st.geometry.clusterSize src)
    Store fixed held' st' sg' disk ∧
      ∀ i, ∀ j < st.geometry.entriesPerL2, effTab st' sg' disk i j = effTab st sg disk i j := by
  -- the slot is freed first, so that its old table is read from the disk again
  let free : L2Slot := { st.l2Slots v with valid := false }
  let st1 : WriteState := { st with l2Slots := Function.update st.l2Slots v free }
  have hfit1 : BlocksFit st1 sg.refblocks :=
    ⟨hst.fit.geo, hst.fit.limit, hst.fit.count, hst.fit.whole, hst.fit.cursor⟩
  have hgeo1 : st1.geometry = st.geometry := rfl
  have hconfig1 : st1.config = st.config := rfl
  have hslot1 : st1.l2Slots = Function.update st.l2Slots v free := rfl
  obtain ⟨hst1, hhost1, htab1⟩ := hst.free hgeo1 hconfig1 hslot1 rfl hfit1 fun _ => hold
  have hslots1 : st'.l2Slots = Function.update st1.l2Slots v slot := by
    rw [hslots]
    exact (update_idem free slot st.l2Slots).symm
  have hnone1 : st1.findSlot slot.l1Idx = none := by
    rw [findSlot_free hconfig1 hslot1 rfl hst.inj, hnone]
    simp
  have hfree1 : (st1.l2Slots v).valid = false := by
    show (Function.update st.l2Slots v free v).valid = false
    rw [update_self]
  have hheld1 : ∀ c, held' c + tableRef st.geometry.clusterSize slot.hostOffset c
      = held c + tableRef st.geometry.clusterSize (effHost st1 sg slot.l1Idx) c := by
    intro c
    rw [hhost1]
    exact hheld c
  obtain ⟨hst', -, htab'⟩ :=
    hst1.assign hgeo hconfig hslots1 hv hvalid hidx hnone1 hfit hhost hclean
      (fun j hj => (hsrc j hj).trans (htab1 _ j hj).symm) hheld1 hfree1
  exact ⟨hst', fun i j hj => (htab' i j hj).trans (htab1 i j hj)⟩

end

omit hst

/-! ## Patching entries -/

theorem readStagedL1Entry_patch (hvalue : value < 2 ^ 64) (i : Nat) :
    readStagedL1Entry (sg.withL1 (sg.l1.bytes.splice (idx * 8) 8 (ofBe value 8))) i
      = if i = idx then value else readStagedL1Entry sg i := by
  split
  next heq =>
    rw [heq]
    exact be_splice_ofBe hvalue
  · exact be_splice_outside (by omega)

include hst

/-- Patching the L1 entry of a table in the window changes nothing of the image. -/
theorem Store.patchL1 (hvalue : value < 2 ^ 64) (hfind : st.findSlot idx = some v) :
    let sg' := sg.withL1 (sg.l1.bytes.splice (idx * 8) 8 (ofBe value 8))
    Store fixed held st sg' disk ∧ effHost st sg' = effHost st sg ∧
      effTab st sg' disk = effTab st sg disk := by
  intro sg'
  have hhost : effHost st sg' = effHost st sg := by
    funext i
    cases hw : st.findSlot i with
    | some w => rw [effHost_some hw, effHost_some hw]
    | none =>
      have hne : i ≠ idx := by
        rintro rfl
        rw [hfind] at hw
        cases hw
      rw [effHost_none hw, effHost_none hw, readStagedL1Entry_patch hvalue, if_neg hne]
  have htab : effTab st sg' disk = effTab st sg disk := by
    funext i j
    cases hw : st.findSlot i with
    | some w =>
      rw [effTab_some hw, effTab_some hw]
      rfl
    | none => rw [effTab_none hw, effTab_none hw, hhost]
  refine ⟨⟨hst.fit, hst.inj, hst.slot, hst.clean, ?_⟩, hhost, htab⟩
  rw [hhost, htab]
  exact hst.ledger

include h in
/-- Patching an entry of a table in the window. -/
theorem Store.patchL2 (hfit : BlocksFit st' sg.refblocks) (hfind : st.findSlot i = some v)
    (hd : (st'.l2Slots v).dirty = true)
    (hdirty : ∀ w, w ≠ v → (st'.l2Slots w).dirty = (st.l2Slots w).dirty)
    (hj : j < st.geometry.entriesPerL2) (hvalue : value < 2 ^ 64)
    (hal : EntryAligned st.geometry.clusterSize value)
    (hheld : ∀ c, held' c + entryRefs st.geometry.clusterBits st.geometry.clusterSize value c
      = held c + entryRefs st.geometry.clusterBits st.geometry.clusterSize
      (effTab st sg disk i j) c)
    (hcov : ∀ c, counted st.geometry sg.refblocks ≤ c →
      entryRefs st.geometry.clusterBits st.geometry.clusterSize value c = 0) :
    let sg' := sg.withWindow (sg.l2Window.bytes.splice (v * st.geometry.clusterSize + j * 8)
      8 (ofBe value 8))
    Store fixed held' st' sg' disk ∧ effHost st' sg' = effHost st sg ∧
      effTab st' sg' disk i j = value ∧ ∀ i' j', j' < st.geometry.entriesPerL2 → (i', j') ≠ (i, j) →
        effTab st' sg' disk i' j' = effTab st sg disk i' j' := by
  intro sg'
  have hentry := hst.fit.geo.entry_le hj
  obtain ⟨hv, hvalid, hidx⟩ := findSlot_some hfind
  have hhost : effHost st' sg' = effHost st sg := by
    rw [h.host_eq]
    rfl
  have hsame : effTab st' sg' disk = effTab st sg' disk := h.tab_eq sg' disk
  have hnew : effTab st' sg' disk i j = value := by
    rw [hsame, effTab_some hfind]
    exact be_splice_ofBe hvalue
  have hother : ∀ i' j', j' < st.geometry.entriesPerL2 → (i', j') ≠ (i, j) →
      effTab st' sg' disk i' j' = effTab st sg disk i' j' := by
    intro i' j' hj' hne
    rw [hsame]
    cases hw : st.findSlot i' with
    | none =>
      rw [effTab_none hw, effTab_none hw]
      rfl
    | some w =>
      rw [effTab_some hw, effTab_some hw]
      refine be_splice_outside ?_
      refine entry_apart (hst.fit.geo.entry_le hj') hentry ?_
      by_cases hwv : w = v
      · refine .inr fun hjj => hne ?_
        obtain ⟨-, -, hidx'⟩ := findSlot_some hw
        rw [← hidx', ← hidx, hwv, hjj]
      · exact .inl hwv
  refine ⟨⟨hfit, h.inj hst.inj, fun w hw hvw => ?_, fun w hw hvw hdw k hk => ?_, ?_⟩,
    hhost, hnew, hother⟩
  · rw [h.config] at hw
    rw [h.valid] at hvw
    rw [h.l1Idx, h.hostOffset, h.geometry]
    exact hst.slot w hw hvw
  · rw [h.config] at hw
    rw [h.valid] at hvw
    rw [h.geometry] at hk ⊢
    have hwv : w ≠ v := by
      rintro rfl
      rw [hd] at hdw
      cases hdw
    rw [h.hostOffset, ← hst.clean w hw hvw (hdirty w hwv ▸ hdw) k hk]
    refine splice_outside ?_
    have := slot_apart st.geometry.clusterSize hwv
    omega
  · rw [h.geometry]
    refine hst.ledger.setEntry (i := i) (j := j) ?_ hj (by rw [hnew]; exact hal)
      (fun i' _ => by rw [hhost]) (fun i' _ j' hj' hne => hother i' j' hj' hne)
      (by rw [hnew]; exact hheld) (by rw [hnew]; exact hcov)
    rw [← hidx]
    exact (hst.slot v hv hvalid).1

end

end Instar.Write
