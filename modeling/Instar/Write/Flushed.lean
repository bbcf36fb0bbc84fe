import Instar.Write.Sync

/-!
# What a flush does to the image

Between requests the image is `Resting`: its references are counted, every table in the window is
named by the staged L1, and the staged metadata is in step with the disk.  The moves of a flush keep
that and leave the virtual disk as it is; at the end nothing is dirty, so that the disk by itself
holds the image.
-/

namespace Instar.Write

open Instar.Qcow2 Instar.RefCount Sys WriteState

/-- An image with no request in progress. -/
structure Resting (fixed : Nat → Nat) (n : Nat) (host : Nat → Nat) (st : WriteState)
    (sg : StagedRegions) (disk : ByteMap) : Prop where
  store : Store fixed (fun _ => 0) st sg disk
  linked : ∀ v < st.config.l2Slots, (st.l2Slots v).valid = true → Linked st sg v
  synced : Synced n host st sg disk

section

variable {bits : Nat} {inflate : Inflate bits} {under : Nat → UInt8} {fixed held host : Nat → Nat}
  {n : Nat} {st st' : WriteState} {sg : StagedRegions} {disk disk' : ByteMap}

/-! ## Writing clusters that the active L1 does not refer to -/

theorem Store.rewrite (hst : Store fixed held st sg disk) (hbits : st.geometry.clusterBits = bits)
    (hdisk : ∀ b, refTotal st.geometry (effHost st sg) (effTab st sg disk)
      (b / st.geometry.clusterSize) ≠ 0 → disk' b = disk b) :
    Store fixed held st sg disk' ∧ SameImage inflate under st sg disk st sg disk' := by
  have hname : ∀ p ∈ refPointers st.geometry, ∀ b,
      refNames st.geometry (effHost st sg) (effTab st sg disk) p (b / st.geometry.clusterSize) ≠ 0 →
      disk' b = disk b := by
    intro p hp b hb
    exact hdisk b fun hzero => hb (names_eq_zero hp hzero)
  obtain ⟨hst', htab⟩ : Store fixed held st sg disk' ∧ ∀ i < st.geometry.l1Size,
      ∀ j < st.geometry.entriesPerL2, effTab st sg disk' i j = effTab st sg disk i j := by
    refine hst.writeDisk fun i hi _ hne k hk => ?_
    refine hname (i, st.geometry.entriesPerL2) (table_mem hi) _ ?_
    rw [div_of_aligned hst.fit.geo.size_pos (hst.ledger.hostOk i hi).aligned hk, refNames_table]
    simp [tableRef, hne]
  refine ⟨hst', hst.image_of_write hbits htab fun i hi j hj => .inr fun b hb => ?_⟩
  refine hname (i, j) (entry_mem hi hj) b ?_
  rwa [refNames_entry hj]

variable (h : Resting fixed n host st sg disk)

include h

variable (hhome : Home st.geometry fixed n host)

include hhome in
theorem Resting.flushed_free {c : Nat} (hc : Flushed st.geometry n host c) :
    refTotal st.geometry (effHost st sg) (effTab st sg disk) c = 0 := by
  obtain ⟨hlt, hone⟩ := h.synced.sole c hc
  have hcount := h.store.ledger.count c hlt
  have := hhome.fixed_ne c hc
  omega

/-! ## The moves -/

/-- A state that differs in nothing the image depends on. -/
theorem Resting.same (hbase : SameBase st st') (hslots : st'.l2Slots = st.l2Slots)
    (hl1 : st'.l1Dirty = st.l1Dirty) (hblocks : st'.refblockDirty = st.refblockDirty) :
    Resting fixed n host st' sg disk := by
  have hsame := hbase.tables hslots
  refine ⟨h.store.same hsame (hbase.fit h.store.fit) (by rw [hslots]; exact fun _ => id),
    fun v hv hvalid => ?_, ?_⟩
  · rw [hsame.linked rfl]
    rw [hbase.config] at hv
    rw [hslots] at hvalid
    exact h.linked v hv hvalid
  · exact h.synced.same_state hbase.geometry hl1 hblocks

include hhome

variable (hbits : st.geometry.clusterBits = bits)

include hbits

theorem Resting.table {v : Nat} {slot : L2Slot} (hv : v < st.config.l2Slots)
    (hvalid : (st.l2Slots v).valid = true) (hd : (st.l2Slots v).dirty = true)
    (hdisk : disk' = disk.splice (st.l2Slots v).hostOffset st.geometry.clusterSize
      (sg.l2Window.bytes.drop (v * st.geometry.clusterSize))) (hbase : SameBase st st')
    (hslots : st'.l2Slots = Function.update st.l2Slots v slot)
    (hslot : slot = { st.l2Slots v with dirty := false }) (hl1 : st'.l1Dirty = st.l1Dirty)
    (hblocks : st'.refblockDirty = st.refblockDirty) :
    Resting fixed n host st' sg disk' ∧ SameImage inflate under st sg disk st' sg disk' := by
  have hsame : SameTables st st' := by
    refine sameTables_update hbase.geometry hbase.config hslots ?_ ?_ ?_ <;> rw [hslot]
  obtain ⟨hst, -, hclean⟩ := h.store.writeback hv hvalid hd hdisk
  have hsynced : Synced n host st sg disk' := by
    refine h.synced.on_disk h.store.fit.geo hhome fun b hb => ?_
    rw [hdisk]
    show (disk.splice ((st.l2Slots v).hostOffset + 0) st.geometry.clusterSize _) b = disk b
    refine splice_cluster_outside h.store.fit.geo.size_pos (h.store.slot v hv hvalid).2.ok.aligned
      (by omega) ?_
    intro heq
    rw [heq] at hb
    exact hhome.fixed_ne _ hb (h.store.slot_alone hv hvalid).1
  refine ⟨⟨?_, fun w hw hvw => ?_, ?_⟩, ?_⟩
  · refine hst.cleaned hsame (hbase.fit h.store.fit) fun w _ _ hdw => ?_
    rw [hslots] at hdw
    by_cases hw : w = v
    · rw [hw]
      exact .inr hclean
    · rw [Function.update_of_ne hw] at hdw
      exact .inl hdw
  · rw [hsame.linked rfl]
    rw [hsame.config] at hw
    rw [hsame.valid] at hvw
    exact h.linked w hw hvw
  · exact hsynced.same_state hbase.geometry hl1 hblocks
  · exact (h.store.writeback_image hbits hv hvalid hd hdisk).trans
      (hsame.image h.store.fit.geo rfl rfl)

/-- Writing clusters that a flush rewrites. -/
theorem Resting.rewritten
    (hdisk : ∀ b, ¬ Flushed st.geometry n host (b / st.geometry.clusterSize) → disk' b = disk b)
    (hbase : SameBase st st') (hslots : st'.l2Slots = st.l2Slots)
    (hsynced : Synced n host st' sg disk') :
    Resting fixed n host st' sg disk' ∧ SameImage inflate under st sg disk st' sg disk' := by
  have hsame := hbase.tables hslots
  obtain ⟨hst, himage⟩ : Store fixed (fun _ => 0) st sg disk' ∧
      SameImage inflate under st sg disk st sg disk' :=
    h.store.rewrite hbits fun b hb => hdisk b fun hc => hb (h.flushed_free hhome hc)
  refine ⟨⟨hst.same hsame (hbase.fit h.store.fit) (by rw [hslots]; exact fun _ => id),
    fun v hv hvalid => ?_, hsynced⟩, himage.trans (hsame.image h.store.fit.geo rfl rfl)⟩
  rw [hsame.linked rfl]
  rw [hbase.config] at hv
  rw [hslots] at hvalid
  exact h.linked v hv hvalid

/-- Writing the L1. -/
theorem Resting.l1
    (hdisk : disk' = disk.splice st.geometry.l1TableOffset (st.geometry.l1Size * 8) sg.l1.bytes)
    (hbase : SameBase st st') (hslots : st'.l2Slots = st.l2Slots)
    (hblocks : st'.refblockDirty = st.refblockDirty) :
    Resting fixed n host st' sg disk' ∧ SameImage inflate under st sg disk st' sg disk' := by
  have hwf := h.store.fit.geo
  have hcluster : ∀ b, ¬ (∃ k < st.geometry.l1Size * 8, st.geometry.l1TableOffset + k = b) →
      disk' b = disk b := by
    intro b hb
    rw [hdisk]
    refine ByteMap.splice_outside ?_
    by_contra hin
    exact hb ⟨b - st.geometry.l1TableOffset, by omega, by omega⟩
  refine h.rewritten hhome hbits (fun b hb => hcluster b ?_) hbase hslots ?_
  · rintro ⟨k, hk, rfl⟩
    exact hb (.inl ⟨k, hk, rfl⟩)
  · obtain ⟨hcount, hhosts, -, hblocks', hsole⟩ := h.synced
    rw [← hbase.geometry] at hcount hsole
    refine ⟨hcount, hhosts, fun _ k hk => ?_, fun i hi hclean k hk => ?_, hsole⟩
    · rw [hbase.geometry] at hk ⊢
      rw [hdisk, ByteMap.splice_inside hk]
    · rw [hbase.geometry] at hk ⊢
      rw [hblocks] at hclean
      rw [hblocks' i hi hclean k hk]
      by_cases hhost : host i = 0
      · rw [if_pos hhost, if_pos hhost]
      · rw [if_neg hhost, if_neg hhost, hcluster]
        rintro ⟨k', hk', heq⟩
        refine hhome.apart i hi hhost k' hk' ?_
        rw [heq, div_of_aligned hwf.size_pos (hhome.aligned i hi) hk]

theorem Resting.block {idx : Nat} (hidx : idx < n) (hne : host idx ≠ 0)
    (hdisk : disk' = disk.splice (host idx) st.geometry.clusterSize
      (sg.refblocks.bytes.drop (idx * st.geometry.clusterSize))) (hbase : SameBase st st')
    (hslots : st'.l2Slots = st.l2Slots) (hl1 : st'.l1Dirty = st.l1Dirty)
    (hblocks : st'.refblockDirty = Function.update st.refblockDirty idx false) :
    Resting fixed n host st' sg disk' ∧ SameImage inflate under st sg disk st' sg disk' := by
  have hwf := h.store.fit.geo
  have hcluster : ∀ b, b / st.geometry.clusterSize ≠ host idx / st.geometry.clusterSize →
      disk' b = disk b := by
    intro b hb
    rw [hdisk]
    show (disk.splice (host idx + 0) st.geometry.clusterSize _) b = disk b
    exact splice_cluster_outside hwf.size_pos (hhome.aligned idx hidx) (by omega) hb
  refine h.rewritten hhome hbits (fun b hb => hcluster b ?_) hbase hslots ?_
  · intro heq
    rw [heq] at hb
    exact hb (.inr ⟨idx, hidx, hne, rfl⟩)
  · obtain ⟨hcount, hhosts, hl1', hblocks', hsole⟩ := h.synced
    rw [← hbase.geometry] at hcount hsole
    refine ⟨hcount, hhosts, fun hclean k hk => ?_, fun i hi hclean k hk => ?_, hsole⟩
    · rw [hbase.geometry] at hk ⊢
      rw [hl1] at hclean
      rw [hcluster _ (hhome.apart idx hidx hne k hk)]
      exact hl1' hclean k hk
    · rw [hbase.geometry] at hk ⊢
      rw [hblocks] at hclean
      by_cases hi' : i = idx
      · subst hi'
        rw [if_neg hne, hdisk, ByteMap.splice_inside hk]
        rfl
      · rw [Function.update_of_ne hi'] at hclean
        rw [hblocks' i hi hclean k hk]
        by_cases hhost : host i = 0
        · rw [if_pos hhost, if_pos hhost]
        · rw [if_neg hhost, if_neg hhost, hcluster]
          rw [div_of_aligned hwf.size_pos (hhome.aligned i hi) hk]
          exact fun heq => hi' (hhome.inj i hi idx hidx hhost hne heq)

end

/-! ## A whole flush -/

/-- A byte that neither a write nor a flush changes: its cluster has a use outside the active L1,
and it is no metadata that a flush rewrites. -/
def Untouched (geo : Geometry) (fixed : Nat → Nat) (n : Nat) (host : Nat → Nat) (b : Nat) : Prop :=
  fixed (b / geo.clusterSize) ≠ 0 ∧ ¬ Flushed geo n host (b / geo.clusterSize)

/-- A system between requests, over an image whose references are counted. -/
structure Settled (bits : Nat) (under : Nat → UInt8) (fixed : Nat → Nat) (n : Nat)
    (host : Nat → Nat) (sys : Sys) : Prop where
  ready : Ready sys
  clear : sys.state.pendingZeroClearAll = sys.state
  bits : sys.state.geometry.clusterBits = bits
  root : fixed 0 ≠ 0
  backing : sys.state.hasBacking = false → ∀ x, under x = 0
  home : Home sys.state.geometry fixed n host
  resting : Resting fixed n host sys.state sys.regions.staged sys.disk

section

variable {bits : Nat} {inflate : Inflate bits} {under : Nat → UInt8} {fixed host : Nat → Nat}
  {n : Nat} {sys sys' : Sys} {prog next : FlushProgress} {step : Option Step}
  {update : WriteState → WriteState}

/-- A barrier that is due changes no byte. -/
theorem Sys.move_barrier {keep : Nat → Prop}
    (hsys : sys.move (dueBarrier sys.state) id sys.regions.staged.refblocks = some sys') :
    sys'.regions.staged = sys.regions.staged ∧ sys'.disk = sys.disk ∧
      sys.devices.Spares sys.state.config.device keep sys'.devices := by
  have hconfig : sys'.state.config = sys.state.config :=
    (move_setup (fun _ => ⟨rfl, rfl, rfl, rfl, rfl, rfl⟩) hsys).config
  have hstaged := move_quiet (fun s hs => (dueBarrier_quiet s hs).1) hsys
  unfold disk
  rw [hconfig]
  rcases move_cases hsys with ⟨-, -, hdevs⟩ | ⟨s, hs, hexec⟩
  · rw [hdevs]
    exact ⟨hstaged, rfl, .refl _ _ _⟩
  · obtain rfl : s = barrierStep sys.state.config.device := by
      unfold dueBarrier at hs
      split at hs <;> cases hs
      rfl
    refine ⟨hstaged, (execOne_barrier hexec).2.2, execOne_devices hexec rfl fun off len h => ?_⟩
    cases h

theorem FlushMove.base (hmove : FlushMove sys.state sys.regions.staged prog step update next)
    (hsys : sys.move step update sys.regions.staged.refblocks = some sys') :
    SameBase sys.state sys'.state := by
  rw [move_state hsys]
  cases hmove <;>
    constructor <;> simp [pendingZeroClearAll, setSlot, refblockDirtyClear]

/-- What flushing has done: the image is the same and rests, and no byte changed that has a use
outside the active L1 and the flushed metadata. -/
structure Kept {bits : Nat} (inflate : Inflate bits) (under : Nat → UInt8) (fixed : Nat → Nat)
    (n : Nat) (host : Nat → Nat) (sys sys' : Sys) : Prop where
  resting : Resting fixed n host sys'.state sys'.regions.staged sys'.disk
  image : SameImage inflate under sys.state sys.regions.staged sys.disk sys'.state
    sys'.regions.staged sys'.disk
  spares : sys.devices.Spares sys.state.config.device (Untouched sys.state.geometry fixed n host)
    sys'.devices

theorem Settled.barrier (h : Settled bits under fixed n host sys)
    (hsys : sys.move (dueBarrier sys.state) id sys.regions.staged.refblocks = some sys') :
    Kept inflate under fixed n host sys sys' := by
  obtain ⟨hstaged, hdisk, hspares⟩ := move_barrier hsys
  have hstate := move_state hsys
  have hbase : SameBase sys.state sys'.state := by
    rw [hstate]
    exact ⟨countStep_geometry, countStep_config, countStep_allocCursor⟩
  have hslots : sys'.state.l2Slots = sys.state.l2Slots := by
    rw [hstate]
    exact countStep_l2Slots
  refine ⟨?_, ?_, hspares⟩
  · rw [hstaged, hdisk]
    refine h.resting.same hbase hslots ?_ ?_ <;> rw [hstate]
    · exact countStep_l1Dirty
    · exact countStep_refblockDirty
  · rw [hstaged, hdisk]
    exact (hbase.tables hslots).image h.ready.geo rfl rfl

/-- A move of a flush keeps the image. -/
theorem Settled.flush_move (h : Settled bits under fixed n host sys)
    (hmove : FlushMove sys.state sys.regions.staged prog step update next)
    (hsys : sys.move step update sys.regions.staged.refblocks = some sys') :
    Kept inflate under fixed n host sys sys' := by
  have hwf := h.ready.geo
  have hrest := h.resting
  have hbase := hmove.base hsys
  have hframe := hmove.frame
  have hstaged : sys'.regions.staged = sys.regions.staged :=
    move_quiet (fun s hs => (hmove.quiet s hs).1) hsys
  have hstate := move_state hsys
  -- stages that write
  have hwrite : Resting fixed n host sys'.state sys.regions.staged sys'.disk ∧
        SameImage inflate under sys.state sys.regions.staged sys.disk sys'.state
          sys.regions.staged sys'.disk →
      sys.devices.Spares sys.state.config.device (Untouched sys.state.geometry fixed n host)
        sys'.devices → Kept inflate under fixed n host sys sys' := by
    rintro ⟨hrest', himage⟩ hspares
    exact ⟨hstaged ▸ hrest', hstaged ▸ himage, hspares⟩
  -- stages that neither write nor wait
  have hnone : sys' = ⟨sys.state.pendingZeroClearAll, sys.regions, sys.devices⟩ →
      Kept inflate under fixed n host sys sys' := by
    rintro rfl
    exact ⟨hrest.same hbase rfl rfl rfl, (hbase.tables rfl).image hwf rfl rfl, .refl _ _ _⟩
  cases hmove with
  | first => exact h.barrier hsys
  | l1Barrier => exact h.barrier hsys
  | rbBarrier => exact h.barrier hsys
  | tables | l1Clean | rbClean | blocks => exact hnone (move_none hsys)
  | @table idx hstage hidx =>
    obtain ⟨-, hv, hvalid, hd, -⟩ := nextDirtySlot_some hidx
    obtain ⟨hexec, hdisk⟩ := move_some hframe hsys
    obtain ⟨-, -, -, hwritten⟩ := execOne_writeback hexec
    have hslot := (hrest.store.slot idx hv hvalid).2
    refine hwrite ?_ (execOne_devices hexec rfl ?_)
    · refine hrest.table h.home h.bits hv hvalid hd (hdisk.trans hwritten) hbase ?_ rfl ?_ ?_ <;>
        rw [hstate] <;> simp [setSlot]
    intro off len htarget b hb hin
    cases htarget
    refine hb.1 ?_
    rw [div_of_mem hwf.size_pos hslot.ok.aligned hin]
    exact (hrest.store.slot_alone hv hvalid).1
  | l1 hstage =>
    obtain ⟨hexec, hdisk⟩ := move_some hframe hsys
    obtain ⟨-, -, hwritten⟩ := execOne_l1Write hexec
    refine hwrite ?_ (execOne_devices hexec rfl ?_)
    · refine hrest.l1 h.home h.bits (hdisk.trans hwritten) hbase ?_ ?_ <;> rw [hstate] <;> simp
    intro off len htarget b hb hin
    cases htarget
    have hin' : sys.state.geometry.l1TableOffset ≤ b ∧
        b < sys.state.geometry.l1TableOffset + sys.state.geometry.l1Size * 8 := hin
    refine hb.2 (.inl ⟨b - sys.state.geometry.l1TableOffset, by omega, ?_⟩)
    rw [Nat.add_sub_cancel' hin'.1]
  | @block idx hstage hidx hblock hhost =>
    obtain ⟨hexec, hdisk⟩ := move_some hframe hsys
    obtain ⟨-, -, hwritten⟩ := execOne_refblockWrite hexec
    have hidx' : idx < n := hrest.synced.count ▸ hblock
    have heq : sys.regions.staged.refcountTable.be (idx * 8) 8 &&& l1OffsetMask = host idx :=
      hrest.synced.hosts idx hidx'
    rw [heq] at hwritten hhost hexec
    refine hwrite ?_ (execOne_devices hexec rfl ?_)
    · refine hrest.block h.home h.bits hidx' hhost.1 (hdisk.trans hwritten) hbase ?_ ?_ ?_ <;>
        rw [hstate] <;> simp [refblockDirtyClear]
    intro off len htarget b hb hin
    cases htarget
    exact hb.2 (.inr ⟨idx, hidx', hhost.1,
      (div_of_mem hwf.size_pos (h.home.aligned idx hidx') hin).symm⟩)

end

end Instar.Write
