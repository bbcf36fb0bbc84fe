import Instar.Write.Window
import Instar.Write.Counts

/-!
# Window invariance

The write and flush actions meet the conditions of `Windowed`, so a run through windows of any
capacity is the eager run.  The point for writes is that a stage reads one L1 and one L2 entry, and
that neither has a patch queued in the same window: clusters are visited in ascending order, a
loaded slot closes the window, and a slot whose zeroing is queued is read as zero.
-/

namespace Instar.Write

open Instar.Qcow2 ByteMap Function WriteState WriteProgress Sys ClusterStage

/-! ## Shapes of buffers -/

/-- Executing steps never changes the size of a buffer. -/
structure SameShape (r r' : Regions) : Prop where
  cluster : r'.clusterSize = r.clusterSize
  l1 : r'.staged.l1.len = r.staged.l1.len
  window : r'.staged.l2Window.len = r.staged.l2Window.len
  table : r'.staged.refcountTable.len = r.staged.refcountTable.len
  blocks : r'.staged.refblocks.len = r.staged.refblocks.len

variable {r r' : Regions} {devs devs' : Devices} {sys sys' : Sys} {rb : Buffer} {st : WriteState}
  {sg : StagedRegions} {capacity : Nat} {prog : WriteProgress} {update : WriteState → WriteState}
  {step : Option Step}

theorem SameShape.refl (r : Regions) : SameShape r r := ⟨rfl, rfl, rfl, rfl, rfl⟩

/-- A move in terms of what its step does to the buffers and devices. -/
theorem Sys.move_cases (h : sys.move step update rb = some sys') :
    (step = none ∧ sys'.regions = sys.regions.setRefblocks rb ∧ sys'.devices = sys.devices) ∨
    ∃ s, step = some s ∧
      execOne (sys.regions.setRefblocks rb) sys.devices s = some (sys'.regions, sys'.devices) := by
  unfold move at h
  cases step with
  | none =>
    cases h
    exact .inl ⟨rfl, rfl, rfl⟩
  | some s =>
    cases hexec : execOne (sys.regions.setRefblocks rb) sys.devices s with
    | none => simp [hexec] at h
    | some p =>
      simp only [hexec, Option.some.injEq] at h
      exact .inr ⟨s, rfl, by rw [← h]; exact hexec⟩

theorem Sys.move_shape
    (h : sys.move step update rb = some sys') :
    SameShape (sys.regions.setRefblocks rb) sys'.regions := by
  rcases move_cases h with ⟨-, hregions, -⟩ | ⟨s, -, hexec⟩
  · rw [hregions]
    exact SameShape.refl _
  · rcases execOne_regions hexec with hsame | ⟨-, bytes, hset⟩
    · rw [hsame]
      exact SameShape.refl _
    · rw [hset]
      cases s.region <;> exact ⟨rfl, rfl, rfl, rfl, rfl⟩

theorem validateStaged_congr {st' : WriteState} {sg' : StagedRegions}
    (hgeo : st'.geometry = st.geometry)
    (hconfig : st'.config = st.config) (hl1 : sg'.l1.len = sg.l1.len)
    (hwindow : sg'.l2Window.len = sg.l2Window.len)
    (htable : sg'.refcountTable.len = sg.refcountTable.len)
    (hblocks : sg'.refblocks.len = sg.refblocks.len) :
    validateStaged st' sg' capacity = validateStaged st sg capacity := by
  simp only [validateStaged, hgeo, hconfig, hl1, hwindow, htable, hblocks]

theorem validateStaged_capacity (hcap : capacity ≠ 0) :
    validateStaged st sg capacity = validateStaged st sg 1 := by
  simp [validateStaged, hcap]

/-! ## Writes -/

/-- A step that changes no staged buffer. -/
def Step.Quiet (step : Step) : Prop :=
  match step.kind with
  | .writeRange | .zeroRange | .fillRange | .writebackCluster | .barrier _ => True
  | _ => step.region = .bounce

theorem execOne_quiet {step : Step} (hq : step.Quiet) (h : execOne r devs step = some (r', devs')) :
    r'.staged = r.staged := by
  rcases execOne_regions h with rfl | ⟨hstores, bytes, rfl⟩
  · rfl
  · have hbounce : step.region = .bounce := by
      unfold Step.stores at hstores
      unfold Step.Quiet at hq
      cases hkind : step.kind <;> simp_all
    rw [hbounce]
    rfl

namespace WriteProgress

/-- The first virtual cluster whose L2 entry the write can still read. -/
def limit (geo : Geometry) (prog : WriteProgress) : Nat :=
  prog.cur / geo.clusterSize + if prog.stage = .cowDataDecrement then 1 else 0

/-- The slot has a load queued, so its bytes are not there yet. -/
def Loading (prog : WriteProgress) : Prop :=
  prog.stage = .cowL2Repoint ∨ prog.stage = .cowL2Decrement

/-- L1 entries the write can still read. -/
def ReadsL1 (st : WriteState) (prog : WriteProgress) (i : Nat) : Prop :=
  prog.l1Idx st.geometry < i ∨ i = prog.l1Idx st.geometry ∧ (prog.stage = .slotFree ∨
      prog.stage = .enter ∧ st.findSlot (prog.l1Idx st.geometry) = none)

/-- Unless the request ends there, advancing leads to the start of the next cluster. -/
theorem advance_cluster {geo : Geometry} (hgeo : geo.Wf) {prog : WriteProgress}
    (hlt : (prog.advance geo).consumed < prog.len) :
    (prog.advance geo).cur / geo.clusterSize = prog.cur / geo.clusterSize + 1 := by
  have hin : prog.inOff geo < geo.clusterSize := Nat.mod_lt _ hgeo.size_pos
  have hlt' : prog.consumed + prog.winLen geo < prog.len := hlt
  have hwin : prog.winLen geo = geo.clusterSize - prog.inOff geo := by
    unfold winLen at hlt' ⊢
    omega
  have hcur : (prog.advance geo).cur = geo.clusterSize * (prog.cur / geo.clusterSize + 1) := by
    show prog.voff + (prog.consumed + prog.winLen geo) = _
    have hsplit : geo.clusterSize * (prog.cur / geo.clusterSize) + prog.inOff geo = prog.cur :=
      Nat.div_add_mod _ _
    rw [mul_add, hwin]
    unfold cur at hsplit ⊢
    omega
  rw [hcur, Nat.mul_div_cancel_left _ hgeo.size_pos]

theorem advance_l1Idx_le (geo : Geometry) (prog : WriteProgress) :
    prog.l1Idx geo ≤ (prog.advance geo).l1Idx geo := by
  apply Nat.div_le_div_right
  show prog.voff + prog.consumed ≤ prog.voff + (prog.consumed + prog.winLen geo)
  omega

end WriteProgress

/-- A write in mid-window, next to the system that has executed everything planned so far: the
entries the write can still read are the same in both. -/
structure WriteRel (voff len : Nat) (data : DataSource) (pl : Planner) (prog : WriteProgress)
    (sys : Sys) : Prop where
  keep : WriteKeep pl.state prog
  idle : pl.state.pending = .idle
  state : sys.state = pl.state.pendingZeroClearAll
  blocks : sys.regions.staged.refblocks = pl.staged.refblocks
  cluster : sys.regions.clusterSize = pl.state.geometry.clusterSize
  request : prog.voff = voff ∧ prog.len = len ∧ prog.data = data
  granted : admitWrite pl.state.geometry voff len data = .ok (some (.start voff len data))
  valid : validateStaged sys.state sys.regions.staged 1 = .ok ()
  l1 : prog.consumed < prog.len → ∀ i, prog.ReadsL1 pl.state i →
    readStagedL1Entry sys.regions.staged i = readStagedL1Entry pl.staged i
  l2 : prog.consumed < prog.len → ∀ v < pl.state.config.l2Slots,
    (pl.state.l2Slots v).valid = true → ∀ j < pl.state.geometry.entriesPerL2,
    prog.limit pl.state.geometry ≤ (pl.state.l2Slots v).l1Idx * pl.state.geometry.entriesPerL2 + j →
    ¬ (v = prog.slot ∧ prog.Loading) →
    sys.regions.staged.l2Window.be (v * pl.state.geometry.clusterSize + j * 8) 8
      = readStagedL2Entry pl.state pl.staged v j

/-- A write between windows. -/
structure WriteStart (voff len : Nat) (data : DataSource) (sys : Sys) (prog : WriteProgress) :
    Prop where
  keep : WriteKeep sys.state prog
  idle : sys.state.pending = .idle
  cluster : sys.regions.clusterSize = sys.state.geometry.clusterSize
  request : prog.voff = voff ∧ prog.len = len ∧ prog.data = data
  granted : admitWrite sys.state.geometry voff len data = .ok (some (.start voff len data))
  valid : validateStaged sys.state sys.regions.staged 1 = .ok ()

theorem WriteKeep.clear (h : WriteKeep st prog) : WriteKeep st.pendingZeroClearAll prog :=
  ⟨h.geo, h.slots, h.inj, h.active, h.freeSlot, h.heldSlot⟩

theorem WriteStart.rel {voff len : Nat} {data : DataSource} (h : WriteStart voff len data sys prog)
    (hclear : sys.state.pendingZeroClearAll = sys.state) :
    WriteRel voff len data (sys.planner capacity) prog sys := by
  refine ⟨h.keep, h.idle, hclear.symm, rfl, h.cluster, h.request, h.granted, h.valid,
    fun _ i _ => rfl, ?_⟩
  intro _ v _ _ j _ _ _
  have hpz : sys.state.slotPendingZero v = false := by
    rw [← hclear]
    rfl
  show sys.regions.staged.l2Window.be (v * sys.state.geometry.clusterSize + j * 8) 8
    = readStagedL2Entry sys.state sys.regions.staged v j
  simp [readStagedL2Entry, hpz]

section

variable {voff len : Nat} {data : DataSource} {pl : Planner} {prog held next : WriteProgress}
  {sys sys' : Sys} {step : Option Step} {update : WriteState → WriteState} {rb : Buffer}
  {close : Bool} {l1Raw l2Raw : Nat} {v : Nat} (h : WriteRel voff len data pl prog sys)

include h

theorem WriteRel.start : WriteStart voff len data sys prog := by
  refine ⟨?_, ?_, ?_, h.request, ?_, h.valid⟩
  · rw [h.state]
    exact h.keep.clear
  · rw [h.state]
    exact h.idle
  · rw [h.cluster, h.state]
    rfl
  · rw [h.state]
    exact h.granted

/-- The stages read the same from the staged buffers as from the executed ones. -/
theorem WriteRel.act_eq :
    writeActOf sys.state sys.regions.staged prog = writeActOf pl.state pl.staged prog := by
  by_cases hlt : prog.consumed < prog.len
  case neg => simp [writeActOf, writeAct, hlt]
  have hgeo : sys.state.geometry = pl.state.geometry := by rw [h.state]; rfl
  have hstate : ∀ a b, writeAct sys.state sys.regions.staged.refblocks a b prog
      = writeAct pl.state pl.staged.refblocks a b prog := by
    intro a b
    rw [h.state, h.blocks]
    rfl
  unfold writeActOf
  rw [hstate, hgeo]
  cases hstage : prog.stage with
  | slotFree =>
    rw [h.l1 hlt (prog.l1Idx pl.state.geometry) (.inr ⟨rfl, .inl hstage⟩)]
    simp [writeAct, hstage, hlt]
  | slotReady =>
    obtain ⟨hslot, hvalid, hidx⟩ := h.keep.heldSlot (by simp [hstage, onSlot])
    have hentry : readStagedL2Entry sys.state sys.regions.staged prog.slot
        (prog.l2Idx pl.state.geometry)
        = readStagedL2Entry pl.state pl.staged prog.slot (prog.l2Idx pl.state.geometry) := by
      rw [← h.l2 hlt prog.slot hslot hvalid (prog.l2Idx pl.state.geometry)
        (Nat.mod_lt _ h.keep.geo.entries_pos) ?_ ?_]
      · rw [h.state]
        simp [readStagedL2Entry, pendingZeroClearAll]
      · rw [hidx]
        simp only [limit, hstage, reduceCtorEq, if_false, add_zero]
        exact (h.keep.geo.cluster_eq prog.cur).ge
      · simp [WriteProgress.Loading, hstage]
    rw [hentry]
    simp [writeAct, hstage, hlt]
  | _ => simp [writeAct, hstage, hlt]

theorem WriteRel.after_state
    (hmove : WriteMove pl.state pl.staged.refblocks l1Raw l2Raw prog step held update rb next close)
    (hsys : sys.move step update rb = some sys') :
    sys'.state = (update (pl.state.countStep step)).pendingZeroClearAll := by
  rw [move_state hsys, h.state, hmove.clear (pl.state.countStep step)]
  cases step <;> rfl

variable (hlt : prog.consumed < prog.len)

include hlt

section

variable (hmove : WriteMove pl.state pl.staged.refblocks l1Raw l2Raw prog step held
  update rb next close) (hsys : sys.move step update rb = some sys')

include hmove hsys

/-- Any move leads to a system from which the write can be resumed. -/
theorem WriteRel.after : WriteStart voff len data sys' next := by
  have hframe := hmove.frame (pl.state.countStep step)
  have hstate := h.after_state hmove hsys
  have hgeo : sys'.state.geometry = pl.state.geometry := by
    rw [hstate]
    exact hframe.geometry.trans countStep_geometry
  have hconfig : sys'.state.config = pl.state.config := by
    rw [hstate]
    exact hframe.config.trans countStep_config
  have hshape := move_shape hsys
  refine ⟨?_, ?_, ?_, ?_, ?_, ?_⟩
  · rw [hstate]
    exact (hmove.keep h.keep hlt).clear
  · rw [hstate, ← h.idle]
    refine Eq.trans hframe.pending ?_
    cases step <;> rfl
  · rw [hshape.cluster, hgeo, ← h.cluster]
    rfl
  · obtain ⟨hvoff, hlen, hdata⟩ := hmove.request
    rw [hvoff, hlen, hdata]
    exact h.request
  · rw [hgeo]
    exact h.granted
  · rw [← h.valid]
    refine validateStaged_congr ?_ ?_ hshape.l1 hshape.window hshape.table ?_
    · rw [hgeo, h.state]
      rfl
    · rw [hconfig, h.state]
      rfl
    · rw [hshape.blocks, h.blocks]
      exact hmove.blocks_len

/-- The part of the relation that does not depend on the move. -/
theorem WriteRel.moved (hl1 : next.consumed < next.len →
      ∀ i, next.ReadsL1 (update (pl.state.countStep step)) i →
      readStagedL1Entry sys'.regions.staged i = readStagedL1Entry pl.staged i)
    (hl2 : next.consumed < next.len → ∀ v < pl.state.config.l2Slots,
      ((update (pl.state.countStep step)).l2Slots v).valid = true →
      ∀ j < pl.state.geometry.entriesPerL2, next.limit pl.state.geometry
      ≤ ((update (pl.state.countStep step)).l2Slots v).l1Idx * pl.state.geometry.entriesPerL2 + j →
      ¬ (v = next.slot ∧ next.Loading) →
      sys'.regions.staged.l2Window.be (v * pl.state.geometry.clusterSize + j * 8) 8
      = if (update (pl.state.countStep step)).slotPendingZero v then 0
      else pl.staged.l2Window.be (v * pl.state.geometry.clusterSize + j * 8) 8) :
    WriteRel voff len data (pl.moved step update rb) next sys' := by
  have hframe := hmove.frame (pl.state.countStep step)
  have hstart := h.after hlt hmove hsys
  have hstate := h.after_state hmove hsys
  have hgeo : (update (pl.state.countStep step)).geometry = pl.state.geometry := by
    rw [hframe.geometry, countStep_geometry]
  have hconfig : (update (pl.state.countStep step)).config = pl.state.config := by
    rw [hframe.config, countStep_config]
  refine ⟨hmove.keep h.keep hlt, ?_, hstate, ?_, ?_, hstart.request, ?_, hstart.valid, hl1, ?_⟩
  · have hidle := hstart.idle
    rw [hstate] at hidle
    exact hidle
  · show sys'.regions.staged.refblocks = rb
    rcases move_cases hsys with ⟨-, hregions, -⟩ | ⟨s, hs, hexec⟩
    · rw [hregions]
      rfl
    · exact execOne_blocks (.inl (hmove.avoids hs)) hexec
  · have hcluster := hstart.cluster
    rw [hstate] at hcluster
    exact hcluster
  · have hgranted := hstart.granted
    rw [hstate] at hgranted
    exact hgranted
  · show next.consumed < next.len → ∀ v < (update (pl.state.countStep step)).config.l2Slots,
      ((update (pl.state.countStep step)).l2Slots v).valid = true →
      ∀ j < (update (pl.state.countStep step)).geometry.entriesPerL2, _
    rw [hconfig, hgeo]
    intro hlt' v hv hvalid j hj hlim hload
    have hlim' : next.limit (update (pl.state.countStep step)).geometry
        ≤ ((update (pl.state.countStep step)).l2Slots v).l1Idx
          * (update (pl.state.countStep step)).geometry.entriesPerL2 + j := hlim
    rw [hgeo] at hlim'
    have hread := hl2 hlt' v hv hvalid j hj hlim' hload
    show sys'.regions.staged.l2Window.be
      (v * (update (pl.state.countStep step)).geometry.clusterSize + j * 8) 8 = _
    rw [hgeo, hread, readStagedL2Entry]
    show _ = if (update (pl.state.countStep step)).slotPendingZero v then 0 else
      pl.staged.l2Window.be (v * (update (pl.state.countStep step)).geometry.clusterSize + j * 8) 8
    rw [hgeo]

/-- A move that leaves alone every entry the write can still read. -/
theorem WriteRel.carry (hl1 : next.consumed < next.len →
      ∀ i, next.ReadsL1 (update (pl.state.countStep step)) i → prog.ReadsL1 pl.state i ∧
      readStagedL1Entry sys'.regions.staged i = readStagedL1Entry sys.regions.staged i)
    (hl2 : next.consumed < next.len → ∀ v < pl.state.config.l2Slots,
      ((update (pl.state.countStep step)).l2Slots v).valid = true →
      ∀ j < pl.state.geometry.entriesPerL2, next.limit pl.state.geometry
      ≤ ((update (pl.state.countStep step)).l2Slots v).l1Idx * pl.state.geometry.entriesPerL2 + j →
      ¬ (v = next.slot ∧ next.Loading) →
      (pl.state.l2Slots v).valid = true ∧
      prog.limit pl.state.geometry
      ≤ (pl.state.l2Slots v).l1Idx * pl.state.geometry.entriesPerL2 + j ∧
      ¬ (v = prog.slot ∧ prog.Loading) ∧
      (update (pl.state.countStep step)).slotPendingZero v = pl.state.slotPendingZero v ∧
      sys'.regions.staged.l2Window.be (v * pl.state.geometry.clusterSize + j * 8) 8
      = sys.regions.staged.l2Window.be (v * pl.state.geometry.clusterSize + j * 8) 8) :
    WriteRel voff len data (pl.moved step update rb) next sys' := by
  refine h.moved hlt hmove hsys ?_ ?_
  · intro hlt' i hi
    obtain ⟨hreads, heq⟩ := hl1 hlt' i hi
    rw [heq, h.l1 hlt i hreads]
  · intro hlt' v hv hvalid j hj hlim hload
    obtain ⟨hvalid', hlim', hload', hpz, hwin⟩ := hl2 hlt' v hv hvalid j hj hlim hload
    rw [hwin, hpz, h.l2 hlt v hv hvalid' j hj hlim' hload']
    rfl

end

omit hlt h

/-- The staged buffers after a move whose step, if any, is quiet. -/
theorem Sys.move_quiet (hq : ∀ s, step = some s → s.Quiet)
    (hsys : sys.move step update rb = some sys') :
    sys'.regions.staged = { sys.regions.staged with refblocks := rb } := by
  rcases move_cases hsys with ⟨-, hregions, -⟩ | ⟨s, hs, hexec⟩
  · rw [hregions]
    rfl
  · rw [execOne_quiet (hq s hs) hexec]
    rfl

include hlt in
include h in
/-- A quiet move within a cluster, past the point where its L1 entry is read. -/
theorem WriteRel.still
    (hmove : WriteMove pl.state pl.staged.refblocks l1Raw l2Raw prog step held update rb next close)
    (hsys : sys.move step update rb = some sys') (hq : ∀ s, step = some s → s.Quiet)
    (hslots : ∀ v, ((update (pl.state.countStep step)).l2Slots v).valid = true →
      (pl.state.l2Slots v).valid = true ∧
      ((update (pl.state.countStep step)).l2Slots v).l1Idx = (pl.state.l2Slots v).l1Idx)
    (hpz : (update (pl.state.countStep step)).slotPendingZero = pl.state.slotPendingZero)
    (hcur : next.cur = prog.cur) (hload : ¬ prog.Loading) (hfinal : prog.stage ≠ .cowDataDecrement)
    (hreads : next.stage ≠ .enter ∧ (next.stage = .slotFree → prog.stage = .enter ∧
      pl.state.findSlot (prog.l1Idx pl.state.geometry) = none)) :
    WriteRel voff len data (pl.moved step update rb) next sys' := by
  have hstaged := move_quiet hq hsys
  have hgeo : (update (pl.state.countStep step)).geometry = pl.state.geometry := by
    rw [(hmove.frame _).geometry, countStep_geometry]
  have hidx : next.l1Idx pl.state.geometry = prog.l1Idx pl.state.geometry := by
    rw [l1Idx, l1Idx, hcur]
  refine h.carry hlt hmove hsys ?_ ?_
  · intro _ i hi
    refine ⟨?_, by rw [hstaged]; rfl⟩
    unfold WriteProgress.ReadsL1 at hi ⊢
    rw [hgeo, hidx] at hi
    rcases hi with hi | ⟨hi, hstage | ⟨hstage, -⟩⟩
    · exact .inl hi
    · exact .inr ⟨hi, .inr (hreads.2 hstage)⟩
    · exact absurd hstage hreads.1
  · intro _ v hv hvalid j hj hlim _
    obtain ⟨hvalid', hidx'⟩ := hslots v hvalid
    refine ⟨hvalid', ?_, fun hl => hload hl.2, by rw [hpz], by rw [hstaged]⟩
    rw [hidx'] at hlim
    refine le_trans ?_ hlim
    simp only [limit, hcur, hfinal, if_false, add_zero]
    omega

theorem WriteProgress.reads_advance {st : WriteState} {i : Nat}
    (hslot : prog.slot < st.config.l2Slots) (hvalid : (st.l2Slots prog.slot).valid = true)
    (hidx : (st.l2Slots prog.slot).l1Idx = prog.l1Idx st.geometry)
    (h : (prog.advance st.geometry).ReadsL1 st i) : prog.l1Idx st.geometry < i := by
  have hle := prog.advance_l1Idx_le st.geometry
  rcases h with h | ⟨h, hstage | ⟨-, hnone⟩⟩
  · omega
  · cases hstage
  · rcases Nat.lt_or_eq_of_le hle with hlt | heq
    · omega
    · have := findSlot_eq_none.mp hnone prog.slot hslot hvalid
      omega

/-- Distinct slots are disjoint in the window. -/
theorem slot_apart (cs : Nat) {w : Nat} (hne : v ≠ w) :
    v * cs + cs ≤ w * cs ∨ w * cs + cs ≤ v * cs := by
  rcases Nat.lt_or_gt_of_ne hne with hlt | hlt
  · have : (v + 1) * cs ≤ w * cs := Nat.mul_le_mul_right _ hlt
    rw [add_mul] at this
    omega
  · have : (w + 1) * cs ≤ v * cs := Nat.mul_le_mul_right _ hlt
    rw [add_mul] at this
    omega

/-- Different clusters' entries do not overlap. -/
theorem entry_apart {cs w i j : Nat} (hi : i * 8 + 8 ≤ cs) (hj : j * 8 + 8 ≤ cs)
    (hne : v ≠ w ∨ i ≠ j) :
    v * cs + i * 8 + 8 ≤ w * cs + j * 8 ∨ w * cs + j * 8 + 8 ≤ v * cs + i * 8 := by
  by_cases hvw : v = w
  · subst hvw
    omega
  · have := slot_apart cs hvw
    omega

include h hlt

/-- A patch of the L1 entry of the current cluster, which is not read again. -/
theorem WriteRel.patch_l1 (hmove : WriteMove pl.state pl.staged.refblocks l1Raw l2Raw prog
      (some (l1PatchStep pl.state prog)) held update rb next close)
    (hsys : sys.move (some (l1PatchStep pl.state prog)) update rb = some sys')
    (hslots : ∀ v, ((update (pl.state.countStep (some (l1PatchStep pl.state prog)))).l2Slots
      v).valid = (pl.state.l2Slots v).valid ∧
      ((update (pl.state.countStep (some (l1PatchStep pl.state prog)))).l2Slots v).l1Idx
      = (pl.state.l2Slots v).l1Idx)
    (hpz : (update (pl.state.countStep (some (l1PatchStep pl.state prog)))).slotPendingZero
      = pl.state.slotPendingZero) (hcur : next.cur = prog.cur) (hslot : next.slot = prog.slot)
    (hload : prog.Loading → next.Loading) (hfinal : prog.stage ≠ .cowDataDecrement)
    (hreads : next.stage ≠ .enter ∧ next.stage ≠ .slotFree) :
    WriteRel voff len data (pl.moved (some (l1PatchStep pl.state prog)) update rb) next sys' := by
  obtain ⟨hs, -⟩ | ⟨s, hs, hexec⟩ := move_cases hsys
  · cases hs
  cases hs
  obtain ⟨-, -, hregions⟩ := execOne_patchL1 hexec
  have hgeo : (update (pl.state.countStep (some (l1PatchStep pl.state prog)))).geometry
      = pl.state.geometry := by
    rw [(hmove.frame _).geometry, countStep_geometry]
  refine h.carry hlt hmove hsys ?_ ?_
  · intro _ i hi
    rcases hi with hi | ⟨-, hstage | ⟨hstage, -⟩⟩
    · rw [hgeo, l1Idx, hcur] at hi
      refine ⟨.inl hi, ?_⟩
      rw [hregions]
      show be (splice _ _ _ _) _ _ = _
      rw [be_splice_outside]
      · rfl
      · have : prog.l1Idx pl.state.geometry < i := hi
        omega
    · exact absurd hstage hreads.2
    · exact absurd hstage hreads.1
  · intro _ v hv hvalid j hj hlim hload'
    obtain ⟨hvalid', hidx'⟩ := hslots v
    rw [hvalid'] at hvalid
    rw [hidx'] at hlim
    refine ⟨hvalid, le_trans ?_ hlim, fun hl => hload' ⟨hl.1.trans hslot.symm, hload hl.2⟩,
      by rw [hpz], by rw [hregions]; rfl⟩
    simp only [limit, hcur, hfinal, if_false, add_zero]
    omega

/-- A patch of the L2 entry of the current cluster, which is not read again. -/
theorem WriteRel.patch_l2 (hmove : WriteMove pl.state pl.staged.refblocks l1Raw l2Raw prog
      (some (l2PatchStep pl.state prog)) held (fun s => dirtySlot s prog.slot) rb next close)
    (hsys : sys.move (some (l2PatchStep pl.state prog)) (fun s => dirtySlot s prog.slot) rb
      = some sys') (hon : prog.stage.onSlot = true) (hload : ¬ prog.Loading)
    (hfinal : prog.stage ≠ .cowDataDecrement) (hlimit : next.consumed < next.len →
      next.limit pl.state.geometry = prog.cur / pl.state.geometry.clusterSize + 1)
    (hreads : ∀ {st : WriteState} {i : Nat}, st.geometry = pl.state.geometry →
      prog.slot < st.config.l2Slots → (st.l2Slots prog.slot).valid = true →
      (st.l2Slots prog.slot).l1Idx = prog.l1Idx st.geometry →
      next.ReadsL1 st i → prog.l1Idx pl.state.geometry < i) : WriteRel voff len data
      (pl.moved (some (l2PatchStep pl.state prog)) (fun s => dirtySlot s prog.slot) rb)
      next sys' := by
  obtain ⟨hs, -⟩ | ⟨s, hs, hexec⟩ := move_cases hsys
  · cases hs
  cases hs
  obtain ⟨-, -, hregions⟩ := execOne_patchL2 hexec
  obtain ⟨hslot, hvalid, hidx⟩ := h.keep.heldSlot hon
  have hslots : ∀ v, ((dirtySlot (pl.state.countStep (some (l2PatchStep pl.state prog)))
      prog.slot).l2Slots v).valid = (pl.state.l2Slots v).valid ∧
      ((dirtySlot (pl.state.countStep (some (l2PatchStep pl.state prog))) prog.slot).l2Slots
        v).l1Idx = (pl.state.l2Slots v).l1Idx := by
    intro v
    by_cases hv : v = prog.slot
    · subst hv
      simp [dirtySlot, setSlot]
    · simp [dirtySlot, setSlot, update_of_ne hv]
  refine h.carry hlt hmove hsys ?_ ?_
  · intro _ i hi
    refine ⟨.inl (hreads ?_ ?_ ?_ ?_ hi), by rw [hregions]; rfl⟩
    · rfl
    · exact hslot
    · rw [(hslots _).1]
      exact hvalid
    · rw [(hslots _).2]
      exact hidx
  · intro hlt' v hv hvalid' j hj hlim _
    rw [(hslots v).1] at hvalid'
    rw [(hslots v).2, hlimit hlt'] at hlim
    refine ⟨hvalid', ?_, fun hl => hload hl.2, rfl, ?_⟩
    · simp only [limit, hfinal, if_false, add_zero]
      omega
    · -- the patched entry belongs to the current cluster, below the limit
      have hentries := h.keep.geo.entries
      have hl2 : prog.l2Idx pl.state.geometry < pl.state.geometry.entriesPerL2 :=
        Nat.mod_lt _ h.keep.geo.entries_pos
      have hcluster := h.keep.geo.cluster_eq prog.cur
      have hne : v ≠ prog.slot ∨ j ≠ prog.l2Idx pl.state.geometry := by
        by_contra hcontra
        push Not at hcontra
        rw [hcontra.1, hcontra.2, hidx] at hlim
        unfold l1Idx l2Idx at hlim
        omega
      rw [hregions]
      show be (splice _ _ _ _) _ _ = _
      rw [be_splice_outside]
      · rfl
      · show _ ≤ prog.slot * sys.regions.clusterSize + _ ∨
          prog.slot * sys.regions.clusterSize + _ + _ ≤ _
        rw [h.cluster]
        exact entry_apart (by omega) (by omega) hne

omit hlt h

/-- A step that fills the slot: the other slots keep their tables. -/
theorem be_fill_slot {m src : ByteMap} {cs slot j : Nat} (hj : j * 8 + 8 ≤ cs) (hne : v ≠ slot) :
    (m.splice (slot * cs) cs src).be (v * cs + j * 8) 8 = m.be (v * cs + j * 8) 8 := by
  apply be_splice_outside
  have := slot_apart cs hne
  omega

include h hlt

/-- A fresh table: the executed zeroing is what the queued zeroing makes the planner read. -/
theorem WriteRel.zero_table (hstage : prog.stage = .freshAlloc) (hsys : sys.move
      (some (zeroRegionStep prog.slot pl.state.geometry.clusterSize pl.state.config.device))
      (fun s => (assignSlot s prog.slot (prog.l1Idx pl.state.geometry) prog.l2Host
      true).pendingZeroSet prog.slot) pl.staged.refblocks = some sys') :
      WriteRel voff len data (pl.moved
      (some (zeroRegionStep prog.slot pl.state.geometry.clusterSize pl.state.config.device))
      (fun s => (assignSlot s prog.slot (prog.l1Idx pl.state.geometry) prog.l2Host
        true).pendingZeroSet prog.slot) pl.staged.refblocks)
      { prog with stage := .freshZeroed } sys' := by
  obtain ⟨hs, -⟩ | ⟨s, hs, hexec⟩ := move_cases hsys
  · cases hs
  cases hs
  have hcs : pl.state.geometry.clusterSize
      = (sys.regions.setRefblocks pl.staged.refblocks).clusterSize := h.cluster.symm
  obtain ⟨-, hregions⟩ := execOne_zeroRegion hcs hexec
  have hentries := h.keep.geo.entries
  have hmove : WriteMove pl.state pl.staged.refblocks 0 0 prog _ _ _ _ _ _ := .zeroTable hstage
  refine h.moved hlt hmove hsys ?_ ?_
  · intro _ i hi
    rcases hi with hi | ⟨-, hs | ⟨hs, -⟩⟩
    · rw [hregions, ← h.l1 hlt i (.inl hi)]
      rfl
    · cases hs
    · cases hs
  · intro _ v hv hvalid j hj hlim _
    rw [hregions]
    by_cases hslot : v = prog.slot
    · subst hslot
      have hzero : (splice sys.regions.staged.l2Window.bytes
          (prog.slot * pl.state.geometry.clusterSize) pl.state.geometry.clusterSize
          fun _ => 0).be (prog.slot * pl.state.geometry.clusterSize + j * 8) 8 = 0 := by
        rw [be_splice_inside (by omega), be_zeros]
      rw [if_pos (by simp [pendingZeroSet])]
      exact hzero
    · have hvalid' : (pl.state.l2Slots v).valid = true := by
        simpa [pendingZeroSet, assignSlot, setSlot, update_of_ne hslot] using hvalid
      have hlim' : prog.limit pl.state.geometry
          ≤ (pl.state.l2Slots v).l1Idx * pl.state.geometry.entriesPerL2 + j := by
        simpa [pendingZeroSet, assignSlot, setSlot, limit, cur, hstage, update_of_ne hslot]
          using hlim
      have hread := h.l2 hlt v hv hvalid' j hj hlim' fun hl => hslot hl.1
      have hpz : ((assignSlot (pl.state.countStep (some (zeroRegionStep prog.slot
          pl.state.geometry.clusterSize pl.state.config.device))) prog.slot
          (prog.l1Idx pl.state.geometry) prog.l2Host true).pendingZeroSet
          prog.slot).slotPendingZero v = pl.state.slotPendingZero v := by
        simp [pendingZeroSet, assignSlot, setSlot, countStep, update_of_ne hslot]
      rw [hpz]
      refine Eq.trans ?_ hread
      exact be_fill_slot (by omega) hslot

/-- The old table is loaded for copying: the slot's bytes are not read before the window ends. -/
theorem WriteRel.load_old (hstage : prog.stage = .cowL2Load)
    (hsys : sys.move (some (loadStep prog.slot prog.cowSrc pl.state.geometry.clusterSize
      pl.state.config.device))
      (fun s => assignSlot s prog.slot (prog.l1Idx pl.state.geometry) prog.l2Host true)
      pl.staged.refblocks = some sys') :
    WriteRel voff len data (pl.moved (some (loadStep prog.slot prog.cowSrc
        pl.state.geometry.clusterSize pl.state.config.device))
      (fun s => assignSlot s prog.slot (prog.l1Idx pl.state.geometry) prog.l2Host true)
      pl.staged.refblocks) { prog with stage := .cowL2Repoint } sys' := by
  obtain ⟨hs, -⟩ | ⟨s, hs, hexec⟩ := move_cases hsys
  · cases hs
  cases hs
  obtain ⟨-, -, -, hregions⟩ := execOne_load hexec
  have hentries := h.keep.geo.entries
  have hmove : WriteMove pl.state pl.staged.refblocks 0 0 prog _ _ _ _ _ _ := .loadOld hstage
  refine h.carry hlt hmove hsys ?_ ?_
  · intro _ i hi
    rcases hi with hi | ⟨-, hs | ⟨hs, -⟩⟩
    · exact ⟨.inl hi, by rw [hregions]; rfl⟩
    · cases hs
    · cases hs
  · intro _ v hv hvalid j hj hlim hload
    have hslot : v ≠ prog.slot := fun heq => hload ⟨heq, .inl rfl⟩
    refine ⟨?_, ?_, fun hl => hslot hl.1, rfl, ?_⟩
    · simpa [assignSlot, setSlot, update_of_ne hslot] using hvalid
    · simpa [assignSlot, setSlot, limit, cur, hstage, update_of_ne hslot] using hlim
    · rw [hregions]
      exact be_fill_slot (by omega) hslot

omit hlt h

theorem bodyAt_quiet (st : WriteState) (prog : WriteProgress) (host : Nat) :
    (bodyAt st prog host).Quiet := by
  unfold bodyAt bodyStep
  cases prog.data <;> trivial

theorem zeroRange_quiet {c : Prop} [Decidable c] {off len : Nat} {dev : TargetDevice} (s : Step)
    (h : (if c then some (zeroRangeStep off len dev) else none) = some s) : s.Quiet := by
  split at h <;> cases h
  trivial

include hlt in
include h in
/-- The end of a cluster whose table stays as it is. -/
theorem WriteRel.pass (hmove : WriteMove pl.state pl.staged.refblocks l1Raw l2Raw prog
      step held update rb
      (prog.advance pl.state.geometry) close) (hsys : sys.move step update rb = some sys')
    (hq : ∀ s, step = some s → s.Quiet)
    (hslots : (update (pl.state.countStep step)).l2Slots = pl.state.l2Slots)
    (hpz : (update (pl.state.countStep step)).slotPendingZero = pl.state.slotPendingZero)
    (hon : prog.stage.onSlot = true) (hload : ¬ prog.Loading) :
    WriteRel voff len data (pl.moved step update rb) (prog.advance pl.state.geometry) sys' := by
  have hstaged := move_quiet hq hsys
  have hframe := hmove.frame (pl.state.countStep step)
  have hgeo : (update (pl.state.countStep step)).geometry = pl.state.geometry := by
    rw [hframe.geometry, countStep_geometry]
  have hconfig : (update (pl.state.countStep step)).config = pl.state.config := by
    rw [hframe.config, countStep_config]
  obtain ⟨hslot, hvalid, hidx⟩ := h.keep.heldSlot hon
  refine h.carry hlt hmove hsys ?_ ?_
  · intro _ i hi
    refine ⟨.inl ?_, by rw [hstaged]; rfl⟩
    rw [← hgeo] at hi hidx ⊢
    rw [← hconfig] at hslot
    rw [← hslots] at hvalid hidx
    exact prog.reads_advance hslot hvalid hidx hi
  · intro hlt' v hv hvalid' j hj hlim _
    rw [hslots] at hvalid' hlim
    refine ⟨hvalid', le_trans ?_ hlim, fun hl => hload hl.2, by rw [hpz], by rw [hstaged]⟩
    have hnext := advance_cluster h.keep.geo hlt'
    unfold limit
    split <;> omega

/-- Touching a slot changes no table. -/
theorem touch_table (st : WriteState) (v w : Nat) :
      ((st.touch v).l2Slots w).valid = (st.l2Slots w).valid ∧
      ((st.touch v).l2Slots w).l1Idx = (st.l2Slots w).l1Idx := by
  by_cases hw : w = v
  · subst hw
    simp [touch]
  · simp [touch, update_of_ne hw]

include h in
/-- Every move keeps the relation, unless it closes the window. -/
theorem WriteRel.move (hact : writeActOf pl.state pl.staged prog =
    .move step held update rb next false)
    (hsys : sys.move step update rb = some sys') :
    WriteRel voff len data (pl.moved step update rb) next sys' := by
  obtain ⟨hlt, hmove⟩ := writeAct_move hact
  have hmove' := hmove
  have hnoload : ∀ {stage}, prog.stage = stage → stage ≠ .cowL2Repoint → stage ≠ .cowL2Decrement →
      ¬ prog.Loading := by
    rintro _ rfl h1 h2 (h3 | h3)
    · exact h1 h3
    · exact h2 h3
  -- the moves that change neither the slots nor the staged buffers
  have hstill : ∀ {stage}, prog.stage = stage → stage ≠ .enter → stage ≠ .cowL2Repoint →
      stage ≠ .cowL2Decrement → stage ≠ .cowDataDecrement →
      (∀ s, step = some s → s.Quiet) →
      (update (pl.state.countStep step)).l2Slots = pl.state.l2Slots →
      (update (pl.state.countStep step)).slotPendingZero = pl.state.slotPendingZero →
      next.cur = prog.cur → next.stage ≠ .enter → next.stage ≠ .slotFree →
      WriteRel voff len data (pl.moved step update rb) next sys' := by
    intro stage hstage _ h1 h2 h3 hq hslots hpz hcur hnext hnext'
    refine h.still hlt hmove' hsys hq (fun v hv => ?_) hpz hcur (hnoload hstage h1 h2)
      (by rw [hstage]; exact h3) ⟨hnext, fun hs => absurd hs hnext'⟩
    rw [hslots] at hv ⊢
    exact ⟨hv, rfl⟩
  cases hmove with
  | @hit v hstage hslot =>
    refine h.still hlt hmove' hsys (by simp) (fun w hw => ?_) rfl rfl
      (hnoload hstage (by simp) (by simp)) (by simp [hstage]) (by simp)
    obtain ⟨hvalid, hidx⟩ := touch_table pl.state v w
    exact ⟨by rw [← hvalid]; exact hw, hidx⟩
  | evict hstage hslot hdirty =>
    refine h.still hlt hmove' hsys (by rintro s ⟨⟩; trivial) (fun w hw => ?_) rfl rfl
      (hnoload hstage (by simp) (by simp)) (by simp [hstage]) ⟨by simp, fun _ => ⟨hstage, hslot⟩⟩
    by_cases hvictim : w = pl.state.pickVictim
    · subst hvictim
      simp [setSlot] at hw
    · simpa [setSlot, update_of_ne hvictim] using hw
  | reuse hstage hslot hclean =>
    exact h.still hlt hmove' hsys (by simp) (fun v hv => ⟨hv, rfl⟩) rfl rfl
      (hnoload hstage (by simp) (by simp)) (by simp [hstage]) ⟨by simp, fun _ => ⟨hstage, hslot⟩⟩
  | zeroTable hstage => exact h.zero_table hlt hstage hsys
  | loadOld hstage => exact h.load_old hlt hstage hsys
  | installTable hstage =>
    exact h.patch_l1 hlt hmove' hsys (fun w => touch_table _ _ w) rfl rfl rfl
      (fun hl => absurd hl (hnoload hstage (by simp) (by simp))) (by simp [hstage]) (by simp)
  | repoint hstage =>
    exact h.patch_l1 hlt hmove' hsys (fun v => ⟨rfl, rfl⟩) rfl rfl rfl (fun _ => .inr rfl)
      (by simp [hstage]) (by simp)
  | owned hstage hl2 =>
    exact h.pass hlt hmove' hsys (by rintro s ⟨⟩; exact bodyAt_quiet _ _ _) rfl rfl
      (by simp [hstage, onSlot]) (hnoload hstage (by simp) (by simp))
  | dropData hstage hdec =>
    exact h.pass hlt hmove' hsys (by simp) rfl rfl
      (by simp [hstage, onSlot]) (hnoload hstage (by simp) (by simp))
  | installData hstage =>
    refine h.patch_l2 hlt hmove' hsys (by simp [hstage, onSlot])
      (hnoload hstage (by simp) (by simp)) (by simp [hstage]) ?_ ?_
    · intro hlt'
      unfold limit
      rw [advance_cluster h.keep.geo hlt']
      rfl
    · intro st i hgeo hslot hvalid hidx hi
      rw [← hgeo] at hi ⊢
      exact prog.reads_advance hslot hvalid hidx hi
  | copyInstall hstage =>
    refine h.patch_l2 hlt hmove' hsys (by simp [hstage, onSlot])
      (hnoload hstage (by simp) (by simp)) (by simp [hstage]) (fun _ => rfl) ?_
    intro st i hgeo _ _ _ hi
    rcases hi with hi | ⟨-, hs | ⟨hs, -⟩⟩
    · rw [hgeo] at hi
      exact hi
    · cases hs
    · cases hs
  | head hstage | tail hstage =>
    refine hstill hstage ?_ ?_ ?_ ?_ zeroRange_quiet ?_ ?_ rfl ?_ ?_ <;> simp
  | body hstage | copyBody hstage =>
    refine hstill hstage ?_ ?_ ?_ ?_ ?_ rfl rfl rfl ?_ ?_ <;> simp [bodyAt_quiet]
  | _ =>
    refine hstill ‹prog.stage = _› ?_ ?_ ?_ ?_ ?_ rfl rfl rfl ?_ ?_ <;>
      simp [Step.Quiet, zeroRangeStep, readClusterToBounceStep, writeBounceClusterStep]

/-- At the start of a cluster the slot of the progress record is not read. -/
theorem eager_enter (hstage : prog.stage = .enter) (v n : Nat) (acc : List Step) :
    eager writeActOf n sys { prog with slot := v } acc = eager writeActOf n sys prog acc := by
  cases n with
  | zero => rfl
  | succ n =>
    obtain ⟨pvoff, plen, pdata, consumed, stage, slot, l2Host, dataHost, cowSrc, zero⟩ := prog
    cases hstage
    have hidx : l1Idx sys.state.geometry
        ⟨pvoff, plen, pdata, consumed, .enter, v, l2Host, dataHost, cowSrc, zero⟩
        = l1Idx sys.state.geometry
          ⟨pvoff, plen, pdata, consumed, .enter, slot, l2Host, dataHost, cowSrc, zero⟩ := rfl
    unfold eager
    by_cases hlt : consumed < plen
    case neg => simp [writeActOf, writeAct, hlt]
    simp only [writeActOf, writeAct, hlt, not_true_eq_false, if_false, enterAct, hidx]
    cases sys.state.findSlot (l1Idx sys.state.geometry
        ⟨pvoff, plen, pdata, consumed, .enter, slot, l2Host, dataHost, cowSrc, zero⟩) with
    | some hit => rfl
    | none =>
      by_cases hdirty : (sys.state.l2Slots sys.state.pickVictim).valid = true ∧
        (sys.state.l2Slots sys.state.pickVictim).dirty = true
      · simp only [hdirty, and_self, if_true]
      · simp only [hdirty, if_false]

/-- Write actions do not depend on the window they are planned in. -/
theorem writeWindowed (voff len : Nat) (data : DataSource) :
    Windowed writeActOf (WriteRel voff len data) (WriteStart voff len data) WriteKeep
    writeRank where
  keep hkeep hact := by
    obtain ⟨hlt, hmove⟩ := writeAct_move hact
    exact ⟨hmove.keep hkeep hlt, hmove.rank_lt hkeep hlt⟩
  keep_clear hkeep := hkeep.clear
  rank_clear st prog := rfl
  rank_held := by
    intro st sg prog step held update rb next close hact
    obtain ⟨-, hmove⟩ := writeAct_move hact
    rcases hmove.held_eq with rfl | ⟨-, v, rfl⟩ <;> exact le_rfl
  clear_move hact := (writeAct_move hact).2.clear
  clear_refuse := by
    intro st sg prog e update rb hact st'
    obtain ⟨-, -, ⟨rfl, -⟩ | ⟨err, cursor, -, rfl⟩⟩ := writeAct_refuse hact <;> rfl
  refuse_ne hact := (writeAct_refuse hact).1
  free := by
    refine .inl fun st sg prog step hpushed => ?_
    cases hact : writeActOf st sg prog with
    | refuse e update rb =>
      rw [hact] at hpushed
      cases hpushed
    | move s held update rb next close =>
      rw [hact] at hpushed
      exact (writeAct_move hact).2.avoids hpushed
    | finish s =>
      rw [hact] at hpushed
      obtain ⟨rfl, -⟩ := writeAct_finish hact
      cases hpushed
  rel_keep h := h.keep
  act h := h.act_eq
  next h hact hsys := h.move hact hsys
  closed h hact hsys := by
    obtain ⟨hlt, hmove⟩ := writeAct_move hact
    exact h.after hlt hmove hsys
  full := by
    intro pl prog sys step held update rb next close h hact
    obtain ⟨-, hmove⟩ := writeAct_move hact
    rcases hmove.held_eq with rfl | ⟨hstage, v, rfl⟩
    · exact ⟨h.start, fun n acc => rfl⟩
    · refine ⟨?_, eager_enter hstage v⟩
      have hstart := h.start
      exact ⟨hstart.keep.at_enter rfl rfl hstart.keep.inj hstage, hstart.idle, hstart.cluster,
        hstart.request, hstart.granted, hstart.valid⟩
  stay h := h.start
  start capacity h hclear := h.rel hclear

end

/-! ## Flushes -/

/-- A bound on the moves left of a flush. -/
def flushRank (st : WriteState) (prog : FlushProgress) : Nat :=
  match prog.stage with
  | .preBarrier => st.config.l2Slots + st.config.maxRefblocks + 8
  | .l2Writebacks => (st.config.l2Slots - prog.nextIdx) + st.config.maxRefblocks + 6
  | .l1Barrier => st.config.maxRefblocks + 5
  | .l1Write => st.config.maxRefblocks + 4
  | .rbBarrier => st.config.maxRefblocks + 3
  | .rbWritebacks => (st.config.maxRefblocks - prog.nextIdx) + 2
  | .endBarrier => 1

theorem flushRank_lt (st : WriteState) (prog : FlushProgress) :
    flushRank st prog < flushFuel st := by
  unfold flushRank flushFuel
  cases prog.stage <;> dsimp only <;> omega

/-- A flush between windows. -/
structure FlushStart (sys : Sys) (_prog : FlushProgress) : Prop where
  idle : sys.state.pending = .idle
  valid : validateStaged sys.state sys.regions.staged 1 = .ok ()

/-- A flush in mid-window: no step of a flush changes a staged buffer. -/
structure FlushRel (pl : Planner) (prog : FlushProgress) (sys : Sys) : Prop where
  start : FlushStart sys prog
  state : sys.state = pl.state.pendingZeroClearAll
  staged : sys.regions.staged = pl.staged

section

variable {st : WriteState} {sg : StagedRegions} {prog held next : FlushProgress}
  {step : Option Step} {update : WriteState → WriteState} {rb : Buffer} {close : Bool}
  {pl : Planner} {sys sys' : Sys}

theorem dueBarrier_quiet (s : Step) (h : dueBarrier st = some s) :
    s.Quiet ∧ s.region ≠ .refblocks := by
  unfold dueBarrier at h
  split at h <;> cases h
  exact ⟨trivial, by simp [barrierStep]⟩

theorem FlushMove.quiet (h : FlushMove st sg prog step update next) (s : Step)
    (hs : step = some s) : s.Quiet ∧ s.KeepsBlocks := by
  cases h with
  | first | l1Barrier | rbBarrier => exact ⟨(dueBarrier_quiet s hs).1,
    .inl (dueBarrier_quiet s hs).2⟩
  | table =>
    cases hs
    exact ⟨trivial, .inl (by simp [writebackStep])⟩
  | l1 | block =>
    cases hs
    exact ⟨trivial, .inr rfl⟩
  | _ => cases hs

theorem FlushMove.rank_lt (h : FlushMove st sg prog step update next) :
    flushRank (update (st.countStep step)) next < flushRank st prog := by
  have hconfig : (update (st.countStep step)).config = st.config := by
    rw [(h.frame _).config, countStep_config]
  unfold flushRank
  rw [hconfig]
  cases h with
  | table hstage hidx =>
    obtain ⟨hle, hlt, -⟩ := nextDirtySlot_some hidx
    simp only [hstage]
    omega
  | block hstage hidx =>
    obtain ⟨hle, hlt, -⟩ := nextDirtyRefblock_some hidx
    simp only [hstage]
    omega
  | _ =>
    simp only [*]
    omega

/-- The executed system after any move of a flush. -/
theorem FlushRel.moved (h : FlushRel pl prog sys)
    (hact : flushActOf pl.state pl.staged prog = .move step held update rb next close)
    (hsys : sys.move step update rb = some sys') :
    FlushRel (pl.moved step update rb) next sys' := by
  obtain ⟨hmove, -, rfl, -⟩ := flushAct_move hact
  have hframe := hmove.frame (pl.state.countStep step)
  have hstate : sys'.state = (update (pl.state.countStep step)).pendingZeroClearAll := by
    rw [move_state hsys, h.state, hmove.clear (pl.state.countStep step)]
    cases step <;> rfl
  have hstaged : sys'.regions.staged = pl.staged := by
    rw [move_quiet (fun s hs => (hmove.quiet s hs).1) hsys, h.staged]
  refine ⟨⟨?_, ?_⟩, hstate, hstaged⟩
  · have hidle := h.start.idle
    rw [h.state] at hidle
    rw [hstate, ← hidle]
    refine Eq.trans hframe.pending ?_
    cases step <;> rfl
  · rw [← h.start.valid, hstaged, h.staged, hstate, h.state]
    refine validateStaged_congr ?_ ?_ rfl rfl rfl rfl
    · exact hframe.geometry.trans countStep_geometry
    · exact hframe.config.trans countStep_config

/-- Flush actions do not depend on the window they are planned in. -/
theorem flushWindowed : Windowed flushActOf FlushRel FlushStart (fun _ _ => True) flushRank where
  keep _ hact := ⟨trivial, (flushAct_move hact).1.rank_lt⟩
  keep_clear _ := trivial
  rank_clear st prog := rfl
  rank_held hact := by
    obtain ⟨-, rfl, -⟩ := flushAct_move hact
    exact le_rfl
  clear_move hact := (flushAct_move hact).1.clear
  clear_refuse hact st' := by
    obtain ⟨-, rfl, -⟩ := flushAct_refuse hact
    rfl
  refuse_ne hact := (flushAct_refuse hact).1
  free := by
    refine .inr ⟨fun st sg prog rb hblocks => ?_, fun st sg prog step hpushed => ?_⟩
    · cases hact : flushActOf st sg prog with
      | refuse e update rb' =>
        rw [hact] at hblocks
        cases hblocks
        exact (flushAct_refuse hact).2.2.1
      | move s held update rb' next close =>
        rw [hact] at hblocks
        cases hblocks
        exact (flushAct_move hact).2.2.1
      | finish s =>
        rw [hact] at hblocks
        cases hblocks
    · cases hact : flushActOf st sg prog with
      | refuse e update rb =>
        rw [hact] at hpushed
        cases hpushed
      | move s held update rb next close =>
        rw [hact] at hpushed
        exact ((flushAct_move hact).1.quiet step hpushed).2
      | finish s =>
        rw [hact] at hpushed
        obtain ⟨-, rfl⟩ := flushAct_finish hact
        exact .inl (dueBarrier_quiet step hpushed).2
  rel_keep _ := trivial
  act h := by
    rw [h.state, h.staged]
    rfl
  next h hact hsys := h.moved hact hsys
  closed h hact hsys := (h.moved hact hsys).start
  full h hact := by
    obtain ⟨-, rfl, -⟩ := flushAct_move hact
    exact ⟨h.start, fun n acc => rfl⟩
  stay h := h.start
  start capacity h hclear := ⟨h, hclear.symm, rfl⟩

end

end Instar.Write
