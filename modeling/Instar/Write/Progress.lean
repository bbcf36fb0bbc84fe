import Instar.Write.Moves
import Instar.Write.Run

/-!
# Slots, progress and rank

The planner's own invariant: the L2 window holds each table at most once, and the slot a write
works with is free or holds the right table, depending on the stage.  Every move keeps it and
lowers the rank, which bounds the number of stages a request goes through.
-/

namespace Instar.Write

open Instar.Qcow2 WriteState Function WriteProgress ClusterStage

/-! ## Geometry of an image inside the envelope -/

/-- The layout numbers of an image inside the write envelope. -/
structure Geometry.Wf (geo : Geometry) : Prop where
  size_pos : 0 < geo.clusterSize
  size_dvd : 512 ∣ geo.clusterSize
  size_le : geo.clusterSize ≤ 2 ^ 21
  entries : geo.entriesPerL2 * 8 = geo.clusterSize
  coverage : geo.l2Coverage = geo.clusterSize * geo.entriesPerL2
  bits : geo.refcountBits = 16
  perBlock : geo.entriesPerRefblock * 2 = geo.clusterSize

variable {hdr : QcowHeader} {st : WriteState} {geo : Geometry} {i v n : Nat} {slots : Nat → L2Slot}
  {slot : L2Slot}

theorem ite_error_eq_ok {ε α : Type} {c : Prop} [Decidable c] {e : ε} {x : Except ε α} {a : α} :
    (if c then .error e else x) = .ok a ↔ ¬ c ∧ x = .ok a := by
  by_cases h : c <;> simp [h]

theorem checkEnvelopeWith_ok {allow : Bool} (h : checkEnvelopeWith hdr allow = .ok ()) :
    hdr.refcountBits = 16 ∧ hdr.extendedL2 = false ∧ (allow = false → hdr.nbSnapshots = 0) := by
  simp only [checkEnvelopeWith, ite_error_eq_ok] at h
  obtain ⟨-, hbits, -, hext, -, -, -, hsnap, -⟩ := h
  refine ⟨by omega, by simpa using hext, fun hallow => ?_⟩
  rw [hallow] at hsnap
  simpa using hsnap

/-- What a successful `new_state` or `new_state_cow` says about its arguments. -/
theorem newStateImpl_ok {cfg : StagingConfig} {cow : Bool} (h : newStateImpl hdr cfg cow = .ok st) :
    checkEnvelopeWith hdr cow = .ok () ∧ 0 < cfg.l2Slots ∧ cfg.maxRefblocks ≤ maxRefblocks ∧
      st = { geometry := Geometry.fromHeader hdr, config := cfg, l2Slots := fun _ => L2Slot.empty
             refblockDirty := fun _ => false, accessCounter := 0, allocCursor := ⟨0, 0, 0⟩
             hasBacking := decide (hdr.backingFileOffset ≠ 0), cowEnabled := cow, l1Dirty := false
             stepsSinceBarrier := 0, slotPendingZero := fun _ => false, pending := .idle } := by
  unfold newStateImpl at h
  cases henv : checkEnvelopeWith hdr cow with
  | error gate => simp [henv] at h
  | ok u =>
    simp only [henv, ite_error_eq_ok, Except.ok.injEq] at h
    obtain ⟨hcfg, rfl⟩ := h
    exact ⟨rfl, by omega, by omega, rfl⟩

theorem Geometry.fromHeader_wf (hparsed : hdr.Parsed) (hbits : hdr.refcountBits = 16) :
    (Geometry.fromHeader hdr).Wf := by
  obtain ⟨k, hk⟩ := hparsed.size_dvd
  refine ⟨hparsed.size_pos, hparsed.size_dvd, hparsed.size_le, ?_, rfl, hbits, ?_⟩
  · show hdr.clusterSize / 8 * 8 = hdr.clusterSize
    omega
  · show hdr.clusterSize * 8 / hdr.refcountBits * 2 = hdr.clusterSize
    rw [hbits]
    omega

theorem Geometry.Wf.entries_pos (h : geo.Wf) : 0 < geo.entriesPerL2 := by
  have := h.size_pos
  have := h.entries
  omega

theorem Geometry.Wf.cluster_eq (h : geo.Wf) (x : Nat) :
    x / geo.l2Coverage * geo.entriesPerL2 + x / geo.clusterSize % geo.entriesPerL2 =
    x / geo.clusterSize := by
  rw [h.coverage, ← Nat.div_div_eq_div_mul]
  exact Nat.div_add_mod' _ _

/-! ## Slots -/

theorem WriteState.findSlot_eq_none : st.findSlot i = none ↔
      ∀ v < st.config.l2Slots, (st.l2Slots v).valid = true → (st.l2Slots v).l1Idx ≠ i := by
  simp [findSlot]

theorem WriteState.findSlot_some (h : st.findSlot i = some v) :
    v < st.config.l2Slots ∧ (st.l2Slots v).valid = true ∧ (st.l2Slots v).l1Idx = i := by
  have hmem := List.mem_of_find?_eq_some h
  have hp := List.find?_some h
  simp only [Bool.and_eq_true, beq_iff_eq] at hp
  exact ⟨List.mem_range.mp hmem, hp.1, hp.2⟩

theorem WriteState.findSlot_isSome (hv : v < st.config.l2Slots)
    (hvalid : (st.l2Slots v).valid = true)
    (hidx : (st.l2Slots v).l1Idx = i) : (st.findSlot i).isSome := by
  rw [Option.isSome_iff_ne_none]
  intro hnone
  exact findSlot_eq_none.mp hnone v hv hvalid hidx

theorem WriteState.pickVictim_lt (h : 0 < st.config.l2Slots) :
    st.pickVictim < st.config.l2Slots := by
  have hgo : ∀ is best access, best < st.config.l2Slots → (∀ i ∈ is, i < st.config.l2Slots) →
      pickVictimGo st.l2Slots is best access < st.config.l2Slots := by
    intro is
    induction is with
    | nil => exact fun best access hbest _ => hbest
    | cons i is ih =>
      intro best access hbest his
      unfold pickVictimGo
      have hi := his i (by simp)
      have his' : ∀ i ∈ is, i < st.config.l2Slots := fun i hi => his i (by simp [hi])
      split
      · exact hi
      split
      · exact ih _ _ hi his'
      · exact ih _ _ hbest his'
  exact hgo _ _ _ h fun i hi => List.mem_range.mp hi

/-- Distinct valid slots hold distinct tables. -/
def SlotsInj (n : Nat) (slots : Nat → L2Slot) : Prop :=
  ∀ i < n, ∀ j < n, (slots i).valid = true → (slots j).valid = true →
    (slots i).l1Idx = (slots j).l1Idx → i = j

theorem SlotsInj.update (h : SlotsInj n slots)
    (hslot : slot.valid = true → ∀ i < n, i ≠ v → (slots i).valid = true →
      (slots i).l1Idx ≠ slot.l1Idx) : SlotsInj n (Function.update slots v slot) := by
  intro i hi j hj hvi hvj hidx
  by_cases hiv : i = v <;> by_cases hjv : j = v
  · rw [hiv, hjv]
  · subst hiv
    rw [update_self] at hvi hidx
    rw [update_of_ne hjv] at hvj hidx
    exact absurd hidx.symm (hslot hvi j hj hjv hvj)
  · subst hjv
    rw [update_self] at hvj hidx
    rw [update_of_ne hiv] at hvi hidx
    exact absurd hidx (hslot hvj i hi hiv hvi)
  · rw [update_of_ne hiv] at hvi hidx
    rw [update_of_ne hjv] at hvj hidx
    exact h i hi j hj hvi hvj hidx

theorem SlotsInj.update_same (h : SlotsInj n slots) (hv : v < n)
    (hvalid : slot.valid = true → (slots v).valid = true) (hidx : slot.l1Idx = (slots v).l1Idx) :
    SlotsInj n (Function.update slots v slot) := by
  refine h.update fun hslot i hi hiv hvi heq => ?_
  rw [hidx] at heq
  exact hiv (h i hi v hv hvi (hvalid hslot) heq)

/-! ## The planner's invariant -/

/-- The stages at which the slot is being freed for another table. -/
def ClusterStage.beforeSlot : ClusterStage → Bool
  | .slotFree | .freshAlloc | .cowL2Load => true
  | _ => false

/-- The stages at which the slot holds the table of the current cluster. -/
def ClusterStage.onSlot : ClusterStage → Bool
  | .enter | .slotFree | .freshAlloc | .cowL2Load => false
  | _ => true

/-- What a write in progress keeps. -/
structure WriteKeep (st : WriteState) (prog : WriteProgress) : Prop where
  geo : st.geometry.Wf
  slots : 0 < st.config.l2Slots
  inj : SlotsInj st.config.l2Slots st.l2Slots
  active : prog.stage ≠ .enter → prog.consumed < prog.len
  freeSlot : prog.stage.beforeSlot = true → prog.slot < st.config.l2Slots ∧
    (∀ v < st.config.l2Slots, (st.l2Slots v).valid = true →
      (st.l2Slots v).l1Idx ≠ prog.l1Idx st.geometry) ∧
    ¬ ((st.l2Slots prog.slot).valid = true ∧ (st.l2Slots prog.slot).dirty = true)
  heldSlot : prog.stage.onSlot = true → prog.slot < st.config.l2Slots ∧
    (st.l2Slots prog.slot).valid = true ∧ (st.l2Slots prog.slot).l1Idx = prog.l1Idx st.geometry

/-- How many stages are left of a cluster at a stage. -/
def ClusterStage.rank : ClusterStage → Nat
  | .enter => 14
  | .slotFree => 13
  | .freshAlloc | .cowL2Load => 12
  | .freshZeroed | .cowL2Repoint => 11
  | .cowL2Decrement => 10
  | .slotReady => 8
  | .dataAlloc | .cowDataEnter => 7
  | .headDone | .cowDataCopy => 6
  | .bodyDone | .cowDataBody => 5
  | .tailDone | .cowDataPatch => 4
  | .cowDataDecrement => 3

/-- A bound on the moves left: entering a cluster whose table is in the window is cheaper than
entering one whose table has to be fetched first. -/
def writeRank (st : WriteState) (prog : WriteProgress) : Nat :=
  15 * (prog.len - prog.consumed) +
    if prog.stage = .enter ∧ (st.findSlot (prog.l1Idx st.geometry)).isSome then 9
    else prog.stage.rank

theorem writeRank_lt (st : WriteState) (prog : WriteProgress) :
    writeRank st prog < 15 * (prog.len - prog.consumed) + 15 := by
  unfold writeRank
  have hrank : prog.stage.rank ≤ 14 := by
    cases prog.stage <;> decide
  split <;> omega

theorem writeRank_of_ne {prog : WriteProgress} (h : prog.stage ≠ .enter) :
    writeRank st prog = 15 * (prog.len - prog.consumed) + prog.stage.rank := by
  simp [writeRank, h]

section

variable {st : WriteState} {rb rb' : Buffer} {l1Raw l2Raw : Nat} {prog held next : WriteProgress}
  {step : Option Step} {update : WriteState → WriteState} {close : Bool}

@[simp] theorem countStep_geometry : (st.countStep step).geometry = st.geometry := by
  cases step <;> rfl
@[simp] theorem countStep_config : (st.countStep step).config = st.config := by
  cases step <;> rfl
@[simp] theorem countStep_l2Slots : (st.countStep step).l2Slots = st.l2Slots := by
  cases step <;> rfl
@[simp] theorem countStep_slotPendingZero :
    (st.countStep step).slotPendingZero = st.slotPendingZero := by
  cases step <;> rfl
@[simp] theorem countStep_allocCursor : (st.countStep step).allocCursor = st.allocCursor := by
  cases step <;> rfl
@[simp] theorem countStep_refblockDirty : (st.countStep step).refblockDirty = st.refblockDirty := by
  cases step <;> rfl
@[simp] theorem countStep_l1Dirty : (st.countStep step).l1Dirty = st.l1Dirty := by
  cases step <;> rfl
@[simp] theorem countStep_pending : (st.countStep step).pending = st.pending := by
  cases step <;> rfl
@[simp] theorem countStep_cowEnabled : (st.countStep step).cowEnabled = st.cowEnabled := by
  cases step <;> rfl
@[simp] theorem countStep_hasBacking : (st.countStep step).hasBacking = st.hasBacking := by
  cases step <;> rfl
@[simp] theorem pendingZeroClearAll_l2Slots : st.pendingZeroClearAll.l2Slots = st.l2Slots := rfl
@[simp] theorem pendingZeroClearAll_refblockDirty :
    st.pendingZeroClearAll.refblockDirty = st.refblockDirty := rfl
@[simp] theorem pendingZeroClearAll_l1Dirty : st.pendingZeroClearAll.l1Dirty = st.l1Dirty := rfl

variable {st' : WriteState}

theorem WriteProgress.winLen_pos {geo : Geometry} (hgeo : geo.Wf)
    (hlt : prog.consumed < prog.len) : 0 < prog.winLen geo := by
  have hin : prog.cur % geo.clusterSize < geo.clusterSize := Nat.mod_lt _ hgeo.size_pos
  unfold winLen inOff
  omega

theorem WriteProgress.winLen_le (geo : Geometry) (prog : WriteProgress) :
    prog.winLen geo ≤ prog.len - prog.consumed :=
  min_le_right _ _

/-- Entering the next cluster costs less than finishing this one. -/
theorem writeRank_advance (hgeo : st.geometry.Wf) (hlt : prog.consumed < prog.len)
    (hne : prog.stage ≠ .enter) : writeRank st' (prog.advance st.geometry) < writeRank st prog := by
  have hpos := prog.winLen_pos hgeo hlt
  have hnext := writeRank_lt st' (prog.advance st.geometry)
  have hleft : (prog.advance st.geometry).len - (prog.advance st.geometry).consumed + 1
      ≤ prog.len - prog.consumed := by
    show prog.len - (prog.consumed + prog.winLen st.geometry) + 1 ≤ prog.len - prog.consumed
    omega
  rw [writeRank_of_ne hne]
  omega

/-- A move to the start of the same cluster, with its table in the window. -/
theorem writeRank_reenter (hlen : next.len = prog.len) (hconsumed : next.consumed = prog.consumed)
    (hstage : prog.stage ≠ .enter) (hnext : next.stage = .enter)
    (hslot : (st'.findSlot (next.l1Idx st'.geometry)).isSome = true) (hrank : 9 < prog.stage.rank) :
    writeRank st' next < writeRank st prog := by
  rw [writeRank_of_ne hstage, writeRank, if_pos ⟨hnext, hslot⟩, hlen, hconsumed]
  omega

theorem WriteMove.rank_lt (hkeep : WriteKeep st prog) (hlt : prog.consumed < prog.len)
    (h : WriteMove st rb l1Raw l2Raw prog step held update rb' next close) :
    writeRank (update (st.countStep step)) next < writeRank st prog := by
  have later : ∀ {st' : WriteState} {next : WriteProgress}, next.len = prog.len →
      next.consumed = prog.consumed → prog.stage ≠ .enter → next.stage ≠ .enter →
      next.stage.rank < prog.stage.rank → writeRank st' next < writeRank st prog := by
    intro st' next hlen hconsumed hstage hnext hrank
    rw [writeRank_of_ne hstage, writeRank_of_ne hnext, hlen, hconsumed]
    omega
  cases h with
  | hit hstage hslot =>
    rw [writeRank_of_ne (by simp), writeRank, if_pos ⟨hstage, by simp [hslot]⟩]
    simp [rank]
  | evict hstage hslot hdirty | reuse hstage hslot hclean =>
    rw [writeRank_of_ne (by simp), writeRank, if_neg (by simp [hslot]), hstage]
    simp [rank]
  | load hstage hraw hl1 =>
    obtain ⟨hslot, -, -⟩ := hkeep.freeSlot (by simp [hstage, beforeSlot])
    refine writeRank_reenter rfl rfl (by simp [hstage]) rfl ?_ (by simp [hstage, rank])
    refine findSlot_isSome (v := prog.slot) ?_ ?_ ?_
    · simpa [assignSlot, setSlot] using hslot
    · simp [assignSlot, setSlot]
    · simp [assignSlot, setSlot, l1Idx, cur]
  | dropTable hstage hdec =>
    obtain ⟨hslot, hvalid, hidx⟩ := hkeep.heldSlot (by simp [hstage, onSlot])
    refine writeRank_reenter rfl rfl (by simp [hstage]) rfl ?_ (by simp [hstage, rank])
    exact findSlot_isSome (v := prog.slot) hslot hvalid hidx
  | owned hstage hl2 | installData hstage | dropData hstage hdec =>
    exact writeRank_advance hkeep.geo hlt (by simp [hstage])
  | _ =>
    -- every other move goes on to a later stage of the same cluster
    refine later rfl rfl ?_ ?_ ?_ <;> simp [*, rank]

variable (h : WriteKeep st prog)

include h

variable (hgeo : st'.geometry = st.geometry)

include hgeo

variable (hconfig : st'.config = st.config)

include hconfig

theorem WriteKeep.same_slots (hslots : st'.l2Slots = st.l2Slots) (hslot : next.slot = prog.slot)
    (hcur : next.cur = prog.cur) (hactive : next.stage ≠ .enter → next.consumed < next.len)
    (hbefore : next.stage.beforeSlot = true → prog.stage.beforeSlot = true)
    (hon : next.stage.onSlot = true → prog.stage.onSlot = true) : WriteKeep st' next := by
  have hidx : next.l1Idx st'.geometry = prog.l1Idx st.geometry := by
    rw [hgeo, l1Idx, l1Idx, hcur]
  refine ⟨hgeo ▸ h.geo, hconfig ▸ h.slots, ?_, hactive, ?_, ?_⟩
  · rw [hconfig, hslots]
    exact h.inj
  · intro hstage
    rw [hidx, hconfig, hslots, hslot]
    exact h.freeSlot (hbefore hstage)
  · intro hstage
    rw [hidx, hconfig, hslots, hslot]
    exact h.heldSlot (hon hstage)

theorem WriteKeep.at_enter (hinj : SlotsInj st.config.l2Slots st'.l2Slots)
    (henter : next.stage = .enter) : WriteKeep st' next := by
  refine ⟨hgeo ▸ h.geo, hconfig ▸ h.slots, by rw [hconfig]; exact hinj, ?_, ?_, ?_⟩
  · exact fun hne => absurd henter hne
  · intro hstage
    simp [henter, beforeSlot] at hstage
  · intro hstage
    simp [henter, onSlot] at hstage

/-- The slot a write works with, changed without changing its table. -/
theorem WriteKeep.on_slot {slot : L2Slot} {v : Nat}
    (hslots : st'.l2Slots = Function.update st.l2Slots v slot)
    (hv : v < st.config.l2Slots) (hvalid : slot.valid = true)
    (hidx : slot.l1Idx = prog.l1Idx st.geometry)
    (hother : ∀ i < st.config.l2Slots, i ≠ v → (st.l2Slots i).valid = true →
      (st.l2Slots i).l1Idx ≠ prog.l1Idx st.geometry) (hslot : next.slot = v)
      (hcur : next.cur = prog.cur)
    (hactive : next.stage ≠ .enter → next.consumed < next.len)
      (hon : next.stage.beforeSlot = false) :
    WriteKeep st' next := by
  have hnext : next.l1Idx st'.geometry = prog.l1Idx st.geometry := by
    rw [hgeo, l1Idx, l1Idx, hcur]
  refine ⟨hgeo ▸ h.geo, hconfig ▸ h.slots, ?_, hactive, ?_, ?_⟩
  · rw [hconfig, hslots]
    refine h.inj.update fun _ i hi hne hvi => ?_
    rw [hidx]
    exact hother i hi hne hvi
  · intro hstage
    rw [hon] at hstage
    cases hstage
  · intro _
    rw [hnext, hconfig, hslots, hslot, update_self]
    exact ⟨hv, hvalid, hidx⟩

omit hconfig hgeo

/-- Other slots do not hold the table of the slot a write works with. -/
theorem WriteKeep.others {v : Nat} (hv : v < st.config.l2Slots)
    (hvalid : (st.l2Slots v).valid = true) (hidx : (st.l2Slots v).l1Idx = prog.l1Idx st.geometry) :
    ∀ i < st.config.l2Slots, i ≠ v → (st.l2Slots i).valid = true →
      (st.l2Slots i).l1Idx ≠ prog.l1Idx st.geometry := by
  intro i hi hne hvi heq
  exact hne (h.inj i hi v hv hvi hvalid (by rw [heq, hidx]))

omit h

/-- Every move keeps the planner's invariant. -/
theorem WriteMove.keep (hkeep : WriteKeep st prog) (hlt : prog.consumed < prog.len)
    (h : WriteMove st rb l1Raw l2Raw prog step held update rb' next close) :
    WriteKeep (update (st.countStep step)) next := by
  cases h with
  | @hit v hstage hslot =>
    obtain ⟨hv, hvalid, hidx⟩ := findSlot_some hslot
    exact hkeep.on_slot rfl rfl rfl hv hvalid hidx (hkeep.others hv hvalid hidx) rfl rfl (fun _ =>
      hlt) rfl
  | evict hstage hslot hdirty =>
    have hnone := findSlot_eq_none.mp hslot
    have hv := pickVictim_lt hkeep.slots
    refine ⟨hkeep.geo, hkeep.slots, ?_, fun _ => hlt, fun _ => ⟨hv, ?_, ?_⟩, ?_⟩
    · exact hkeep.inj.update fun hvalid => by cases hvalid
    · intro v hv' hvalid
      by_cases hne : v = st.pickVictim
      · subst hne
        simp [setSlot] at hvalid
      · simp only [setSlot, countStep_l2Slots, update_of_ne hne] at hvalid ⊢
        exact hnone v hv' hvalid
    · simp [setSlot]
    · intro hon
      cases hon
  | reuse hstage hslot hclean =>
    have hnone := findSlot_eq_none.mp hslot
    have hv := pickVictim_lt hkeep.slots
    refine ⟨hkeep.geo, hkeep.slots, hkeep.inj, fun _ => hlt, fun _ => ⟨hv, hnone, hclean⟩, ?_⟩
    intro hon
    cases hon
  | load hstage hraw hl1 =>
    obtain ⟨hslot, hother, -⟩ := hkeep.freeSlot (by simp [hstage, beforeSlot])
    refine hkeep.at_enter rfl rfl ?_ rfl
    exact hkeep.inj.update fun _ i hi _ hvi => hother i hi hvi
  | zeroTable hstage | loadOld hstage =>
    obtain ⟨hslot, hother, -⟩ := hkeep.freeSlot (by simp [hstage, beforeSlot])
    exact hkeep.on_slot rfl rfl rfl hslot rfl rfl (fun i hi _ hvi => hother i hi hvi) rfl rfl
      (fun _ => hlt) rfl
  | installTable hstage | copyInstall hstage =>
    obtain ⟨hslot, hvalid, hidx⟩ := hkeep.heldSlot (by simp [hstage, onSlot])
    exact hkeep.on_slot rfl rfl rfl hslot hvalid hidx (hkeep.others hslot hvalid hidx) rfl rfl
      (fun _ => hlt) rfl
  | installData hstage =>
    obtain ⟨hslot, hvalid, hidx⟩ := hkeep.heldSlot (by simp [hstage, onSlot])
    refine hkeep.at_enter rfl rfl ?_ rfl
    exact hkeep.inj.update_same hslot (fun _ => hvalid) rfl
  | owned hstage hl2 | dropTable hstage hdec | dropData hstage hdec =>
    exact hkeep.at_enter rfl rfl hkeep.inj rfl
  | head hstage | tail hstage =>
    refine hkeep.same_slots ?_ ?_ ?_ rfl rfl (fun _ => hlt) ?_ ?_ <;>
      simp [hstage, beforeSlot, onSlot]
  | _ =>
    -- the slots stay as they are
    refine hkeep.same_slots rfl rfl rfl rfl rfl (fun _ => hlt) ?_ ?_ <;>
      simp [*, beforeSlot, onSlot]

end

/-! ## How far a flush has come -/

/-- No slot holds a table that still has to be written. -/
def SlotsClean (st : WriteState) : Prop :=
  ∀ v < st.config.l2Slots, ¬ ((st.l2Slots v).valid = true ∧ (st.l2Slots v).dirty = true)

/-- What a flush has written at a stage. -/
def FlushProgress.Past (st : WriteState) (prog : FlushProgress) : Prop :=
  match prog.stage with
  | .preBarrier => True
  | .l2Writebacks => ∀ v < prog.nextIdx, ¬ ((st.l2Slots v).valid = true ∧
    (st.l2Slots v).dirty = true)
  | .l1Barrier | .l1Write => SlotsClean st
  | .rbBarrier => SlotsClean st ∧ st.l1Dirty = false
  | .rbWritebacks =>
    SlotsClean st ∧ st.l1Dirty = false ∧ ∀ i < prog.nextIdx, st.refblockDirty i = false
  | .endBarrier => SlotsClean st ∧ st.l1Dirty = false ∧
      ∀ i < st.config.maxRefblocks, st.refblockDirty i = false

theorem FlushMove.past {sg : StagedRegions} {prog next : FlushProgress} {step : Option Step}
    {update : WriteState → WriteState} (h : prog.Past st)
    (hmove : FlushMove st sg prog step update next) : next.Past (update (st.countStep step)) := by
  have hslots : ∀ {st' : WriteState}, st'.config = st.config → st'.l2Slots = st.l2Slots →
      SlotsClean st → SlotsClean st' := by
    intro st' hconfig hslots hclean
    unfold SlotsClean
    rw [hconfig, hslots]
    exact hclean
  unfold FlushProgress.Past at h
  cases hmove with
  | first => exact fun v hv => absurd hv (Nat.not_lt_zero v)
  | @table idx hstage hidx =>
    obtain ⟨-, -, -, -, hfirst⟩ := nextDirtySlot_some hidx
    simp only [hstage] at h
    simp only [FlushProgress.Past, hstage]
    intro v hv
    by_cases hvi : v = idx
    · subst hvi
      simp [setSlot]
    · simp only [setSlot, countStep_l2Slots, update_of_ne hvi]
      by_cases hvn : v < prog.nextIdx
      · exact h v hvn
      · exact hfirst v (by omega) (by omega)
  | tables hstage hidx =>
    simp only [hstage] at h
    intro v hv
    by_cases hvn : v < prog.nextIdx
    · exact h v hvn
    · exact nextDirtySlot_none hidx v (by omega) hv
  | l1Barrier hstage hdirty =>
    simp only [hstage] at h
    exact hslots countStep_config countStep_l2Slots h
  | l1Clean hstage hdirty =>
    simp only [hstage] at h
    exact ⟨h, hdirty⟩
  | l1 hstage =>
    simp only [hstage] at h
    exact ⟨hslots countStep_config countStep_l2Slots h, rfl⟩
  | rbBarrier hstage hdirty =>
    simp only [hstage] at h
    exact ⟨hslots countStep_config countStep_l2Slots h.1, countStep_l1Dirty.trans h.2,
      fun i hi => absurd hi (Nat.not_lt_zero i)⟩
  | rbClean hstage hdirty =>
    simp only [hstage] at h
    exact ⟨h.1, h.2, fun i hi => nextDirtyRefblock_none hdirty i (Nat.zero_le i) hi⟩
  | @block idx hstage hidx =>
    obtain ⟨-, -, -, hfirst⟩ := nextDirtyRefblock_some hidx
    simp only [hstage] at h
    simp only [FlushProgress.Past, hstage]
    refine ⟨hslots countStep_config countStep_l2Slots h.1, countStep_l1Dirty.trans h.2.1,
      fun i hi => ?_⟩
    by_cases hii : i = idx
    · subst hii
      simp [refblockDirtyClear]
    · simp only [refblockDirtyClear, countStep_refblockDirty, update_of_ne hii]
      by_cases hin : i < prog.nextIdx
      · exact h.2.2 i hin
      · exact hfirst i (by omega) (by omega)
  | blocks hstage hidx =>
    simp only [hstage] at h
    refine ⟨h.1, h.2.1, fun i hi => ?_⟩
    by_cases hin : i < prog.nextIdx
    · exact h.2.2 i hin
    · exact nextDirtyRefblock_none hidx i (by omega) hi

end Instar.Write
