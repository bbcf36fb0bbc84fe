import Instar.Lib.Trace
import Instar.Write.Serve

/-!
# Crash ordering

The order of the steps of a whole run, writes and flushes: data clusters are filled before an entry
names them, L2 tables reach the disk before an L1 that names them, refcounts last, and every flush
has the shape `[B] tables [B] L1 [B] refblocks [B]` with empty groups left out.
-/

namespace Instar.Write

open Instar.Qcow2 Instar.Trace Function WriteProgress WriteState ClusterStage List Option Step

/-! ## Kinds of steps -/

namespace Step

section

variable (s : Step)

def isBarrier : Bool :=
  match s.kind with
  | .barrier _ => true
  | _ => false

/-- The step writes the disk byte `b` from data or with a constant. -/
def Fills (b : Nat) : Prop :=
  (s.kind = .writeRange ∨ s.kind = .zeroRange ∨ s.kind = .fillRange) ∧
    s.diskOffset ≤ b ∧ b < s.diskOffset + s.len

/-- The step makes a data cluster reachable. -/
def InstallsData : Prop := s.kind = .patchEntryU64 ∧ ∃ slot, s.region = .l2Slot slot

/-- The step makes an L2 table reachable. -/
def InstallsTable : Prop := s.kind = .patchEntryU64 ∧ s.region = .l1

def WritesL1 : Prop := s.kind = .writeRange ∧ s.region = .l1

def WritesBlocks : Prop := s.kind = .writeRange ∧ s.region = .refblocks

/-- The step writes a slot's table to `host`. -/
def WritesTable (host : Nat) : Prop := s.kind = .writebackCluster ∧ s.diskOffset = host

end

end Step

/-- The last step so far is not a barrier. -/
def barrierDue (l : List Step) : Bool :=
  match l.getLast? with
  | none => false
  | some s => !s.isBarrier

@[simp] theorem barrierDue_nil : barrierDue [] = false := rfl

@[simp] theorem barrierDue_snoc (l : List Step) (s : Step) :
    barrierDue (l ++ [s]) = !s.isBarrier := by
  simp [barrierDue]

/-- The steps fill every byte of `[lo, hi)`. -/
def Covers (l : List Step) (lo hi : Nat) : Prop := ∀ b, lo ≤ b → b < hi → ∃ s ∈ l, s.Fills b

variable {l : List Step} {lo hi len : Nat} {st st' : WriteState} {s : Step}

theorem Covers.append (h : Covers l lo hi) (l' : List Step) : Covers (l ++ l') lo hi := by
  intro b hlo hhi
  obtain ⟨s, hs, hfills⟩ := h b hlo hhi
  exact ⟨s, mem_append_left _ hs, hfills⟩

theorem Covers.empty (l : List Step) (h : hi ≤ lo) : Covers l lo hi := by
  intro b hlo hhi
  omega

/-- A step that fills the next range extends the covered one. -/
theorem Covers.extend {mid : Nat} (h : Covers l lo mid)
    (hs : ∀ b, mid ≤ b → b < hi → s.Fills b) : Covers (l ++ [s]) lo hi := by
  intro b hlo hhi
  by_cases hb : b < mid
  · obtain ⟨s', hs', hfills⟩ := h b hlo hb
    exact ⟨s', mem_append_left _ hs', hfills⟩
  · exact ⟨s, by simp, hs b (by omega) hhi⟩

/-! ## The contract -/

/-- Before an L2 patch, the steps so far have filled the cluster it names. -/
def DataFirst (cs : Nat) : List Step → Prop :=
  Guarded Step.InstallsData fun pre s => Covers pre (hostOf s.value) (hostOf s.value + cs)

/-- The table an L1 patch names has been written back since. -/
def WrittenBack (s : Step) (post : List Step) : Prop := ∃ w ∈ post, w.WritesTable (hostOf s.value)

/-- The table an L1 patch names has been written back since, and then there was a barrier. -/
def SealedBack (s : Step) (post : List Step) : Prop :=
  ∃ m1 w m2 b m3, post = m1 ++ w :: (m2 ++ b :: m3) ∧ w.WritesTable (hostOf s.value) ∧
    b.isBarrier = true

/-- Before the L1 is written, every table patched into it is on disk behind a barrier. -/
def TablesFirst : List Step → Prop :=
  Guarded Step.WritesL1 fun pre _ => Awaits Step.InstallsTable SealedBack pre

/-- Every barrier comes right after a step that is not one. -/
def BarriersApart : List Step → Prop :=
  Guarded (fun s => s.isBarrier = true) fun pre _ => barrierDue pre = true

/-- A table written back before the last barrier is sealed. -/
theorem WrittenBack.seal {pre post : List Step} (h : WrittenBack s post)
    (hdue : barrierDue (pre ++ s :: post) = false) : SealedBack s post := by
  obtain ⟨w, hw, htable⟩ := h
  rcases eq_nil_or_concat post with rfl | ⟨post', b, rfl⟩
  · cases hw
  have hb : b.isBarrier = true := by
    have hsplit : pre ++ s :: (post' ++ [b]) = (pre ++ s :: post') ++ [b] := by simp
    rw [concat_eq_append, hsplit, barrierDue_snoc] at hdue
    simpa using hdue
  rw [concat_eq_append] at hw ⊢
  rcases mem_append.mp hw with hw | hw
  · obtain ⟨m1, m2, rfl⟩ := append_of_mem hw
    exact ⟨m1, w, m2, b, [], by simp, htable, hb⟩
  · -- a writeback is not a barrier
    obtain rfl : w = b := by simpa using hw
    simp [isBarrier, htable.1] at hb

/-! ## The invariant of the planner state -/

/-- The slot holds a changed table that belongs at `host`. -/
def HoldsDirty (st : WriteState) (host : Nat) : Prop :=
  ∃ v < st.config.l2Slots, (st.l2Slots v).valid = true ∧ (st.l2Slots v).dirty = true ∧
    (st.l2Slots v).hostOffset = host

/-- How the planner state goes with the steps emitted so far: a patched-in table is on disk or still
dirty in the window. -/
structure OrderInv (st : WriteState) (l : List Step) : Prop where
  due : st.stepsSinceBarrier ≠ 0 ↔ barrierDue l = true
  data : DataFirst st.geometry.clusterSize l
  tables : TablesFirst l
  apart : BarriersApart l
  held : Awaits Step.InstallsTable (fun s post => WrittenBack s post ∨
    HoldsDirty st (hostOf s.value)) l

theorem orderInv_new (h : st.stepsSinceBarrier = 0) : OrderInv st [] :=
  ⟨by simp [h], Guarded.nil _ _, Guarded.nil _ _, Guarded.nil _ _, Awaits.nil _ _⟩

/-- A state that differs only in what the order does not depend on. -/
theorem OrderInv.congr (h : OrderInv st l) (hgeo : st'.geometry = st.geometry)
    (hconfig : st'.config = st.config) (hsteps : st'.stepsSinceBarrier = st.stepsSinceBarrier)
    (hslots : st'.l2Slots = st.l2Slots) : OrderInv st' l := by
  refine ⟨by rw [hsteps]; exact h.due, by rw [hgeo]; exact h.data, h.tables, h.apart, ?_⟩
  refine h.held.mono fun pre s post _ _ hs => hs.imp id ?_
  unfold HoldsDirty
  rw [hconfig, hslots]
  exact id

theorem barrierDue_countStep (h : st.stepsSinceBarrier ≠ 0 ↔ barrierDue l = true)
    (step : Option Step) :
    (st.countStep step).stepsSinceBarrier ≠ 0 ↔ barrierDue (l ++ step.toList) = true := by
  cases step with
  | none =>
    rw [toList_none, append_nil]
    exact h
  | some s =>
    rw [toList_some, barrierDue_snoc]
    unfold countStep isBarrier
    dsimp only
    cases s.kind <;> simp

/-- Emitting a step keeps the order if it is emitted at the right time, and changing the slots keeps
it if dirty tables are written back. -/
theorem OrderInv.push {step : Option Step} (h : OrderInv st l)
    (hframe : SameFrame (st.countStep step) st') (hdata : ∀ s, step = some s → s.InstallsData →
      Covers l (hostOf s.value) (hostOf s.value + st.geometry.clusterSize))
    (hl1 : ∀ s, step = some s → s.WritesL1 → st.stepsSinceBarrier = 0 ∧
      ∀ host, ¬ HoldsDirty st host)
    (hbarrier : ∀ s, step = some s → s.isBarrier = true → st.stepsSinceBarrier ≠ 0)
    (hslots : ∀ host, HoldsDirty st host → HoldsDirty st' host ∨ ∃ s, step = some s ∧
      s.WritesTable host)
    (hnew : ∀ s, step = some s → s.InstallsTable → HoldsDirty st' (hostOf s.value)) :
    OrderInv st' (l ++ step.toList) := by
  have hgeo : st'.geometry = st.geometry := hframe.geometry.trans countStep_geometry
  have hdue : st'.stepsSinceBarrier ≠ 0 ↔ barrierDue (l ++ step.toList) = true := by
    rw [hframe.steps]
    exact barrierDue_countStep h.due step
  cases step with
  | none =>
    rw [toList_none, append_nil] at hdue ⊢
    refine ⟨hdue, by rw [hgeo]; exact h.data, h.tables, h.apart, ?_⟩
    refine h.held.mono fun pre s post _ _ hs => hs.imp id fun hdirty => ?_
    rcases hslots _ hdirty with hdirty' | ⟨s', hs', -⟩
    · exact hdirty'
    · cases hs'
  | some t =>
    refine ⟨hdue, ?_, ?_, h.apart.snoc fun ht => h.due.mp (hbarrier t rfl ht), ?_⟩
    · rw [hgeo]
      exact h.data.snoc (hdata t rfl)
    · refine h.tables.snoc fun ht => ?_
      obtain ⟨hzero, hclean⟩ := hl1 t rfl ht
      refine h.held.mono fun pre s post heq _ hs => ?_
      rcases hs with hback | hdirty
      · have hdue' : barrierDue l = false := Bool.eq_false_iff.mpr fun hd => h.due.mpr hd hzero
        rw [heq] at hdue'
        exact hback.seal hdue'
      · exact absurd hdirty (hclean _)
    · refine h.held.snoc (fun s post _ hs => ?_) fun ht => .inr (hnew t rfl ht)
      rcases hs with ⟨w, hw, htable⟩ | hdirty
      · exact .inl ⟨w, mem_append_left _ hw, htable⟩
      · rcases hslots _ hdirty with hdirty' | ⟨s', hs', htable⟩
        · exact .inr hdirty'
        · cases hs'
          exact .inl ⟨t, by simp, htable⟩

/-! ## Writes -/

/-- The stages at which a table cluster has been allocated and not yet installed. -/
def ClusterStage.newTable : ClusterStage → Bool
  | .freshAlloc | .freshZeroed | .cowL2Load | .cowL2Repoint => true
  | _ => false

/-- The stages at which a data cluster has been chosen and not yet installed. -/
def ClusterStage.newData : ClusterStage → Bool
  | .dataAlloc | .headDone | .bodyDone | .tailDone | .cowDataEnter | .cowDataCopy | .cowDataBody
  | .cowDataPatch => true
  | _ => false

/-- How much of the new data cluster has been filled at a stage. -/
def WriteProgress.Filled (geo : Geometry) (prog : WriteProgress) (l : List Step) : Prop :=
  match prog.stage with
  | .headDone => Covers l prog.dataHost (prog.dataHost + prog.inOff geo)
  | .bodyDone => Covers l prog.dataHost (prog.dataHost + (prog.inOff geo + prog.winLen geo))
  | .tailDone | .cowDataPatch => Covers l prog.dataHost (prog.dataHost + geo.clusterSize)
  | .cowDataBody => (prog.inOff geo = 0 ∧ prog.winLen geo = geo.clusterSize) ∨
      Covers l prog.dataHost (prog.dataHost + geo.clusterSize)
  | _ => True

/-- The order of a write in progress. -/
structure WriteOrder (st : WriteState) (prog : WriteProgress) (l : List Step) : Prop where
  order : OrderInv st l
  slot : prog.stage = .freshZeroed ∨ prog.stage = .cowL2Repoint →
    (st.l2Slots prog.slot).dirty = true ∧ (st.l2Slots prog.slot).hostOffset = prog.l2Host
  table : prog.stage.newTable = true → HostOk st.geometry prog.l2Host
  data : prog.stage.newData = true → HostOk st.geometry prog.dataHost
  filled : prog.Filled st.geometry l

section

variable {st st' : WriteState} {rb rb' : Buffer} {l1Raw l2Raw host off : Nat}
  {prog held next : WriteProgress}
  {step : Option Step} {update : WriteState → WriteState} {close : Bool} {l : List Step}
  {dev : TargetDevice}

theorem HoldsDirty.of_slots (h : HoldsDirty st host) (hconfig : st'.config = st.config)
    (hslots : ∀ v, (st.l2Slots v).valid = true → (st.l2Slots v).dirty = true →
      (st'.l2Slots v).valid = true ∧ (st'.l2Slots v).dirty = true ∧
        (st'.l2Slots v).hostOffset = (st.l2Slots v).hostOffset) : HoldsDirty st' host := by
  obtain ⟨v, hv, hvalid, hdirty, rfl⟩ := h
  obtain ⟨hvalid', hdirty', hhost⟩ := hslots v hvalid hdirty
  exact ⟨v, by rw [hconfig]; exact hv, hvalid', hdirty', hhost⟩

theorem HoldsDirty.set_slot {v : Nat} {slot : L2Slot} (h : HoldsDirty st host)
    (hconfig : st'.config = st.config) (hslots : st'.l2Slots = Function.update st.l2Slots v slot)
    (hslot : (st.l2Slots v).valid = true → (st.l2Slots v).dirty = true →
      slot.valid = true ∧ slot.dirty = true ∧ slot.hostOffset = (st.l2Slots v).hostOffset) :
    HoldsDirty st' host := by
  refine h.of_slots hconfig fun w hvalid hdirty => ?_
  rw [hslots]
  by_cases hw : w = v
  · subst hw
    rw [update_self]
    exact hslot hvalid hdirty
  · rw [update_of_ne hw]
    exact ⟨hvalid, hdirty, rfl⟩

/-- What the body step fills. -/
theorem bodyAt_fills (st : WriteState) (prog : WriteProgress) (host b : Nat)
    (hlo : host + prog.inOff st.geometry ≤ b)
    (hhi : b < host + (prog.inOff st.geometry + prog.winLen st.geometry)) :
    (bodyAt st prog host).Fills b := by
  unfold bodyAt bodyStep
  cases prog.data with
  | callerData offset => exact ⟨.inl rfl, hlo, by dsimp only; omega⟩
  | fill byte => exact ⟨.inr (.inr rfl), hlo, by dsimp only; omega⟩

theorem zeroRange_fills {b : Nat} (hlo : off ≤ b) (hhi : b < off + len) :
    (zeroRangeStep off len dev).Fills b :=
  ⟨.inr (.inl rfl), hlo, hhi⟩

/-- A step that is neither a patch nor a write of the L1 nor a barrier. -/
def Step.Ordinary (s : Step) : Prop := s.kind ≠ .patchEntryU64 ∧ ¬ s.WritesL1 ∧ s.isBarrier = false

/-- An ordinary step, with slots that keep their changed tables. -/
theorem OrderInv.ordinary (h : OrderInv st l) (hframe : SameFrame (st.countStep step) st')
    (hstep : ∀ s, step = some s → s.Ordinary) (hslots : ∀ host, HoldsDirty st host →
      HoldsDirty st' host ∨
      ∃ s, step = some s ∧ s.WritesTable host) : OrderInv st' (l ++ step.toList) := by
  refine h.push hframe ?_ ?_ ?_ hslots ?_
  · exact fun s hs hinst => absurd hinst.1 (hstep s hs).1
  · exact fun s hs hwrites => absurd hwrites (hstep s hs).2.1
  · intro s hs hb
    rw [(hstep s hs).2.2] at hb
    cases hb
  · exact fun s hs hinst => absurd hinst.1 (hstep s hs).1

theorem zeroRange_ordinary {c : Prop} [Decidable c] (s : Step)
    (h : (if c then some (zeroRangeStep off len dev) else none) = some s) : s.Ordinary := by
  split at h <;> cases h
  simp [Step.Ordinary, Step.WritesL1, isBarrier, zeroRangeStep]

/-- Installing a data cluster that has been filled. -/
theorem OrderInv.patch_l2 (h : OrderInv st l) (hgeo : st.geometry.Wf)
    (hhost : HostOk st.geometry prog.dataHost)
    (hfilled : Covers l prog.dataHost (prog.dataHost + st.geometry.clusterSize)) :
    OrderInv (dirtySlot (st.countStep (some (l2PatchStep st prog))) prog.slot)
      (l ++ (some (l2PatchStep st prog)).toList) := by
  refine h.push ⟨rfl, rfl, rfl, rfl, rfl, rfl⟩ ?_ ?_ ?_ (fun host hd => .inl ?_) ?_
  · rintro s ⟨⟩ -
    simp only [l2PatchStep, patchStep, hhost.patched hgeo]
    exact hfilled
  · rintro s ⟨⟩ ⟨hkind, -⟩
    cases hkind
  · rintro s ⟨⟩ hb
    cases hb
  · exact hd.set_slot rfl rfl fun hvalid _ => ⟨hvalid, rfl, rfl⟩
  · rintro s ⟨⟩ ⟨-, hregion⟩
    cases hregion

/-- A write keeps the order. -/
theorem WriteMove.orderInv (hkeep : WriteKeep st prog) (h : WriteOrder st prog l)
    (hmove : WriteMove st rb l1Raw l2Raw prog step held update rb' next close) :
    OrderInv (update (st.countStep step)) (l ++ step.toList) := by
  have hframe := hmove.frame (st.countStep step)
  have hgeo := hkeep.geo
  have hconfig : (update (st.countStep step)).config = st.config :=
    hframe.config.trans countStep_config
  -- a slot that is free to be reused holds no changed table
  have hfree : ∀ {slot : L2Slot}, prog.stage.beforeSlot = true →
      (st.l2Slots prog.slot).valid = true → (st.l2Slots prog.slot).dirty = true →
      slot.valid = true ∧ slot.dirty = true ∧
      slot.hostOffset = (st.l2Slots prog.slot).hostOffset := by
    intro slot hstage hvalid hdirty
    exact absurd ⟨hvalid, hdirty⟩ (hkeep.freeSlot hstage).2.2
  -- the slot holds the table an L1 patch installs
  have htable : ∀ {st' : WriteState}, st'.config = st.config →
      (prog.stage = .freshZeroed ∨ prog.stage = .cowL2Repoint) →
      (st'.l2Slots prog.slot).valid = (st.l2Slots prog.slot).valid →
      (st'.l2Slots prog.slot).dirty = (st.l2Slots prog.slot).dirty →
      (st'.l2Slots prog.slot).hostOffset = (st.l2Slots prog.slot).hostOffset →
      HoldsDirty st' (hostOf (prog.l2Host ||| oflagCopied)) := by
    intro st' hconfig' hstage hvalid hdirty hhost
    have hon : prog.stage.onSlot = true ∧ prog.stage.newTable = true := by
      rcases hstage with hstage | hstage <;> simp [hstage, onSlot, newTable]
    obtain ⟨hslot, hvalid', -⟩ := hkeep.heldSlot hon.1
    obtain ⟨hdirty', hhost'⟩ := h.slot hstage
    refine ⟨prog.slot, hconfig' ▸ hslot, hvalid.trans hvalid', hdirty.trans hdirty', ?_⟩
    rw [(h.table hon.2).patched hgeo, hhost, hhost']
  cases hmove with
  | hit hstage hslot =>
    refine h.order.ordinary hframe (by simp) fun host hd => .inl ?_
    exact hd.set_slot hconfig rfl fun hvalid hdirty => ⟨hvalid, hdirty, rfl⟩
  | evict hstage hslot hdirty =>
    refine h.order.ordinary hframe ?_ fun host hd => ?_
    · rintro s ⟨⟩
      simp [Step.Ordinary, Step.WritesL1, isBarrier, writebackStep]
    · -- the victim's table is what the step writes
      obtain ⟨v, hv, hvalid', hdirty', rfl⟩ := hd
      by_cases hvictim : v = st.pickVictim
      · subst hvictim
        exact .inr ⟨_, rfl, rfl, rfl⟩
      · refine .inl ⟨v, hv, ?_⟩
        simpa [setSlot, update_of_ne hvictim] using ⟨hvalid', hdirty'⟩
  | load hstage hraw hl1 | loadOld hstage | zeroTable hstage =>
    refine h.order.ordinary hframe ?_ fun host hd => .inl ?_
    · rintro s ⟨⟩
      simp [Step.Ordinary, Step.WritesL1, isBarrier, loadStep, zeroRegionStep]
    · exact hd.set_slot hconfig rfl (hfree (by simp [hstage, beforeSlot]))
  | installTable hstage =>
    refine h.order.push hframe ?_ ?_ ?_ (fun host hd => .inl ?_) ?_
    · rintro s ⟨⟩ ⟨-, slot, hslot⟩
      cases hslot
    · rintro s ⟨⟩ ⟨hkind, -⟩
      cases hkind
    · rintro s ⟨⟩ hb
      cases hb
    · exact hd.set_slot hconfig rfl fun hvalid hdirty => ⟨hvalid, hdirty, rfl⟩
    · rintro s ⟨⟩ -
      exact htable hconfig (.inl hstage) (by simp [touch]) (by simp [touch]) (by simp [touch])
  | repoint hstage =>
    refine h.order.push hframe ?_ ?_ ?_ (fun host hd => .inl ?_) ?_
    · rintro s ⟨⟩ ⟨-, slot, hslot⟩
      cases hslot
    · rintro s ⟨⟩ ⟨hkind, -⟩
      cases hkind
    · rintro s ⟨⟩ hb
      cases hb
    · exact hd.of_slots hconfig fun v hvalid hdirty => ⟨hvalid, hdirty, rfl⟩
    · rintro s ⟨⟩ -
      exact htable hconfig (.inr hstage) rfl rfl rfl
  | installData hstage | copyInstall hstage =>
    have hfilled := h.filled
    simp only [WriteProgress.Filled, hstage] at hfilled
    exact h.order.patch_l2 hgeo (h.data (by simp [hstage, newData])) hfilled
  | head | tail =>
    refine h.order.ordinary hframe zeroRange_ordinary fun host hd => .inl ?_
    simpa [HoldsDirty] using hd
  | owned | body | copyBody =>
    refine h.order.ordinary hframe ?_ fun host hd => .inl hd
    rintro s ⟨⟩
    unfold bodyAt bodyStep
    cases prog.data <;> simp [Step.Ordinary, Step.WritesL1, isBarrier]
  | _ =>
    refine h.order.ordinary hframe ?_ fun host hd => .inl hd
    rintro s ⟨⟩ <;> simp [Step.Ordinary, Step.WritesL1, isBarrier, zeroRangeStep,
      readClusterToBounceStep, writeBounceClusterStep]

theorem WriteMove.writeOrder (hkeep : WriteKeep st prog) (hfit : BlocksFit st rb)
    (h : WriteOrder st prog l)
    (hmove : WriteMove st rb l1Raw l2Raw prog step held update rb' next close) :
    WriteOrder (update (st.countStep step)) next (l ++ step.toList) := by
  have horder := hmove.orderInv hkeep h
  have hgeo : (update (st.countStep step)).geometry = st.geometry :=
    (hmove.frame _).geometry.trans countStep_geometry
  refine ⟨horder, ?_, ?_, ?_, ?_⟩
  · cases hmove with
    | zeroTable => simp [pendingZeroSet, assignSlot, setSlot]
    | loadOld => simp [assignSlot, setSlot]
    | _ => simp [advance]
  · rw [hgeo]
    intro hstage'
    cases hmove with
    | freshTable _ _ halloc | copyTable _ _ _ halloc => exact allocCall_hostOk hfit halloc
    | zeroTable hstage | loadOld hstage => exact h.table (by simp [hstage, newTable])
    | _ => simp [newTable, advance] at hstage'
  · rw [hgeo]
    intro hstage'
    cases hmove with
    | freshData _ _ _ halloc | copyData _ _ halloc => exact allocCall_hostOk hfit halloc
    | ownedZero hstage hl2 =>
      cases classify_ok hkeep.geo hl2 with
      | ownedZero _ _ _ hok _ => exact hok
    | head hstage | body hstage | tail hstage | copyNothing hstage | copyZero hstage
    | copyRead hstage | copyWrite hstage | copyBody hstage =>
      exact h.data (by simp [hstage, newData])
    | _ => simp [newData, advance] at hstage'
  · rw [hgeo]
    have hfilled := h.filled
    unfold WriteProgress.Filled at hfilled
    cases hmove with
    | head hstage =>
      show Covers _ _ _
      split
      · exact (Covers.empty l le_rfl).extend fun b hlo hhi => zeroRange_fills hlo hhi
      · exact Covers.empty _ (by show _ + prog.inOff _ ≤ _; omega)
    | body hstage =>
      rw [hstage] at hfilled
      exact Covers.extend hfilled fun b hlo hhi => bodyAt_fills st prog prog.dataHost b hlo hhi
    | tail hstage =>
      rw [hstage] at hfilled
      show Covers _ prog.dataHost (prog.dataHost + st.geometry.clusterSize)
      split
      · refine Covers.extend hfilled fun b hlo hhi => zeroRange_fills (by omega) (by omega)
      · rw [toList_none, append_nil]
        intro b hlo hhi
        exact hfilled b hlo (by omega)
    | copyNothing hstage hfull => exact .inl hfull
    | copyZero hstage =>
      refine .inr ((Covers.empty l le_rfl).extend fun b hlo hhi => ?_)
      exact zeroRange_fills hlo hhi
    | copyWrite hstage =>
      refine .inr ((Covers.empty l le_rfl).extend fun b hlo hhi => ?_)
      exact ⟨.inl rfl, hlo, hhi⟩
    | copyBody hstage =>
      rw [hstage] at hfilled
      show Covers _ prog.dataHost (prog.dataHost + st.geometry.clusterSize)
      rcases hfilled with hfull | hcovers
      · refine (Covers.empty l le_rfl).extend fun b hlo hhi => ?_
        exact bodyAt_fills st prog prog.dataHost b (by omega) (by omega)
      · exact hcovers.append _
    | _ => trivial

end

/-! ## Flushes -/

/-- The groups of steps of a flush. -/
structure FlushGroups (tables l1 blocks : List Step) : Prop where
  writeback : ∀ s ∈ tables, s.kind = .writebackCluster ∧ ∃ slot, s.region = .l2Slot slot
  one : l1 = [] ∨ ∃ s, l1 = [s] ∧ s.WritesL1
  counts : ∀ s ∈ blocks, s.WritesBlocks
  ascending : blocks.Pairwise fun s t => s.regionOffset < t.regionOffset

/-- A group and the barrier behind it; an empty group has none. -/
def group (b : Step) (g : List Step) : List Step := if g = [] then [] else g ++ [b]

@[simp] theorem group_nil (b : Step) : group b [] = [] := rfl

theorem group_of_ne {b : Step} {g : List Step} (h : g ≠ []) : group b g = g ++ [b] := by
  simp [group, h]

/-- The barrier before the first group, if steps are waiting for one. -/
def leadBarrier (b : Step) (pre : List Step) : List Step := if barrierDue pre then [b] else []

section

variable (st : WriteState) (prog : FlushProgress) (pre acc : List Step)

/-- What a flush has emitted at a stage, after the steps `pre` of earlier requests. -/
def FlushProgress.Shape : Prop :=
  let b := barrierStep st.config.device
  let lead := leadBarrier b pre
  match prog.stage with
  | .preBarrier => acc = []
  | .l2Writebacks | .l1Barrier => ∃ tables, FlushGroups tables [] [] ∧ acc = lead ++ tables ∧
      (st.stepsSinceBarrier = 0 ↔ tables = [])
  | .l1Write =>
    ∃ tables, FlushGroups tables [] [] ∧ acc = lead ++ group b tables ∧ st.stepsSinceBarrier = 0
  | .rbBarrier => ∃ tables l1, FlushGroups tables l1 [] ∧
      acc ++ (dueBarrier st).toList = lead ++ group b tables ++ group b l1
  | .rbWritebacks => ∃ tables l1 blocks, FlushGroups tables l1 blocks ∧
      acc = lead ++ group b tables ++ group b l1 ++ blocks ∧
      (st.stepsSinceBarrier = 0 ↔ blocks = []) ∧
      ∀ s ∈ blocks, s.regionOffset < prog.nextIdx * st.geometry.clusterSize
  | .endBarrier => ∃ tables l1 blocks, FlushGroups tables l1 blocks ∧
      acc ++ (dueBarrier st).toList = lead ++ group b tables ++ group b l1 ++ group b blocks

/-- The order of a flush in progress. -/
structure FlushOrder : Prop where
  order : OrderInv st (pre ++ acc)
  past : prog.Past st
  shape : prog.Shape st pre acc

end

section

variable {st : WriteState} {sg : StagedRegions} {prog next : FlushProgress} {pre acc : List Step}
  {step : Option Step} {update : WriteState → WriteState}

/-- The barrier a stage pushes is an ordinary step, and it settles the count. -/
theorem OrderInv.barrier (h : OrderInv st (pre ++ acc)) :
    OrderInv (st.countStep (dueBarrier st)) (pre ++ (acc ++ (dueBarrier st).toList)) ∧
      (st.countStep (dueBarrier st)).stepsSinceBarrier = 0 := by
  refine ⟨?_, ?_⟩
  · rw [← append_assoc]
    have hdue : ∀ s, dueBarrier st = some s → st.stepsSinceBarrier ≠ 0 ∧ s.isBarrier = true := by
      intro s hs
      unfold dueBarrier at hs
      split at hs <;> cases hs
      exact ⟨‹_›, rfl⟩
    have hkind : ∀ {s : Step} {kind : StepKind}, s.isBarrier = true → s.kind = kind →
        ∃ cls, kind = .barrier cls := by
      rintro s _ hb rfl
      unfold isBarrier at hb
      cases hs : s.kind <;> simp [hs] at hb ⊢
    refine h.push ⟨rfl, rfl, rfl, rfl, rfl, rfl⟩ ?_ ?_ (fun s hs _ => (hdue s hs).1)
      (fun host hd => .inl (by simpa [HoldsDirty] using hd)) ?_
    · intro s hs hinst
      obtain ⟨cls, hcls⟩ := hkind (hdue s hs).2 hinst.1
      cases hcls
    · intro s hs hwrites
      obtain ⟨cls, hcls⟩ := hkind (hdue s hs).2 hwrites.1
      cases hcls
    · intro s hs hinst
      obtain ⟨cls, hcls⟩ := hkind (hdue s hs).2 hinst.1
      cases hcls
  · unfold dueBarrier
    split
    · assumption
    · rfl

theorem dueBarrier_of_zero (h : st.stepsSinceBarrier = 0) : (dueBarrier st).toList = [] := by
  simp [dueBarrier, h]

theorem dueBarrier_of_ne (h : st.stepsSinceBarrier ≠ 0) :
    (dueBarrier st).toList = [barrierStep st.config.device] := by
  simp [dueBarrier, h]

/-- A flush keeps the order. -/
theorem FlushMove.orderInv (h : FlushOrder st prog pre acc)
    (hmove : FlushMove st sg prog step update next) :
    OrderInv (update (st.countStep step)) (pre ++ (acc ++ step.toList)) := by
  have hframe := hmove.frame (st.countStep step)
  have hsame : ∀ (step : Option Step) (host : Nat), HoldsDirty st host →
      HoldsDirty (st.countStep step) host := by
    intro step host hd
    simpa [HoldsDirty] using hd
  cases hmove with
  | first => exact h.order.barrier.1
  | l1Barrier => exact h.order.barrier.1
  | rbBarrier => exact h.order.barrier.1
  | @table idx hstage hidx =>
    rw [← append_assoc]
    refine h.order.ordinary hframe ?_ fun host hd => ?_
    · rintro s ⟨⟩
      simp [Step.Ordinary, Step.WritesL1, isBarrier, writebackStep]
    · obtain ⟨v, hv, hvalid, hdirty, rfl⟩ := hd
      by_cases hvi : v = idx
      · subst hvi
        exact .inr ⟨_, rfl, rfl, rfl⟩
      · refine .inl ⟨v, hv, ?_⟩
        simpa [setSlot, update_of_ne hvi] using ⟨hvalid, hdirty⟩
  | l1 hstage =>
    rw [← append_assoc]
    refine h.order.push hframe ?_ ?_ ?_ (fun host hd => .inl (hsame _ host hd)) ?_
    · rintro s ⟨⟩ ⟨hkind, -⟩
      cases hkind
    · rintro s ⟨⟩ -
      have hshape := h.shape
      have hpast := h.past
      simp only [FlushProgress.Shape, hstage] at hshape
      simp only [FlushProgress.Past, hstage] at hpast
      obtain ⟨-, -, -, hzero⟩ := hshape
      refine ⟨hzero, fun host hd => ?_⟩
      obtain ⟨v, hv, hvalid, hdirty, -⟩ := hd
      exact hpast v hv ⟨hvalid, hdirty⟩
    · rintro s ⟨⟩ hb
      cases hb
    · rintro s ⟨⟩ ⟨hkind, -⟩
      cases hkind
  | block =>
    rw [← append_assoc]
    refine h.order.ordinary hframe ?_ fun host hd => .inl (hsame _ host hd)
    rintro s ⟨⟩
    simp [Step.Ordinary, Step.WritesL1, isBarrier, refblockWriteStep]
  | _ =>
    rw [← append_assoc]
    exact h.order.ordinary hframe (by simp) fun host hd => .inl hd

/-- A flush keeps its groups in order. -/
theorem FlushMove.shape (hpos : 0 < st.geometry.clusterSize) (h : FlushOrder st prog pre acc)
    (hmove : FlushMove st sg prog step update next) :
    next.Shape (update (st.countStep step)) pre (acc ++ step.toList) := by
  have hconfig : (update (st.countStep step)).config = st.config :=
    (hmove.frame _).config.trans countStep_config
  have hgeo : (update (st.countStep step)).geometry = st.geometry :=
    (hmove.frame _).geometry.trans countStep_geometry
  have hshape := h.shape
  have hzero := h.order.barrier.2
  unfold FlushProgress.Shape at hshape ⊢
  simp only [hconfig, hgeo]
  cases hmove with
  | first hstage =>
    rw [hstage] at hshape
    subst hshape
    refine ⟨[], ⟨by simp, .inl rfl, by simp, .nil⟩, ?_, by simpa using hzero⟩
    rw [nil_append, append_nil]
    have hdue := h.order.due
    rw [append_nil] at hdue
    unfold leadBarrier
    by_cases hpre : st.stepsSinceBarrier = 0
    · have : ¬ barrierDue pre = true := fun hd => hdue.mpr hd hpre
      rw [dueBarrier_of_zero hpre, if_neg this]
    · rw [dueBarrier_of_ne hpre, if_pos (hdue.mp hpre)]
  | @table idx hstage hidx =>
    rw [hstage] at hshape
    obtain ⟨tables, hgroups, rfl, -⟩ := hshape
    simp only [hstage]
    refine ⟨tables ++ [writebackStep idx (st.l2Slots idx).hostOffset st.geometry.clusterSize
      st.config.device], ⟨?_, .inl rfl, by simp, .nil⟩, append_assoc _ _ _, ?_⟩
    · intro s hs
      rcases mem_append.mp hs with hs | hs
      · exact hgroups.writeback s hs
      · obtain rfl := mem_singleton.mp hs
        exact ⟨rfl, idx, rfl⟩
    · simp [setSlot, countStep, writebackStep]
  | tables hstage hidx =>
    rw [hstage] at hshape
    rw [toList_none, append_nil]
    exact hshape
  | l1Barrier hstage hdirty =>
    rw [hstage] at hshape
    obtain ⟨tables, hgroups, rfl, hiff⟩ := hshape
    refine ⟨tables, hgroups, ?_, hzero⟩
    by_cases htables : tables = []
    · rw [dueBarrier_of_zero (hiff.mpr htables), htables]
      simp
    · rw [dueBarrier_of_ne fun h0 => htables (hiff.mp h0), group_of_ne htables]
      simp
  | l1Clean hstage hdirty =>
    rw [hstage] at hshape
    obtain ⟨tables, hgroups, rfl, hiff⟩ := hshape
    refine ⟨tables, [], hgroups, ?_⟩
    by_cases htables : tables = []
    · simp [countStep, dueBarrier_of_zero (hiff.mpr htables), htables]
    · have hne : st.stepsSinceBarrier ≠ 0 := fun h0 => htables (hiff.mp h0)
      simp [countStep, dueBarrier_of_ne hne, group_of_ne htables]
  | l1 hstage =>
    rw [hstage] at hshape
    obtain ⟨tables, hgroups, rfl, -⟩ := hshape
    refine ⟨tables, [l1WriteStep st], ⟨hgroups.writeback, .inr ⟨_, rfl, rfl, rfl⟩, by simp, .nil⟩,
      ?_⟩
    have hne : ({ st.countStep (some (l1WriteStep st)) with l1Dirty := false } :
        WriteState).stepsSinceBarrier ≠ 0 := Nat.succ_ne_zero _
    have hdue := dueBarrier_of_ne hne
    show _ ++ (dueBarrier { st.countStep (some (l1WriteStep st)) with l1Dirty := false }).toList = _
    rw [hdue, toList_some, append_assoc _ [l1WriteStep st]]
    rfl
  | rbBarrier hstage hdirty =>
    rw [hstage] at hshape
    obtain ⟨tables, l1, hgroups, hacc⟩ := hshape
    exact ⟨tables, l1, [], hgroups, by simpa using hacc, by simpa using hzero, by simp⟩
  | rbClean hstage hdirty =>
    rw [hstage] at hshape
    obtain ⟨tables, l1, hgroups, hacc⟩ := hshape
    exact ⟨tables, l1, [], hgroups, by simpa [countStep] using hacc⟩
  | @block idx hstage hidx hblock hhost =>
    rw [hstage] at hshape
    obtain ⟨tables, l1, blocks, hgroups, rfl, -, hbound⟩ := hshape
    obtain ⟨hle, -⟩ := nextDirtyRefblock_some hidx
    simp only [hstage]
    have hcs : prog.nextIdx * st.geometry.clusterSize ≤ idx * st.geometry.clusterSize :=
      Nat.mul_le_mul_right _ hle
    have hmem : ∀ {s : Step} {t : Step}, s ∈ blocks ++ [t] → s ∈ blocks ∨ s = t := by
      intro s t hs
      simpa using hs
    refine ⟨tables, l1, blocks ++ [refblockWriteStep st idx
        (sg.refcountTable.be (idx * 8) 8 &&& l1OffsetMask)],
      ⟨hgroups.writeback, hgroups.one, ?_, ?_⟩, append_assoc _ _ _, ?_, ?_⟩
    · intro s hs
      rcases hmem hs with hs | rfl
      · exact hgroups.counts s hs
      · exact ⟨rfl, rfl⟩
    · rw [pairwise_append]
      refine ⟨hgroups.ascending, pairwise_singleton _ _, fun s hs t ht => ?_⟩
      obtain rfl := mem_singleton.mp ht
      exact lt_of_lt_of_le (hbound s hs) hcs
    · simp [refblockDirtyClear, countStep, refblockWriteStep]
    · intro s hs
      show s.regionOffset < (idx + 1) * st.geometry.clusterSize
      rw [add_mul]
      rcases hmem hs with hs | rfl
      · have := hbound s hs
        omega
      · show idx * st.geometry.clusterSize < _
        omega
  | blocks hstage hidx =>
    rw [hstage] at hshape
    obtain ⟨tables, l1, blocks, hgroups, rfl, hiff, -⟩ := hshape
    refine ⟨tables, l1, blocks, hgroups, ?_⟩
    by_cases hblocks : blocks = []
    · simp [countStep, dueBarrier_of_zero (hiff.mpr hblocks), hblocks]
    · have hne : st.stepsSinceBarrier ≠ 0 := fun h0 => hblocks (hiff.mp h0)
      simp [countStep, dueBarrier_of_ne hne, group_of_ne hblocks]

end

/-! ## Requests -/

/-- What a flush emits after the steps `pre`: the groups in order, each behind the barriers it
needs, and no patch among them.  A flush that refuses a refblock stops inside the last group. -/
def FlushOutput (b : Step) (pre : List Step) (reply : Reply) : Prop :=
  (∀ s ∈ reply.steps, s.kind ≠ .patchEntryU64) ∧
  match reply.result with
  | .ok _ => ∃ tables l1 blocks, FlushGroups tables l1 blocks ∧
      reply.steps = leadBarrier b pre ++ group b tables ++ group b l1 ++ group b blocks
  | .error _ => reply.steps = [] ∨ ∃ tables l1 blocks, FlushGroups tables l1 blocks ∧
      reply.steps = leadBarrier b pre ++ group b tables ++ group b l1 ++ blocks

/-- What a reply may emit. -/
def ReplyOk (b : Step) (pre : List Step) (req : Request) (reply : Reply) : Prop :=
  match req with
  | .write _ _ _ _ => ∀ s ∈ reply.steps, ¬ s.WritesBlocks
  | .flush => FlushOutput b pre reply

/-- Every reply of a run is in order, after the steps `pre`. -/
def RepliesOk (b : Step) : List Step → List Request → List Reply → Prop
  | _, [], [] => True
  | pre, req :: reqs, reply :: replies =>
    ReplyOk b pre req reply ∧ RepliesOk b (pre ++ reply.steps) reqs replies
  | _, _, _ => False

/-- The whole emitted program of a run. -/
def program (replies : List Reply) : List Step := (replies.map Reply.steps).flatten

/-- What holds between requests, for the steps emitted so far. -/
structure RunOrder (sys : Sys) (pre : List Step) : Prop where
  ready : Ready sys
  clear : sys.state.pendingZeroClearAll = sys.state
  cursor : CursorFit sys.state
  order : OrderInv sys.state pre

section

variable {sys sys' : Sys} {pre acc steps : List Step} {r : Except WriteError Unit} {n : Nat}
  {st : WriteState} {prog : WriteProgress} {sg : StagedRegions} {update : WriteState → WriteState}

/-- A write keeps the order of the program. -/
theorem eager_write_order {voff : Nat} {data : DataSource}
    (hstart : WriteStart voff len data sys prog)
    (hrun : RunOrder sys pre) (horder : WriteOrder sys.state prog pre)
    (h : eager writeActOf n sys prog [] = .done r sys' steps) :
    RunOrder sys' (pre ++ steps) ∧ ∀ s ∈ steps, ¬ s.WritesBlocks := by
  refine eager_done (I := fun sys prog acc => WriteStart voff len data sys prog ∧
      CursorFit sys.state ∧
      sys.state.pendingZeroClearAll = sys.state ∧ WriteOrder sys.state prog (pre ++ acc) ∧
      ∀ s ∈ acc, ¬ s.WritesBlocks)
    (J := fun _ sys acc => RunOrder sys (pre ++ acc) ∧ ∀ s ∈ acc, ¬ s.WritesBlocks)
    ?_ ?_ ?_ ⟨hstart, hrun.cursor, hrun.clear, by simpa using horder, by simp⟩ h
  · intro sys sys' prog held next step update rb close acc hI hact hsys
    obtain ⟨hstart, hcursor, hclear, horder, hblocks⟩ := hI
    obtain ⟨hlt, hmove⟩ := writeAct_move hact
    have hrel : WriteRel voff len data (sys.planner 1) prog sys := hstart.rel hclear
    have hfit := hcursor.blocks hstart.keep.geo hstart.valid
    have hstate := Sys.move_state hsys
    have horder' := hmove.writeOrder hstart.keep hfit horder
    have hfit' := hmove.blocksFit hfit
    refine ⟨hrel.after hlt hmove hsys, ?_, Sys.move_clear hsys, ?_, ?_⟩
    · rw [hstate]
      exact ⟨hfit'.limit, hfit'.cursor⟩
    · rw [hstate, ← append_assoc]
      exact ⟨horder'.order.congr rfl rfl rfl rfl, horder'.slot, horder'.table, horder'.data,
        horder'.filled⟩
    · intro s hs
      rcases mem_append.mp hs with hs | hs
      · exact hblocks s hs
      · exact fun hwrites => hmove.avoids (mem_toList.mp hs) hwrites.2
  · intro sys prog e update rb acc hI hact
    obtain ⟨hstart, hcursor, hclear, horder, hblocks⟩ := hI
    have hready := hstart.ready
    have hfit := hcursor.blocks hstart.keep.geo hstart.valid
    refine ⟨?_, hblocks⟩
    obtain ⟨-, -, ⟨rfl, -⟩ | ⟨err, cursor, halloc, rfl⟩⟩ := writeAct_refuse hact
    · exact ⟨⟨hready.geo, hready.slots, hready.inj, hready.idle, hready.cluster⟩, rfl,
        ⟨hcursor.limit, hcursor.cursor⟩, horder.order.congr rfl rfl rfl rfl⟩
    · obtain ⟨-, rfl⟩ := allocCall_error hfit halloc
      exact ⟨⟨hready.geo, hready.slots, hready.inj, hready.idle, hready.cluster⟩, rfl,
        ⟨hcursor.limit, hcursor.cursor⟩, horder.order.congr rfl rfl rfl rfl⟩
  · intro sys sys' prog step acc hI hact hsys
    obtain ⟨hstart, hcursor, hclear, horder, hblocks⟩ := hI
    have hready := hstart.ready
    obtain ⟨rfl, -⟩ := writeAct_finish hact
    cases hsys
    rw [toList_none, append_nil]
    exact ⟨⟨⟨hready.geo, hready.slots, hready.inj, hready.idle, hready.cluster⟩, rfl,
      ⟨hcursor.limit, hcursor.cursor⟩, horder.order.congr rfl rfl rfl rfl⟩, hblocks⟩

theorem dueBarrier_not_patch (s : Step) (hs : dueBarrier st = some s) :
    s.kind ≠ .patchEntryU64 := by
  unfold dueBarrier at hs
  split at hs <;> cases hs
  simp [barrierStep]

section

variable {prog next : FlushProgress} {step : Option Step}
  (h : FlushMove st sg prog step update next)

include h

theorem FlushMove.cursorFit (hfit : CursorFit st) :
    CursorFit (update (st.countStep step)).pendingZeroClearAll := by
  have hframe := h.frame (st.countStep step)
  have hcursor : (update (st.countStep step)).allocCursor = st.allocCursor := by
    refine Eq.trans ?_ (@countStep_allocCursor st step)
    cases h <;> rfl
  refine ⟨?_, ?_⟩
  · show (update (st.countStep step)).config.maxRefblocks ≤ maxRefblocks
    rw [hframe.config, countStep_config]
    exact hfit.limit
  · show (update (st.countStep step)).allocCursor.nextRefblock
      * (update (st.countStep step)).geometry.entriesPerRefblock
      + (update (st.countStep step)).allocCursor.nextEntryInRefblock < 2 ^ 64
    rw [hframe.geometry, countStep_geometry, hcursor]
    exact hfit.cursor

theorem FlushMove.not_patch (s : Step) (hs : s ∈ step.toList) : s.kind ≠ .patchEntryU64 := by
  rw [mem_toList] at hs
  cases h with
  | first | l1Barrier | rbBarrier => exact dueBarrier_not_patch s hs
  | _ => cases hs <;> simp [writebackStep, l1WriteStep, refblockWriteStep]

end

/-- A flush keeps the order of the program and has its own shape. -/
theorem eager_flush_order (hrun : RunOrder sys pre)
    (h : eager flushActOf n sys ⟨.preBarrier, 0⟩ [] = .done r sys' steps) :
    RunOrder sys' (pre ++ steps) ∧ FlushOutput (barrierStep sys.state.config.device) pre ⟨r,
      steps⟩ := by
  have hinit : FlushOrder sys.state ⟨.preBarrier, 0⟩ pre [] :=
    ⟨by simpa using hrun.order, trivial, rfl⟩
  refine eager_done (I := fun s prog acc => s.state.config = sys.state.config ∧ Ready s ∧
      CursorFit s.state ∧ s.state.pendingZeroClearAll = s.state ∧ FlushOrder s.state prog pre acc ∧
      ∀ t ∈ acc, t.kind ≠ .patchEntryU64)
    (J := fun r s acc => RunOrder s (pre ++ acc) ∧
      FlushOutput (barrierStep sys.state.config.device) pre ⟨r, acc⟩)
    ?_ ?_ ?_ ⟨rfl, hrun.ready, hrun.cursor, hrun.clear, hinit, by simp⟩ h
  · intro s s' prog held next step update rb close acc hI hact hsys
    obtain ⟨hconfig, hready, hcursor, hclear, horder, hpatch⟩ := hI
    obtain ⟨hmove, -, rfl, -⟩ := flushAct_move hact
    have hstate := Sys.move_state hsys
    have hframe := hmove.frame (s.state.countStep step)
    have horder' : FlushOrder (update (s.state.countStep step)) next pre (acc ++ step.toList) :=
      ⟨hmove.orderInv horder, hmove.past horder.past, hmove.shape hready.geo.size_pos horder⟩
    refine ⟨?_, hready.moved hframe (hmove.inj hready.inj) hsys, ?_, Sys.move_clear hsys, ?_, ?_⟩
    · rw [hstate, ← hconfig]
      exact hframe.config.trans countStep_config
    · rw [hstate]
      exact hmove.cursorFit hcursor
    · rw [hstate]
      exact ⟨horder'.order.congr rfl rfl rfl rfl, horder'.past, horder'.shape⟩
    · intro t ht
      rcases mem_append.mp ht with ht | ht
      · exact hpatch t ht
      · exact hmove.not_patch t ht
  · intro s prog e update rb acc hI hact
    obtain ⟨hconfig, hready, hcursor, hclear, horder, hpatch⟩ := hI
    obtain ⟨-, rfl, -, hstage⟩ := flushAct_refuse hact
    refine ⟨⟨⟨hready.geo, hready.slots, hready.inj, hready.idle, hready.cluster⟩, rfl,
      ⟨hcursor.limit, hcursor.cursor⟩, horder.order.congr rfl rfl rfl rfl⟩, hpatch, .inr ?_⟩
    have hshape := horder.shape
    simp only [FlushProgress.Shape, hstage, hconfig] at hshape
    obtain ⟨tables, l1, blocks, hgroups, hacc, -⟩ := hshape
    exact ⟨tables, l1, blocks, hgroups, hacc⟩
  · intro s s' prog step acc hI hact hsys
    obtain ⟨hconfig, hready, hcursor, hclear, horder, hpatch⟩ := hI
    obtain ⟨hstage, rfl⟩ := flushAct_finish hact
    have hframe : SameFrame (s.state.countStep (dueBarrier s.state))
        (id (s.state.countStep (dueBarrier s.state))) := ⟨rfl, rfl, rfl, rfl, rfl, rfl⟩
    refine ⟨⟨hready.moved hframe (by simpa using hready.inj) hsys, Sys.move_clear hsys, ?_, ?_⟩,
      ?_, ?_⟩
    · rw [Sys.move_state hsys]
      refine ⟨?_, ?_⟩ <;> simp only [pendingZeroClearAll, id, countStep_config,
        countStep_allocCursor, countStep_geometry]
      exacts [hcursor.limit, hcursor.cursor]
    · rw [Sys.move_state hsys]
      exact horder.order.barrier.1.congr rfl rfl rfl rfl
    · intro t ht
      rcases mem_append.mp ht with ht | ht
      · exact hpatch t ht
      · exact dueBarrier_not_patch t (mem_toList.mp ht)
    · have hshape := horder.shape
      simp only [FlushProgress.Shape, hstage, hconfig] at hshape
      exact hshape

/-- A request keeps the order of the program. -/
theorem serveEager_order {req : Request} (hrun : RunOrder sys pre)
    (h : serveEager req sys = .done r sys' steps) :
    RunOrder sys' (pre ++ steps) ∧ ReplyOk (barrierStep sys.state.config.device) pre req ⟨r,
      steps⟩ := by
  have hidle : RunOrder sys (pre ++ []) := by simpa using hrun
  obtain ⟨r', hdone, hzero⟩ | ⟨hvalid, ⟨rfl, heager⟩ | ⟨voff, len, data, callerData, rfl,
      hgranted, heager⟩⟩ :=
    serveEager_cases req sys
  · rw [hdone] at h
    cases h
    refine ⟨hidle, ?_⟩
    cases req with
    | write voff len data callerData => exact fun s hs => absurd hs (by simp)
    | flush =>
      cases r with
      | ok u => exact (nomatch hzero rfl)
      | error e => exact ⟨fun s hs => absurd hs (by simp), .inl rfl⟩
  · exact eager_flush_order hrun (heager.symm.trans h)
  · refine eager_write_order (hrun.ready.writeStart hvalid hgranted) hrun ?_ (heager.symm.trans h)
    exact ⟨hrun.order, by simp [start], by simp [start, newTable], by simp [start,
      newData], trivial⟩

theorem RunOrder.stage (h : RunOrder sys pre) (req : Request) : RunOrder (sys.stage req) pre := by
  refine ⟨h.ready.stage req, ?_, ?_, ?_⟩
  · cases req <;> exact h.clear
  · cases req <;> exact h.cursor
  · cases req <;> exact h.order

/-- Every reply of an eager run is in order. -/
theorem runWith_order {reqs : List Request} {acc replies : List Reply}
    (hrun : RunOrder sys (program acc)) (h : runWith serveEager reqs sys acc = .done sys' replies) :
    RunOrder sys' (program replies) ∧ SameSetup sys.state sys'.state ∧ ∃ new, replies = acc ++ new ∧
        RepliesOk (barrierStep sys.state.config.device) (program acc) reqs new := by
  induction reqs generalizing sys acc with
  | nil =>
    cases h
    exact ⟨hrun, SameSetup.refl _, [], by simp, trivial⟩
  | cons req reqs ih =>
    unfold runWith at h
    cases hserve : serveEager req (sys.stage req) with
    | execFailed =>
      rw [hserve] at h
      cases h
    | running =>
      rw [hserve] at h
      cases h
    | done r sys1 steps =>
      simp only [hserve] at h
      have hstage : (sys.stage req).state = sys.state := by cases req <;> rfl
      have hsetup := serveEager_setup hserve
      rw [hstage] at hsetup
      obtain ⟨hrun1, hreply⟩ := serveEager_order (hrun.stage req) hserve
      rw [hstage] at hreply
      have hprogram : program (acc ++ [⟨r, steps⟩]) = program acc ++ steps := by simp [program]
      obtain ⟨horder, hsetup', new, rfl, hnew⟩ := ih (by rw [hprogram]; exact hrun1) h
      refine ⟨horder, hsetup.trans hsetup', ⟨r, steps⟩ :: new, by simp, hreply, ?_⟩
      rw [hprogram, hsetup.config] at hnew
      exact hnew

end

/-- The emitted program of every run is crash-ordered: data before entries, tables before the L1
that names them, refcounts in flushes only, and flushes of the right shape. -/
theorem runRequests_crash_ordered {header : Buffer} {hdr : QcowHeader} {cfg : StagingConfig}
    {cow : Bool}
    {st : WriteState} (hparse : QcowHeader.parse header = some hdr)
    (hnew : newStateImpl hdr cfg cow = .ok st)
    (regions : Regions) (hcluster : regions.clusterSize = hdr.clusterSize) (devices : Devices)
    (reqs : List Request) {capacity : Nat} (hcap : 1 ≤ capacity) {sys : Sys} {replies : List Reply}
    (hrun : runRequests capacity reqs ⟨st, regions, devices⟩ = .done sys replies) :
    DataFirst hdr.clusterSize (program replies) ∧ TablesFirst (program replies) ∧
      BarriersApart (program replies) ∧
      RepliesOk (barrierStep cfg.device) [] reqs replies := by
  have hready : Ready ⟨st, regions, devices⟩ := Ready.new hparse hnew hcluster
  obtain ⟨heq, -⟩ := runWith_eq (by omega : capacity ≠ 0) reqs hready []
  rw [runRequests] at hrun
  rw [hrun] at heq
  obtain ⟨-, -, hlimit, rfl⟩ := newStateImpl_ok hnew
  cases heager : runWith serveEager reqs (Sys.settle ⟨_, regions, devices⟩) [] with
  | execFailed =>
    rw [heager] at heq
    cases heq
  | running =>
    rw [heager] at heq
    cases heq
  | done sys1 replies1 =>
    rw [heager] at heq
    injection heq with hsys hreplies
    subst hreplies
    have hstart : RunOrder (Sys.settle ⟨_, regions, devices⟩) (program []) :=
      ⟨hready.settle, rfl, ⟨hlimit, by show 0 * _ + 0 < _; simp⟩, orderInv_new rfl⟩
    obtain ⟨⟨-, -, -, horder⟩, hsetup, new, rfl, hok⟩ := runWith_order hstart heager
    have hdata := horder.data
    rw [hsetup.geometry] at hdata
    exact ⟨hdata, horder.tables, horder.apart, hok⟩

/-- Two writes and a flush on the empty image. -/
theorem runRequests_crash_ordered_tiny :
    ∃ sys replies, runRequests 1 tinyRequests ⟨tinyState, tinyRegions, tinyDevices⟩
        = .done sys replies ∧ TablesFirst (program replies) := by
  have hdone : (runRequests 1 tinyRequests ⟨tinyState, tinyRegions, tinyDevices⟩).isDone =
      true := by
    decide +kernel
  obtain ⟨sys, replies, hrun⟩ := Run.isDone_iff.mp hdone
  exact ⟨sys, replies, hrun,
    (runRequests_crash_ordered tinyHeader_parse tinyState_new tinyRegions rfl
    tinyDevices tinyRequests (by decide) hrun).2.1⟩

end Instar.Write
