import Instar.Write.Invariance

/-!
# Serving requests through windows of any capacity

A request served through windows gives what the eager machine gives: the same steps, the same
buffers and disk, the same state.  Runs of requests follow by induction, and since the eager machine
knows no capacity, two runs through windows of different capacities agree.
-/

namespace Instar.Write

open Instar.Qcow2 WriteProgress Sys

/-- What holds of the system between requests. -/
structure Ready (sys : Sys) : Prop where
  geo : sys.state.geometry.Wf
  slots : 0 < sys.state.config.l2Slots
  inj : SlotsInj sys.state.config.l2Slots sys.state.l2Slots
  idle : sys.state.pending = .idle
  cluster : sys.regions.clusterSize = sys.state.geometry.clusterSize

/-! ## Admission -/

variable {st : WriteState} {sg : StagedRegions} {capacity voff n len : Nat} {e : WriteError}
  {geo : Geometry} {data : DataSource} {prog : WriteProgress} {sys outer sys' : Sys} {req : Request}
  {acc steps : List Step} {r : Except WriteError Unit} {callerData rb : Buffer}
  {serveOne : Request → Sys → Served} {reqs : List Request} {replies : List Reply} {P : Type}

theorem validateStaged_ne_full (h : validateStaged st sg capacity = .error e) : e ≠ .bufFull := by
  rintro rfl
  unfold validateStaged at h
  grind

theorem admitWrite_ne_full (h : admitWrite geo voff len data = .error e) : e ≠ .bufFull := by
  rintro rfl
  unfold admitWrite at h
  grind

theorem admitWrite_some (h : admitWrite geo voff len data = .ok (some prog)) :
    prog = start voff len data ∧ 0 < len ∧ voff + len < 2 ^ 64 ∧
      voff + len ≤ geo.virtualSize ∧ (voff + len - 1) / geo.l2Coverage < geo.l1Size := by
  unfold admitWrite at h
  simp only [ite_error_eq_ok] at h
  obtain ⟨hword, hsize, -, h⟩ := h
  split at h
  · cases h
  case isFalse hpos =>
    rw [ite_error_eq_ok] at h
    obtain ⟨hcover, hprog⟩ := h
    cases hprog
    exact ⟨rfl, by omega, by omega, by omega, by omega⟩

/-- Only an empty write needs no planning. -/
theorem admitWrite_none (h : admitWrite geo voff len data = .ok none) : len = 0 := by
  unfold admitWrite at h
  simp only [ite_error_eq_ok] at h
  obtain ⟨-, -, -, h⟩ := h
  split at h
  · assumption
  · rw [ite_error_eq_ok] at h
    cases h.2

/-! ## One request -/

theorem Ready.writeStart (h : Ready sys)
    (hvalid : validateStaged sys.state sys.regions.staged 1 = .ok ())
    (hgranted : admitWrite sys.state.geometry voff len data = .ok (some (.start voff len data))) :
    WriteStart voff len data sys (start voff len data) := by
  refine ⟨⟨h.geo, h.slots, h.inj, ?_, ?_, ?_⟩, h.idle, h.cluster, ⟨rfl, rfl, rfl⟩, hgranted, hvalid⟩
  · exact fun hstage => absurd rfl hstage
  · intro hstage
    cases hstage
  · intro hstage
    cases hstage

theorem WriteStart.ready (h : WriteStart voff len data sys prog) : Ready sys :=
  ⟨h.keep.geo, h.keep.slots, h.keep.inj, h.idle, h.cluster⟩

/-- A planner call that ends without planning anything. -/
theorem serve_refused {fuel : Nat} (hne : r ≠ .error .bufFull)
    (h : planRequest (sys.planner capacity) req = some (r, sys.planner capacity)) :
    serve capacity req (fuel + 1) sys acc = .done r sys (acc ++ []) := by
  unfold serve
  rw [h]
  cases r with
  | ok u => rfl
  | error e =>
    cases e with
    | bufFull => exact absurd rfl hne
    | _ => rfl

/-- The two ways of running out of fuel agree. -/
theorem eager_agree {actOf : WriteState → StagedRegions → P → Act P} {prog : P}
    {m k : Nat} {s : Served} (hm : eager actOf m sys prog acc ≠ .running)
    (hk : ∀ n, s = eager actOf (n + k) sys prog acc) : s = eager actOf m sys prog acc := by
  rw [hk m]
  exact eager_stable hm k

variable (hcap : capacity ≠ 0) {update : WriteState → WriteState} {step : Option Step}

include hcap

/-- The staged regions of an eager system are valid where its own are. -/
theorem Between.valid {P : Type} {mk : P → Pending} {prog : P} (h : Between mk outer sys prog)
    (hvalid : validateStaged sys.state sys.regions.staged 1 = .ok ()) :
    validateStaged outer.state outer.regions.staged capacity = .ok () := by
  rw [validateStaged_capacity hcap, ← hvalid, h.regions]
  refine validateStaged_congr ?_ ?_ rfl rfl rfl rfl <;> rw [h.state] <;> rfl

/-- The eager system that a write in progress stands for. -/
theorem planRequest_write (hstart : WriteStart voff len data sys prog)
    (hbetween : Between .write outer sys prog) (hpending : outer.state.pending = .write prog ∨
      outer.state.pending = .idle ∧ prog = start voff len data) :
    planRequest (outer.planner capacity) (.write voff len data callerData)
      = continueWith writeActOf .write (writeFuel prog) (sys.planner capacity) prog := by
  have hvalid := hbetween.valid hcap hstart.valid
  have hgranted : admitWrite outer.state.geometry voff len data =
      .ok (some (start voff len data)) := by
    rw [← hstart.granted, hbetween.state]
    rfl
  have hcontinue : continueWrite (outer.planner capacity) prog
      = continueWith writeActOf .write (writeFuel prog) (sys.planner capacity) prog := by
    rw [continueWrite_eq, hbetween.begin_planner]
  unfold planRequest planWrite
  obtain ⟨hvoff, hlen, hdata⟩ := hstart.request
  rcases hpending with hpend | ⟨hpend, rfl⟩
  · simp only [planner, hpend, hvoff, hlen, hdata, ne_eq, not_true_eq_false, or_self,
      if_false, hvalid]
    exact hcontinue
  · simp only [planner, hpend, hvalid, hgranted]
    exact hcontinue

theorem planRequest_flush {prog : FlushProgress} (hstart : FlushStart sys prog)
    (hbetween : Between .flush outer sys prog) (hpending : outer.state.pending = .flush prog ∨
      outer.state.pending = .idle ∧ prog = ⟨.preBarrier, 0⟩) :
      planRequest (outer.planner capacity) .flush
      = continueWith flushActOf .flush (flushFuel sys.state) (sys.planner capacity) prog := by
  have hvalid := hbetween.valid hcap hstart.valid
  have hcontinue : continueFlush (outer.planner capacity) prog
      = continueWith flushActOf .flush (flushFuel sys.state) (sys.planner capacity) prog := by
    rw [continueFlush_eq, hbetween.begin_planner, hbetween.state]
    rfl
  unfold planRequest planFlush
  rcases hpending with hpend | ⟨hpend, rfl⟩
  · simp only [planner, hpend, hvalid]
    exact hcontinue
  · simp only [planner, hpend, hvalid]
    exact hcontinue

omit hcap

theorem Ready.settle (h : Ready sys) : Ready sys.settle :=
  ⟨h.geo, h.slots, h.inj, h.idle, h.cluster⟩

theorem Ready.of_settle (h : Ready sys.settle) : Ready sys :=
  ⟨h.geo, h.slots, h.inj, h.idle, h.cluster⟩

/-- Between requests the loop's system is the eager one, up to queued zeroings. -/
theorem Ready.between {mk : P → Pending} (h : Ready outer) (prog : P) :
    Between mk outer outer.settle prog := by
  refine ⟨rfl, rfl, ?_⟩
  have hsame : { outer.state with pending := .idle } = outer.state := by rw [← h.idle]
  rw [hsame]
  rfl

include hcap

section

variable (hready : Ready outer)
  (hvalid : validateStaged outer.state outer.regions.staged 1 = .ok ())

include hready hvalid

/-- A write that is admitted, through windows. -/
theorem serve_write_eq (hgranted : admitWrite outer.state.geometry voff len data
      = .ok (some (start voff len data))) :
    (serve capacity (.write voff len data callerData) (15 * len + 16) outer []).settle
      = eager writeActOf (15 * len + 16) outer.settle (start voff len data) [] := by
  have W := writeWindowed voff len data
  have hstart : WriteStart voff len data outer.settle (start voff len data) :=
    hready.settle.writeStart hvalid hgranted
  have hrank : writeRank outer.settle.state (start voff len data) < 15 * len + 16 := by
    have h := writeRank_lt outer.settle.state (start voff len data)
    simp only [start] at h ⊢
    omega
  have hfuel : ∀ {sys : Sys} {prog : WriteProgress}, WriteStart voff len data sys prog →
      writeRank sys.state prog < writeFuel prog := by
    intro sys prog _
    have h := writeRank_lt sys.state prog
    unfold writeFuel
    omega
  obtain ⟨k, hk⟩ := W.served_eager hcap (fun h => h.idle) hfuel
    (fun h hb hp => planRequest_write hcap h hb hp) hstart rfl
    (hready.between _) (.inr ⟨hready.idle, rfl⟩) hrank []
  exact eager_agree (W.eager_total hstart.keep hrank) hk

theorem serve_flush_eq : (serve capacity .flush (flushFuel outer.state) outer []).settle
      = eager flushActOf (flushFuel outer.state) outer.settle ⟨.preBarrier, 0⟩ [] := by
  have hstart : FlushStart outer.settle ⟨.preBarrier, 0⟩ := ⟨hready.idle, hvalid⟩
  have hrank : flushRank outer.settle.state ⟨.preBarrier, 0⟩ < flushFuel outer.state :=
    flushRank_lt _ _
  obtain ⟨k, hk⟩ := flushWindowed.served_eager hcap (fun h => h.idle) (fun _ => flushRank_lt _ _)
    (fun h hb hp => planRequest_flush hcap h hb hp) hstart rfl (hready.between _)
    (.inr ⟨hready.idle, rfl⟩) hrank []
  exact eager_agree (flushWindowed.eager_total trivial hrank) hk

end

/-- A request served through windows gives what the eager machine gives. -/
theorem serve_eq (req : Request) (hready : Ready outer) :
    (serve capacity req (req.fuel outer.state) outer []).settle = serveEager req outer.settle := by
  have hfuel : req.fuel outer.state = (req.fuel outer.state - 1) + 1 := by
    have : 0 < req.fuel outer.state := by
      cases req <;> simp [Request.fuel, flushFuel]
    omega
  -- a planner call that refuses or has nothing to do leaves everything as it was
  have hidle : ∀ {r : Except WriteError Unit}, r ≠ .error .bufFull →
      planRequest (outer.planner capacity) req = some (r, outer.planner capacity) →
      (serve capacity req (req.fuel outer.state) outer []).settle = .done r outer.settle [] := by
    intro r hne hplan
    rw [hfuel, serve_refused hne hplan]
    rfl
  have hvalid_eq : validateStaged outer.state outer.regions.staged capacity
      = validateStaged outer.settle.state outer.settle.regions.staged 1 :=
    validateStaged_capacity hcap
  unfold serveEager
  cases hvalid : validateStaged outer.settle.state outer.settle.regions.staged 1 with
  | error e =>
    rw [hvalid] at hvalid_eq
    refine hidle (by simpa using validateStaged_ne_full hvalid) ?_
    cases req with
    | write voff len data callerData =>
      simp only [planRequest, planWrite, planner, hready.idle, hvalid_eq]
    | flush => simp only [planRequest, planFlush, planner, hready.idle, hvalid_eq]
  | ok u =>
    rw [hvalid] at hvalid_eq
    cases req with
    | flush => exact serve_flush_eq hcap hready hvalid
    | write voff len data callerData =>
      cases hgranted : admitWrite outer.settle.state.geometry voff len data with
      | error e =>
        have hgranted' : admitWrite outer.state.geometry voff len data = .error e := hgranted
        simp only [hgranted]
        refine hidle (by simpa using admitWrite_ne_full hgranted) ?_
        simp only [planRequest, planWrite, planner, hready.idle, hvalid_eq, hgranted']
      | ok res =>
        have hgranted' : admitWrite outer.state.geometry voff len data = .ok res := hgranted
        simp only [hgranted]
        cases res with
        | none =>
          refine hidle (by simp) ?_
          simp only [planRequest, planWrite, planner, hready.idle, hvalid_eq, hgranted']
        | some prog =>
          obtain ⟨rfl, -⟩ := admitWrite_some hgranted
          exact serve_write_eq hcap hready hvalid hgranted

omit hcap

/-! ## What a request leaves behind -/

theorem Sys.move_clear
    (h : sys.move step update rb = some sys') : sys'.state.pendingZeroClearAll = sys'.state := by
  rw [move_state h]
  rfl

/-- Writes keep what holds between requests. -/
theorem eager_write_ready (hstart : WriteStart voff len data sys prog)
    (hclear : sys.state.pendingZeroClearAll = sys.state)
    (h : eager writeActOf n sys prog acc = .done r sys' steps) : Ready sys' := by
  refine eager_done (I := fun sys prog _ => WriteStart voff len data sys prog ∧
    sys.state.pendingZeroClearAll = sys.state) (J := fun _ sys _ => Ready sys) ?_ ?_ ?_
    ⟨hstart, hclear⟩ h
  · intro sys sys' prog held next step update rb close acc hI hact hsys
    obtain ⟨hlt, hmove⟩ := writeAct_move hact
    have hrel : WriteRel voff len data (sys.planner 1) prog sys := hI.1.rel hI.2
    exact ⟨hrel.after hlt hmove hsys, move_clear hsys⟩
  · intro sys prog e update rb acc hI hact
    have hready := hI.1.ready
    obtain ⟨-, -, ⟨rfl, -⟩ | ⟨err, cursor, -, rfl⟩⟩ := writeAct_refuse hact
    · exact ⟨hready.geo, hready.slots, hready.inj, hready.idle, hready.cluster⟩
    · exact ⟨hready.geo, hready.slots, hready.inj, hready.idle, hready.cluster⟩
  · intro sys sys' prog step acc hI hact hsys
    have hready := hI.1.ready
    obtain ⟨rfl, -⟩ := writeAct_finish hact
    cases hsys
    exact ⟨hready.geo, hready.slots, hready.inj, hready.idle, hready.cluster⟩

theorem FlushMove.inj {prog next : FlushProgress}
    (h : FlushMove st sg prog step update next) (hinj : SlotsInj st.config.l2Slots st.l2Slots) :
    SlotsInj st.config.l2Slots (update (st.countStep step)).l2Slots := by
  cases h with
  | table hstage hidx =>
    obtain ⟨-, hlt, hvalid, -⟩ := nextDirtySlot_some hidx
    exact hinj.update_same hlt (fun _ => hvalid) rfl
  | _ => simpa [WriteState.refblockDirtyClear] using hinj

theorem Ready.moved (hready : Ready sys)
    (hframe : SameFrame (sys.state.countStep step) (update (sys.state.countStep step)))
    (hinj : SlotsInj sys.state.config.l2Slots (update (sys.state.countStep step)).l2Slots)
    (hsys : sys.move step update rb = some sys') : Ready sys' := by
  have hgeo : sys'.state.geometry = sys.state.geometry := by
    rw [move_state hsys]
    exact hframe.geometry.trans countStep_geometry
  have hconfig : sys'.state.config = sys.state.config := by
    rw [move_state hsys]
    exact hframe.config.trans countStep_config
  refine ⟨hgeo ▸ hready.geo, hconfig ▸ hready.slots, ?_, ?_, ?_⟩
  · rw [hconfig, move_state hsys]
    exact hinj
  · rw [move_state hsys, ← hready.idle]
    refine Eq.trans hframe.pending ?_
    cases step <;> rfl
  · rw [hgeo, ← hready.cluster]
    exact (move_shape hsys).cluster

/-- Flushes keep what holds between requests. -/
theorem eager_flush_ready {prog : FlushProgress} (hready : Ready sys)
    (h : eager flushActOf n sys prog acc = .done r sys' steps) : Ready sys' := by
  refine eager_done (I := fun sys _ _ => Ready sys) (J :=
    fun _ sys _ => Ready sys) ?_ ?_ ?_ hready h
  · intro sys sys' prog held next step update rb close acc hI hact hsys
    have hmove := (flushAct_move hact).1
    exact hI.moved (hmove.frame _) (hmove.inj hI.inj) hsys
  · intro sys prog e update rb acc hI hact
    obtain ⟨-, rfl, -⟩ := flushAct_refuse hact
    exact ⟨hI.geo, hI.slots, hI.inj, hI.idle, hI.cluster⟩
  · intro sys sys' prog step acc hI hact hsys
    exact hI.moved ⟨rfl, rfl, rfl, rfl, rfl, rfl⟩ (by simpa using hI.inj) hsys

/-- How the eager machine serves a request: it answers at once, flushes, or writes. -/
theorem serveEager_cases (req : Request) (sys : Sys) : (∃ r, serveEager req sys = .done r sys [] ∧
      (r = .ok () → ∃ voff data callerData, req = .write voff 0 data callerData)) ∨
    validateStaged sys.state sys.regions.staged 1 = .ok () ∧
      (req = .flush ∧ serveEager req sys = eager flushActOf (req.fuel sys.state) sys ⟨.preBarrier,
        0⟩ [] ∨ ∃ voff len data callerData, req = .write voff len data callerData ∧
          admitWrite sys.state.geometry voff len data = .ok (some (.start voff len data)) ∧
          serveEager req sys = eager writeActOf (req.fuel sys.state) sys
          (.start voff len data) []) := by
  unfold serveEager
  cases hvalid : validateStaged sys.state sys.regions.staged 1 with
  | error e => exact .inl ⟨_, rfl, nofun⟩
  | ok u =>
    cases req with
    | flush => exact .inr ⟨rfl, .inl ⟨rfl, rfl⟩⟩
    | write voff len data callerData =>
      cases hgranted : admitWrite sys.state.geometry voff len data with
      | error e => exact .inl ⟨.error e, by simp only [hgranted], nofun⟩
      | ok res =>
        cases res with
        | none =>
          obtain rfl := admitWrite_none hgranted
          exact .inl ⟨.ok (), by simp only [hgranted], fun _ => ⟨_, _, _, rfl⟩⟩
        | some prog =>
          obtain ⟨rfl, -⟩ := admitWrite_some hgranted
          exact .inr ⟨rfl, .inr ⟨_, _, _, _, rfl, hgranted, by simp only [hgranted]⟩⟩

theorem serveEager_ready (hready : Ready sys) (hclear : sys.state.pendingZeroClearAll = sys.state)
    (h : serveEager req sys = .done r sys' steps) : Ready sys' := by
  obtain ⟨r', hdone, -⟩ | ⟨hvalid, ⟨rfl, hrun⟩ | ⟨voff, len, data, callerData, rfl,
      hgranted, hrun⟩⟩ :=
    serveEager_cases req sys
  · rw [hdone] at h
    cases h
    exact hready
  · exact eager_flush_ready hready (hrun.symm.trans h)
  · exact eager_write_ready (hready.writeStart hvalid hgranted) hclear (hrun.symm.trans h)

theorem serveEager_total (req : Request) (hready : Ready sys) : serveEager req sys ≠ .running := by
  obtain ⟨r', hdone, -⟩ | ⟨hvalid, ⟨rfl, hrun⟩ | ⟨voff, len, data, callerData, rfl,
      hgranted, hrun⟩⟩ :=
    serveEager_cases req sys
  · simp [hdone]
  · rw [hrun]
    exact flushWindowed.eager_total trivial (flushRank_lt _ _)
  · rw [hrun]
    refine (writeWindowed voff len data).eager_total (hready.writeStart hvalid hgranted).keep ?_
    have h := writeRank_lt sys.state (start voff len data)
    simp only [start] at h ⊢
    simp only [Request.fuel]
    omega

/-- What stays the same for the life of a planner state. -/
structure SameSetup (st st' : WriteState) : Prop where
  geometry : st'.geometry = st.geometry
  config : st'.config = st.config
  cowEnabled : st'.cowEnabled = st.cowEnabled
  hasBacking : st'.hasBacking = st.hasBacking

theorem SameSetup.refl (st : WriteState) : SameSetup st st := ⟨rfl, rfl, rfl, rfl⟩

theorem SameSetup.trans {a b c : WriteState} (h : SameSetup a b) (h' : SameSetup b c) :
    SameSetup a c :=
  ⟨h'.geometry.trans h.geometry, h'.config.trans h.config, h'.cowEnabled.trans h.cowEnabled,
    h'.hasBacking.trans h.hasBacking⟩

theorem Sys.move_setup (hframe : ∀ s, SameFrame s (update s))
    (h : sys.move step update rb = some sys') : SameSetup sys.state sys'.state := by
  have hf := hframe (sys.state.countStep step)
  rw [move_state h]
  exact ⟨hf.geometry.trans countStep_geometry, hf.config.trans countStep_config,
    hf.cowEnabled.trans countStep_cowEnabled, hf.hasBacking.trans countStep_hasBacking⟩

/-- Actions with frame updates keep the setup. -/
theorem eager_setup {actOf : WriteState → StagedRegions → P → Act P} {prog : P}
    (hmove : ∀ {st sg prog step held update rb next close},
      actOf st sg prog = .move step held update rb next close → ∀ s, SameFrame s (update s))
    (hrefuse : ∀ {st sg prog e update rb}, actOf st sg prog = .refuse e update rb →
      ∀ s, SameFrame s (update s)) (h : eager actOf n sys prog acc = .done r sys' steps) :
    SameSetup sys.state sys'.state := by
  refine eager_done (I := fun s _ _ => SameSetup sys.state s.state)
    (J := fun _ s _ => SameSetup sys.state s.state) ?_ ?_ ?_ (SameSetup.refl _) h
  · intro s s' prog held next step update rb close acc hI hact hsys
    exact hI.trans (move_setup (hmove hact) hsys)
  · intro s prog e update rb acc hI hact
    have hf := hrefuse hact s.state
    exact hI.trans ⟨hf.geometry, hf.config, hf.cowEnabled, hf.hasBacking⟩
  · intro s s' prog step acc hI hact hsys
    exact hI.trans (move_setup (fun _ => ⟨rfl, rfl, rfl, rfl, rfl, rfl⟩) hsys)

theorem serveEager_setup (h : serveEager req sys = .done r sys' steps) :
    SameSetup sys.state sys'.state := by
  obtain ⟨r', hdone, -⟩ | ⟨-, ⟨rfl, hrun⟩ | ⟨voff, len, data, callerData, rfl, -, hrun⟩⟩ :=
    serveEager_cases req sys
  · rw [hdone] at h
    cases h
    exact SameSetup.refl _
  · refine eager_setup (fun hact => (flushAct_move hact).1.frame) ?_ (hrun.symm.trans h)
    intro st sg prog e update rb hact s
    obtain ⟨-, rfl, -⟩ := flushAct_refuse hact
    exact ⟨rfl, rfl, rfl, rfl, rfl, rfl⟩
  · refine eager_setup (fun hact => (writeAct_move hact).2.frame) ?_ (hrun.symm.trans h)
    intro st sg prog e update rb hact s
    obtain ⟨-, -, ⟨rfl, -⟩ | ⟨err, cursor, -, rfl⟩⟩ := writeAct_refuse hact <;>
      exact ⟨rfl, rfl, rfl, rfl, rfl, rfl⟩

/-! ## Runs -/

theorem Ready.stage (h : Ready sys) (req : Request) : Ready (sys.stage req) := by
  cases req <;> exact ⟨h.geo, h.slots, h.inj, h.idle, h.cluster⟩

theorem stage_settle (sys : Sys) (req : Request) :
    (sys.stage req).settle = sys.settle.stage req := by
  cases req <;> rfl

/-- A run that is done, at its last request. -/
theorem runWith_snoc {acc : List Reply}
    (h : runWith serveOne (reqs ++ [req]) sys acc = .done sys' replies) :
    ∃ sys1 replies1 r steps, runWith serveOne reqs sys acc = .done sys1 replies1 ∧
      serveOne req (sys1.stage req) = .done r sys' steps ∧ replies = replies1 ++ [⟨r, steps⟩] := by
  induction reqs generalizing sys acc with
  | nil =>
    rw [List.nil_append, runWith] at h
    cases hserved : serveOne req (sys.stage req) with
    | done r sys1 steps =>
      simp only [hserved, runWith] at h
      cases h
      exact ⟨sys, acc, r, steps, rfl, hserved, rfl⟩
    | _ =>
      rw [hserved] at h
      cases h
  | cons req0 reqs ih =>
    rw [List.cons_append, runWith] at h
    rw [runWith]
    cases hserved : serveOne req0 (sys.stage req0) with
    | done r sys1 steps =>
      simp only [hserved] at h
      exact ih h
    | _ =>
      rw [hserved] at h
      cases h

include hcap in
/-- A run through windows is a run of the eager machine. -/
theorem runWith_eq (reqs : List Request) (hready : Ready sys) (acc : List Reply) :
    (runWith (fun req sys => serve capacity req (req.fuel sys.state) sys []) reqs sys acc).settle
      = (runWith serveEager reqs sys.settle acc).settle ∧
    runWith serveEager reqs sys.settle acc ≠ .running := by
  induction reqs generalizing sys acc with
  | nil => exact ⟨rfl, by simp [runWith]⟩
  | cons req reqs ih =>
    have hserve := serve_eq hcap req (hready.stage req)
    have htotal := serveEager_total req (hready.stage req).settle
    rw [stage_settle] at hserve htotal
    unfold runWith
    cases hout : serve capacity req (req.fuel (sys.stage req).state) (sys.stage req) [] with
    | execFailed =>
      rw [hout] at hserve
      rw [← hserve]
      exact ⟨rfl, by simp [Served.settle]⟩
    | running =>
      rw [hout] at hserve
      exact absurd hserve.symm htotal
    | done r sys' steps =>
      rw [hout] at hserve
      have hready' : Ready sys' := by
        have hstage := (hready.stage req).settle
        rw [stage_settle] at hstage
        exact Ready.of_settle (serveEager_ready hstage (by cases req <;> rfl) hserve.symm)
      rw [← hserve]
      exact ih hready' _

theorem runEager_of_runRequests (hcap : 1 ≤ capacity) (hready : Ready sys)
    (hclear : sys.state.pendingZeroClearAll = sys.state)
    (h : runRequests capacity reqs sys = .done sys' replies) :
    ∃ sys1, runEager reqs sys = .done sys1 replies ∧ sys1.settle = sys'.settle := by
  have hsame : sys.settle = sys := by
    unfold settle
    rw [hclear]
  obtain ⟨heq, -⟩ := runWith_eq (by omega : capacity ≠ 0) reqs hready []
  unfold runRequests at h
  rw [h, hsame] at heq
  unfold runEager
  cases hrun : runWith serveEager reqs sys [] with
  | done sys1 replies1 =>
    rw [hrun] at heq
    simp only [Run.settle, Run.done.injEq] at heq
    exact ⟨sys1, by rw [heq.2], heq.1.symm⟩
  | _ =>
    rw [hrun] at heq
    cases heq

/-- Replies are kept. -/
theorem runWith_mem {acc : List Reply} (h : runWith serveOne reqs sys acc = .done sys' replies)
    {reply : Reply} (hmem : reply ∈ acc) : reply ∈ replies := by
  induction reqs generalizing sys acc with
  | nil =>
    cases h
    exact hmem
  | cons req reqs ih =>
    rw [runWith] at h
    cases hserved : serveOne req (sys.stage req) with
    | done r sys1 steps =>
      simp only [hserved] at h
      exact ih h (List.mem_append_left _ hmem)
    | _ =>
      rw [hserved] at h
      cases h

theorem validateStaged_of_runEager (h : runEager (req :: reqs) sys = .done sys' replies)
    (hok : ∀ reply ∈ replies, reply.result = .ok ()) :
    validateStaged sys.state sys.regions.staged 1 = .ok () := by
  have hstage : validateStaged (sys.stage req).state (sys.stage req).regions.staged 1
      = validateStaged sys.state sys.regions.staged 1 := by
    cases req <;> rfl
  rw [runEager, runWith] at h
  cases hvalid : validateStaged sys.state sys.regions.staged 1 with
  | ok u => rfl
  | error e =>
    have hserved : serveEager req (sys.stage req) = .done (.error e) (sys.stage req) [] := by
      unfold serveEager
      rw [hstage, hvalid]
    simp only [hserved] at h
    cases hok _ (runWith_mem h (List.mem_append_right _ (List.mem_singleton.mpr rfl)))

section

variable {header : Buffer} {hdr : QcowHeader} {cfg : StagingConfig} {cow : Bool}

/-- A new planner state is ready to serve. -/
theorem Ready.new {regions : Regions} {devices : Devices}
    (hparse : QcowHeader.parse header = some hdr)
    (hnew : newStateImpl hdr cfg cow = .ok st) (hcluster : regions.clusterSize = hdr.clusterSize) :
    Ready ⟨st, regions, devices⟩ := by
  obtain ⟨henv, hslots, -, rfl⟩ := newStateImpl_ok hnew
  obtain ⟨hbits, -⟩ := checkEnvelopeWith_ok henv
  refine ⟨Geometry.fromHeader_wf (QcowHeader.parse_parsed hparse) hbits, hslots, ?_, rfl, hcluster⟩
  intro i _ j _ hvalid
  cases hvalid

/-- The emitted steps, the buffers, the disk, the planner state and the results of a run do not
depend on the capacity of the step buffer. -/
theorem runRequests_eq_of_capacities {st : WriteState} (hparse : QcowHeader.parse header = some hdr)
    (hnew : newStateImpl hdr cfg cow = .ok st)
    (regions : Regions) (hcluster : regions.clusterSize = hdr.clusterSize) (devices : Devices)
    (reqs : List Request) {c1 c2 : Nat} (h1 : 1 ≤ c1) (h2 : 1 ≤ c2) :
    (runRequests c1 reqs ⟨st, regions, devices⟩).settle
        = (runRequests c2 reqs ⟨st, regions, devices⟩).settle ∧
      runRequests c1 reqs ⟨st, regions, devices⟩ ≠ .running := by
  have hready : Ready ⟨st, regions, devices⟩ := Ready.new hparse hnew hcluster
  obtain ⟨heq1, htotal⟩ := runWith_eq (by omega : c1 ≠ 0) reqs hready []
  obtain ⟨heq2, -⟩ := runWith_eq (by omega : c2 ≠ 0) reqs hready []
  refine ⟨heq1.trans heq2.symm, fun hrunning => htotal ?_⟩
  have hsettle : (runRequests c1 reqs ⟨st, regions, devices⟩).settle = .running := by
    rw [hrunning]
    rfl
  rw [runRequests, heq1] at hsettle
  cases hrun : runWith serveEager reqs (settle ⟨st, regions, devices⟩) [] with
  | running => rfl
  | _ =>
    rw [hrun] at hsettle
    cases hsettle

end

/-- An empty image with the header `tinyHeader`: refcount table, refblock and L1 in clusters 1 to 3,
no L2 table. -/
def tinyDisk : ByteMap := fun i =>
  if i < 105 then tinyHeader.bytes i
  else match i with
    | 518 => 4 | 1025 => 1 | 1027 => 1 | 1029 => 1 | 1031 => 1 | _ => 0

/-- The empty image staged with a one-slot window. -/
def tinyRegions : Regions :=
  { staged := ⟨⟨24, tinyDisk.drop 1536⟩, ⟨512, fun _ => 0⟩, ⟨512, tinyDisk.drop 512⟩,
      ⟨512, tinyDisk.drop 1024⟩⟩
    bounce := ⟨512, fun _ => 0⟩, callerData := ⟨0, fun _ => 0⟩
    rmwLen := 512, fillLen := 512, clusterSize := 512 }

def tinyDevices : Devices :=
  let dev : Device := ⟨512, tinyDisk, fun _ => true, fun _ => true, some true, []⟩
  ⟨dev, dev⟩

/-- The planner state of the empty image, with a one-slot window. -/
def tinyState : WriteState :=
  { geometry := Geometry.fromHeader tinyHdr, config := ⟨1, 1, .output⟩
    l2Slots := fun _ => L2Slot.empty, refblockDirty := fun _ => false, accessCounter := 0
    allocCursor := ⟨0, 0, 0⟩, hasBacking := false, cowEnabled := false, l1Dirty := false
    stepsSinceBarrier := 0, slotPendingZero := fun _ => false, pending := .idle }

theorem tinyState_new : newStateImpl tinyHdr ⟨1, 1, .output⟩ false = .ok tinyState := rfl

/-- Two writes to different tables and a flush. -/
def tinyRequests : List Request :=
  [.write 0 512 (.fill 1) ⟨0, fun _ => 0⟩, .write 40000 7 (.fill 2) ⟨0, fun _ => 0⟩, .flush]

/-- The run through windows of one and of three steps. -/
theorem runRequests_eq_of_capacities_tiny :
    (runRequests 1 tinyRequests ⟨tinyState, tinyRegions, tinyDevices⟩).settle
      = (runRequests 3 tinyRequests ⟨tinyState, tinyRegions, tinyDevices⟩).settle :=
  (runRequests_eq_of_capacities tinyHeader_parse tinyState_new tinyRegions rfl tinyDevices
    tinyRequests (by decide) (by decide)).1

end Instar.Write
