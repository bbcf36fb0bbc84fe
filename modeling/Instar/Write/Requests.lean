import Instar.Write.Flushed

/-!
# Whole requests

What a request that completes has done to a settled system.  A flush keeps the image and leaves
nothing dirty; a write puts the request's bytes into the image and changes nothing else.  Runs of
requests follow by induction on the list.
-/

namespace Instar.Write

open Instar.Qcow2

section

variable {bits : Nat} {inflate : Inflate bits} {under : Nat → UInt8} {fixed host : Nat → Nat}
  {n : Nat} {sys sys' sys'' : Sys} {st : WriteState} {rb : Buffer} {close : Bool}
  {update : WriteState → WriteState} {step : Option Step}

/-- A settled system whose image is at rest again. -/
theorem Settled.next (h : Settled bits under fixed n host sys) (hready : Ready sys')
    (hclear : sys'.state.pendingZeroClearAll = sys'.state) (hsetup : SameSetup sys.state sys'.state)
    (hrest : Resting fixed n host sys'.state sys'.regions.staged sys'.disk) :
    Settled bits under fixed n host sys' :=
  ⟨hready, hclear, hsetup.geometry ▸ h.bits, h.root, hsetup.hasBacking ▸ h.backing,
    hsetup.geometry ▸ h.home, hrest⟩

/-! ## Flushes -/

theorem Kept.refl (h : Settled bits under fixed n host sys) :
    Kept inflate under fixed n host sys sys :=
  ⟨h.resting, .refl _ _ _, .refl _ _ _⟩

theorem Kept.trans (h : Kept inflate under fixed n host sys sys')
    (h' : Kept inflate under fixed n host sys' sys'') (hsetup : SameSetup sys.state sys'.state) :
    Kept inflate under fixed n host sys sys'' := by
  refine ⟨h'.resting, h.image.trans h'.image, h.spares.trans ?_⟩
  have hspares := h'.spares
  rwa [hsetup.config, hsetup.geometry] at hspares

/-- A flush that completes keeps the image and leaves nothing dirty. -/
theorem Settled.flush {m : Nat} {steps : List Step} (h : Settled bits under fixed n host sys)
    (hdone : eager flushActOf m sys ⟨.preBarrier, 0⟩ [] = .done (.ok ()) sys' steps) :
    Settled bits under fixed n host sys' ∧ Kept inflate under fixed n host sys sys' ∧
      FlushProgress.Past sys'.state ⟨.endBarrier, 0⟩ := by
  refine eager_done (I := fun s prog _ => Settled bits under fixed n host s ∧
      Kept inflate under fixed n host sys s ∧ SameSetup sys.state s.state ∧ prog.Past s.state)
    (J := fun r s _ => r = .ok () → Settled bits under fixed n host s ∧
      Kept inflate under fixed n host sys s ∧ FlushProgress.Past s.state ⟨.endBarrier, 0⟩)
    ?_ ?_ ?_ ⟨h, Kept.refl h, SameSetup.refl _, trivial⟩ hdone rfl
  · intro s s' prog held next step update rb close acc ⟨hs, hkept, hsetup, hpast⟩ hact hsys
    obtain ⟨hmove, -, rfl, -⟩ := flushAct_move hact
    have hsetup' := Sys.move_setup hmove.frame hsys
    have hkept' : Kept inflate under fixed n host s s' := hs.flush_move hmove hsys
    refine ⟨hs.next (hs.ready.moved (hmove.frame _) (hmove.inj hs.ready.inj) hsys)
      (Sys.move_clear hsys) hsetup' hkept'.resting, hkept.trans hkept' hsetup,
      hsetup.trans hsetup', ?_⟩
    rw [Sys.move_state hsys]
    exact hmove.past hpast
  · intro s prog e update rb acc _ _ hr
    cases hr
  · intro s s' prog step acc ⟨hs, hkept, hsetup, hpast⟩ hact hsys _
    obtain ⟨hstage, rfl⟩ := flushAct_finish hact
    have hkept' : Kept inflate under fixed n host s s' := hs.barrier hsys
    have hsetup' := Sys.move_setup (fun _ => ⟨rfl, rfl, rfl, rfl, rfl, rfl⟩) hsys
    refine ⟨hs.next (hs.ready.moved ⟨rfl, rfl, rfl, rfl, rfl,
      rfl⟩ (by simpa using hs.ready.inj) hsys)
      (Sys.move_clear hsys) hsetup' hkept'.resting, hkept.trans hkept' hsetup, ?_⟩
    simp only [FlushProgress.Past, hstage] at hpast
    rw [Sys.move_state hsys]
    simpa [FlushProgress.Past, SlotsClean, WriteState.pendingZeroClearAll] using hpast

/-! ## Writes -/

theorem Progressed.trans {callerData : Buffer} {st' st'' : WriteState} {sg sg' sg'' : StagedRegions}
    {disk disk' disk'' : ByteMap} {prog' prog'' : WriteProgress}
    (h : Progressed inflate under callerData st sg disk prog st' sg' disk' prog')
    (h' : Progressed inflate under callerData st' sg' disk' prog' st'' sg'' disk'' prog'')
    (hsame : prog'.voff = prog.voff ∧ prog'.len = prog.len ∧ prog'.data = prog.data) :
    Progressed inflate under callerData st sg disk prog st'' sg'' disk'' prog'' := by
  obtain ⟨hvoff, hlen, hdata⟩ := hsame
  obtain ⟨hgeo', hmono', hbyte', htab', hlent'⟩ := h'
  rw [h.geometry] at hgeo' hmono' hbyte' htab' hlent'
  rw [hvoff, hdata] at hbyte'
  rw [hvoff, hlen] at htab'
  have hmono := h.mono
  refine ⟨hgeo', hmono.trans hmono', fun x hx hsize => ?_, fun i hi j hj hout => ?_,
    fun i hi j hj hclear => ?_⟩
  · rw [hbyte' x hx hsize, h.byte x hx hsize]
    split
    · rw [if_pos (by omega)]
    · split
      · rw [if_pos (by omega)]
      · rw [if_neg (by omega)]
  · rw [htab' i hi j hj hout, h.tab i hi j hj hout]
  · have hold := hlent' i hi j hj hclear
    rw [hold] at hclear ⊢
    exact h.lent i hi j hj hclear

/-- A write in progress on a system that was settled when it began. -/
structure WriteRun {bits : Nat} (inflate : Inflate bits) (under : Nat → UInt8) (fixed : Nat → Nat)
    (n : Nat) (host : Nat → Nat) (voff len : Nat) (data : DataSource) (sys0 sys : Sys)
    (prog : WriteProgress) : Prop where
  start : WriteStart voff len data sys prog
  clear : sys.state.pendingZeroClearAll = sys.state
  inv : WriteInv inflate under fixed sys prog
  within : prog.consumed ≤ prog.len
  synced : Synced n host sys.state sys.regions.staged sys.disk
  home : Home sys.state.geometry fixed n host
  setup : SameSetup sys0.state sys.state
  caller : sys.regions.callerData = sys0.regions.callerData
  spares : sys0.devices.Spares sys0.state.config.device
    (fun b => fixed (b / sys0.state.geometry.clusterSize) ≠ 0) sys.devices
  image : Progressed inflate under sys0.regions.callerData sys0.state sys0.regions.staged sys0.disk
    (.start voff len data) sys.state sys.regions.staged sys.disk prog

theorem WriteMove.within {rb' : Buffer} {l1Raw l2Raw : Nat} {held next : WriteProgress}
    (h : WriteMove st rb l1Raw l2Raw prog step held update rb' next close)
    (hlt : prog.consumed < prog.len) : next.consumed ≤ next.len := by
  have hwin := prog.winLen_le st.geometry
  cases h with
  | owned | installData | dropData =>
    show prog.consumed + prog.winLen st.geometry ≤ prog.len
    omega
  | _ => exact hlt.le

variable {voff len : Nat} {data : DataSource} {sys0 : Sys} {prog : WriteProgress}

theorem Settled.writeRun (h : Settled bits under fixed n host sys)
    (hvalid : validateStaged sys.state sys.regions.staged 1 = .ok ())
    (hgranted : admitWrite sys.state.geometry voff len data = .ok (some (.start voff len data))) :
    WriteRun inflate under fixed n host voff len data sys sys (.start voff len data) := by
  have hstart := h.ready.writeStart hvalid hgranted
  obtain ⟨-, -, -, hsize, hcover⟩ := admitWrite_some hgranted
  refine ⟨hstart, h.clear, ⟨hstart.keep, h.bits, h.root, h.backing, ⟨hsize, hcover⟩,
    ⟨_, h.resting.store, rfl⟩, fun v hv hvalid _ => h.resting.linked v hv hvalid⟩, Nat.zero_le _,
    h.resting.synced, h.home, SameSetup.refl _, rfl, .refl _ _ _, ?_⟩
  exact (SameImage.refl _ _ _).progressed rfl

variable (h : WriteRun inflate under fixed n host voff len data sys0 sys prog)

include h

/-- The invariant of the write in terms of its regions. -/
theorem WriteRun.ok : WriteOk inflate under fixed sys.state sys.regions.staged sys.disk
    sys.regions.bounce sys.regions.callerData prog :=
  h.inv

theorem WriteRun.move {held next : WriteProgress}
    (hact : writeActOf sys.state sys.regions.staged prog = .move step held update rb next close)
    (hsys : sys.move step update rb = some sys') :
    WriteRun inflate under fixed n host voff len data sys0 sys' next := by
  obtain ⟨hlt, hmove⟩ := writeAct_move hact
  have hrel : WriteRel voff len data (sys.planner 1) prog sys := h.start.rel h.clear
  have hstart' : WriteStart voff len data sys' next := hrel.after hlt hmove hsys
  have hsetup := Sys.move_setup hmove.frame hsys
  obtain ⟨hmoved, hcaller⟩ := h.inv.moved h.start.cluster h.clear hlt hmove hsys
  obtain ⟨hvoff, hlen, hdata⟩ := hmove.request
  have hinv := h.ok
  refine ⟨hstart', Sys.move_clear hsys, ⟨hstart'.keep, hsetup.geometry ▸ hinv.bits, hinv.root,
    hsetup.hasBacking ▸ hinv.backing, ?_, hcaller ▸ hmoved.store, hmoved.linked⟩, hmove.within hlt,
    h.inv.synced h.home h.synced h.clear hlt hmove hsys, hsetup.geometry ▸ h.home,
    h.setup.trans hsetup, hcaller.trans h.caller, h.spares.trans ?_, ?_⟩
  · rw [hvoff, hlen, hsetup.geometry]
    exact hinv.inside
  · have hspares := h.inv.spares h.clear hlt hmove hsys
    rwa [h.setup.config, h.setup.geometry] at hspares
  · refine h.image.trans (h.caller ▸ hmoved.image) ?_
    exact h.start.request

/-- At the end of a write the image is at rest and the whole request visible. -/
theorem WriteRun.finish (hlen : ¬ prog.consumed < prog.len) :
    Resting fixed n host sys.state sys.regions.staged sys.disk ∧
    prog.visible sys0.state.geometry = len := by
  have hinv := h.ok
  have hstage : prog.stage = .enter := by
    by_contra hne
    exact hlen (hinv.keep.active hne)
  obtain ⟨held, hst, hheld⟩ := hinv.store
  simp only [StageOk, hstage] at hheld
  subst hheld
  refine ⟨⟨hst, fun v hv hvalid => hinv.linked_all (by rw [hstage]; rfl) hv hvalid, h.synced⟩, ?_⟩
  have hwithin := h.within
  have hreq := h.start.request.2.1
  simp only [WriteProgress.visible, hstage, reduceCtorEq, if_false]
  omega

end

/-! ## Requests -/

/-- The byte a request puts at virtual offset `x`, if it covers it. -/
def Request.newByte : Request → Nat → Option UInt8
  | .write voff len data callerData, x =>
    if voff ≤ x ∧ x < voff + len then some (data.byteAt callerData (x - voff)) else none
  | .flush, _ => none

/-- The byte of the last request that covers `x`. -/
def lastByte (reqs : List Request) (x : Nat) : Option UInt8 :=
  reqs.reverse.findSome? fun req => req.newByte x

section

variable {bits : Nat} (inflate : Inflate bits) (under : Nat → UInt8)

/-- The virtual disk of a system. -/
def Sys.byte (sys : Sys) (x : Nat) : UInt8 :=
  effByte inflate under sys.state sys.regions.staged sys.disk x

/-- Entry `j` of the L2 table `i` of a system. -/
def Sys.entry (sys : Sys) (i j : Nat) : Nat := effTab sys.state sys.regions.staged sys.disk i j

/-- What completed requests have done: their bytes are in the image, and nothing else is changed.
`new x` is the byte they put at `x`. -/
structure Answered (fixed : Nat → Nat) (n : Nat) (host : Nat → Nat) (new : Nat → Option UInt8)
    (sys sys' : Sys) : Prop where
  settled : Settled bits under fixed n host sys'
  setup : SameSetup sys.state sys'.state
  inside : ∀ x, new x ≠ none → x / sys.state.geometry.l2Coverage < sys.state.geometry.l1Size
  byte : ∀ x, x / sys.state.geometry.l2Coverage < sys.state.geometry.l1Size →
    x < sys.state.geometry.virtualSize →
    sys'.byte inflate under x = (new x).getD (sys.byte inflate under x)
  entry : ∀ i < sys.state.geometry.l1Size, ∀ j < sys.state.geometry.entriesPerL2,
    (∀ x, x / sys.state.geometry.l2Coverage = i →
      x / sys.state.geometry.clusterSize % sys.state.geometry.entriesPerL2 = j → new x = none) →
    sys'.entry i j = sys.entry i j
  spares : sys.devices.Spares sys.state.config.device (Untouched sys.state.geometry fixed n host)
    sys'.devices

end

section

variable {bits : Nat} {inflate : Inflate bits} {under : Nat → UInt8} {fixed host : Nat → Nat}
  {n : Nat} {sys sys' sys'' : Sys} {new new' : Nat → Option UInt8}
  {steps : List Step} {reqs : List Request} {replies : List Reply}
  (h : Settled bits under fixed n host sys)

include h in
theorem Answered.refl : Answered inflate under fixed n host (fun _ => none) sys sys :=
  ⟨h, SameSetup.refl _, fun _ hne => absurd rfl hne, fun _ _ _ => rfl, fun _ _ _ _ _ => rfl,
    .refl _ _ _⟩

theorem Answered.trans (h : Answered inflate under fixed n host new sys sys')
    (h' : Answered inflate under fixed n host new' sys' sys'') :
    Answered inflate under fixed n host (fun x => (new' x).or (new x)) sys sys'' := by
  obtain ⟨hsettled, hsetup', hinside', hbyte', hentry', hspares'⟩ := h'
  rw [h.setup.geometry] at hinside' hbyte' hentry' hspares'
  rw [h.setup.config] at hspares'
  refine ⟨hsettled, h.setup.trans hsetup', fun x hne => ?_, fun x hx hsize => ?_,
    fun i hi j hj hout => ?_, h.spares.trans hspares'⟩
  · by_cases hnew : new' x = none
    · exact h.inside x (by simpa [hnew] using hne)
    · exact hinside' x hnew
  · rw [hbyte' x hx hsize, h.byte x hx hsize]
    cases new' x <;> rfl
  · have hnone : ∀ x, x / sys.state.geometry.l2Coverage = i →
        x / sys.state.geometry.clusterSize % sys.state.geometry.entriesPerL2 = j →
        new' x = none ∧ new x = none := fun x hi hj => by simpa using hout x hi hj
    rw [hentry' i hi j hj fun x hi hj => (hnone x hi hj).1,
      h.entry i hi j hj fun x hi hj => (hnone x hi hj).2]

theorem Answered.congr (h : Answered inflate under fixed n host new sys sys')
    (hnew : ∀ x, new' x = new x) : Answered inflate under fixed n host new' sys sys' := by
  rw [funext hnew]
  exact h

include h

/-- The caller's data buffer is no part of the image. -/
theorem Settled.stage (req : Request) :
    Answered inflate under fixed n host (fun _ => none) sys (sys.stage req) := by
  cases req with
  | flush => exact .refl h
  | write voff len data callerData =>
    exact ⟨⟨h.ready.stage (.write voff len data callerData), h.clear, h.bits, h.root, h.backing,
      h.home, h.resting⟩, SameSetup.refl _, fun _ hne => absurd rfl hne, fun _ _ _ => rfl,
      fun _ _ _ _ _ => rfl, .refl _ _ _⟩

theorem Settled.served_flush {m : Nat}
    (hdone : eager flushActOf m sys ⟨.preBarrier, 0⟩ [] = .done (.ok ()) sys' steps) :
    Answered inflate under fixed n host (fun _ => none) sys sys' := by
  obtain ⟨hsettled, hkept, -⟩ : Settled bits under fixed n host sys' ∧
    Kept inflate under fixed n host sys sys' ∧ _ := h.flush hdone
  have hsetup : SameSetup sys.state sys'.state := by
    refine eager_setup (fun hact => (flushAct_move hact).1.frame) ?_ hdone
    intro st sg prog e update rb hact s
    obtain ⟨-, rfl, -⟩ := flushAct_refuse hact
    exact ⟨rfl, rfl, rfl, rfl, rfl, rfl⟩
  exact ⟨hsettled, hsetup, fun _ hne => absurd rfl hne, fun x hx _ => hkept.image.byte x hx,
    fun i hi j hj _ => hkept.image.tab i hi j hj, hkept.spares⟩

/-- A write that completes. -/
theorem Settled.served_write {m voff len : Nat} {data : DataSource}
    (hvalid : validateStaged sys.state sys.regions.staged 1 = .ok ())
    (hgranted : admitWrite sys.state.geometry voff len data = .ok (some (.start voff len data)))
    (hdone : eager writeActOf m sys (.start voff len data) [] = .done (.ok ()) sys' steps) :
    Answered inflate under fixed n host
      (Request.newByte (.write voff len data sys.regions.callerData)) sys sys' := by
  refine eager_done (I := fun s prog _ =>
    WriteRun inflate under fixed n host voff len data sys s prog)
    (J := fun r s _ => r = .ok () → Answered inflate under fixed n host
      (Request.newByte (.write voff len data sys.regions.callerData)) sys s)
    ?_ ?_ ?_ (h.writeRun hvalid hgranted) hdone rfl
  · intro s s' prog held next step update rb close acc hrun hact hsys
    exact hrun.move hact hsys
  · intro s prog e update rb acc _ _ hr
    cases hr
  · intro s s' prog step acc hrun hact hsys _
    obtain ⟨rfl, hlen⟩ := writeAct_finish hact
    obtain rfl := Sys.move_none hsys
    obtain ⟨hrest, hvisible⟩ := hrun.finish hlen
    -- the queued zeroings are none, so the end of the write is the system itself
    show Answered inflate under fixed n host _ sys ⟨s.state.pendingZeroClearAll,
      s.regions, s.devices⟩
    rw [hrun.clear]
    obtain ⟨-, -, hbyte, htab, -⟩ := hrun.image
    have hzero : (WriteProgress.start voff len data).visible sys.state.geometry = 0 := rfl
    refine ⟨h.next hrun.start.ready hrun.clear hrun.setup hrest, hrun.setup, fun x hne => ?_,
      fun x hx hsize => ?_, fun i hi j hj hout => htab i hi j hj fun x hlo hhi hx => ?_,
      hrun.spares.mono fun b hb => hb.1⟩
    · obtain ⟨-, -, -, -, hcover⟩ := admitWrite_some hgranted
      have hx : voff ≤ x ∧ x < voff + len := by
        by_contra hout
        exact hne (if_neg hout)
      exact lt_of_le_of_lt (Nat.div_le_div_right (by omega)) hcover
    · refine (hbyte x hx hsize).trans ?_
      rw [hvisible, hzero, add_zero]
      show (if voff ≤ x ∧ x < voff + len then data.byteAt sys.regions.callerData (x - voff) else _)
        = (if voff ≤ x ∧ x < voff + len then some _ else none).getD _
      split <;> rfl
    · have hnone := hout x hx.1 hx.2
      have hcovered : Request.newByte (.write voff len data sys.regions.callerData) x
          = some (data.byteAt sys.regions.callerData (x - voff)) := if_pos ⟨hlo, hhi⟩
      rw [hcovered] at hnone
      cases hnone

theorem Settled.served {req : Request}
    (hdone : serveEager req (sys.stage req) = .done (.ok ()) sys' steps) :
    Answered inflate under fixed n host req.newByte sys sys' := by
  have hstaged : Answered inflate under fixed n host (fun _ => none) sys (sys.stage req) :=
    h.stage req
  have hsys := hstaged.settled
  have hnothing : Answered inflate under fixed n host (fun _ => none) (sys.stage req) sys' →
      (∀ x, req.newByte x = none) → Answered inflate under fixed n host req.newByte sys sys' := by
    intro hnone hnew
    exact (hstaged.trans hnone).congr hnew
  obtain ⟨r', hanswer, hzero⟩ | ⟨hvalid, ⟨rfl, hrun⟩ | ⟨voff, len, data, callerData, rfl,
      hgranted, hrun⟩⟩ :=
    serveEager_cases req (sys.stage req)
  · rw [hanswer] at hdone
    cases hdone
    obtain ⟨voff, data, callerData, rfl⟩ := hzero rfl
    exact hnothing (.refl hsys) fun x => if_neg (by omega)
  · exact hnothing (hsys.served_flush (hrun.symm.trans hdone)) fun _ => rfl
  · have hwrote : Answered inflate under fixed n host
        (Request.newByte (.write voff len data callerData)) _ sys' :=
      hsys.served_write hvalid hgranted (hrun.symm.trans hdone)
    exact (hstaged.trans hwrote).congr fun x => Option.or_none.symm

/-- Requests that all complete. -/
theorem Settled.run (hdone : runEager reqs sys = .done sys' replies)
    (hok : ∀ reply ∈ replies, reply.result = .ok ()) :
    Answered inflate under fixed n host (lastByte reqs) sys sys' := by
  induction reqs using List.reverseRecOn generalizing sys' replies with
  | nil =>
    cases hdone
    exact .refl h
  | append_singleton reqs req ih =>
    obtain ⟨sys1, replies1, r, steps, hrun, hserved, rfl⟩ := runWith_snoc hdone
    obtain rfl : r = .ok () := hok ⟨r, steps⟩ (by simp)
    have hbefore := ih hrun fun reply hreply => hok reply (by simp [hreply])
    refine (hbefore.trans (hbefore.settled.served hserved)).congr fun x => ?_
    rw [lastByte, List.reverse_append, List.reverse_singleton, List.singleton_append,
      List.findSome?_cons]
    cases req.newByte x <;> rfl

/-- Requests that all complete and end with a flush leave nothing dirty. -/
theorem Settled.run_flush (hdone : runEager (reqs ++ [.flush]) sys = .done sys' replies)
    (hok : ∀ reply ∈ replies, reply.result = .ok ()) :
    Answered inflate under fixed n host (lastByte reqs) sys sys' ∧
      FlushProgress.Past sys'.state ⟨.endBarrier, 0⟩ := by
  have hall : Answered inflate under fixed n host (lastByte (reqs ++ [.flush])) sys sys' :=
    h.run hdone hok
  obtain ⟨sys1, replies1, r, steps, hrun, hserved, rfl⟩ := runWith_snoc hdone
  obtain rfl : r = .ok () := hok ⟨r, steps⟩ (by simp)
  have hbefore : Answered inflate under fixed n host (lastByte reqs) sys sys1 :=
    h.run hrun fun reply hreply => hok reply (by simp [hreply])
  refine ⟨hall.congr fun x => by simp [lastByte, Request.newByte], ?_⟩
  obtain ⟨r', hanswer, hzero⟩ | ⟨-, ⟨-, heager⟩ | ⟨_, _, _, _, hreq, -⟩⟩ :=
    serveEager_cases .flush sys1
  · rw [show sys1.stage .flush = sys1 from rfl, hanswer] at hserved
    cases hserved
    exact (nomatch hzero rfl)
  · obtain ⟨-, -, hpast⟩ : _ ∧ Kept inflate under fixed n host sys1 sys' ∧ _ :=
      hbefore.settled.flush (heager.symm.trans hserved)
    exact hpast
  · cases hreq

end

end Instar.Write
