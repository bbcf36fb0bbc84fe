import Instar.Write.Act

/-!
# The moves of writes and flushes

`WriteMove` lists everything a write stage can do when it does not refuse, with the guard of each
case; `writeAct_move` says the list is complete.  Proofs about writes go by cases on it, and those
about flushes by cases on `FlushMove`.
-/

namespace Instar.Write

open Instar.Qcow2 WriteState

/-- The allocator call of a planner state over the staged refblocks. -/
def allocCall (st : WriteState) (rb : Buffer) : Except SnapshotError Nat × Buffer × AllocCursor :=
  allocClusterInRefblocks rb st.geometry.clusterSize st.geometry.refcountBits
    (rb.len / st.geometry.clusterSize) 0 st.allocCursor

/-- The state update of a successful allocation of `host`. -/
def allocated (geo : Geometry) (cursor : AllocCursor) (host : Nat) : WriteState → WriteState :=
  allocUpdate cursor (host / geo.clusterSize / geo.entriesPerRefblock)

/-- A write that leaves part of an unmapped cluster to a backing file. -/
def NeedsBacking (st : WriteState) (prog : WriteProgress) : Prop :=
  st.hasBacking ∧ (prog.inOff st.geometry ≠ 0 ∨ prog.inOff st.geometry + prog.winLen st.geometry
    < min st.geometry.clusterSize (st.geometry.virtualSize - (prog.cur - prog.inOff st.geometry)))

section

variable (st : WriteState) (rb : Buffer) (l1Raw l2Raw : Nat) (prog : WriteProgress)

/-- The moves of a write, by what they do. -/
inductive WriteMove :
    Option Step → WriteProgress → (WriteState → WriteState) → Buffer → WriteProgress → Bool →
    Prop where
  | hit {v : Nat} (hstage : prog.stage = .enter)
      (hslot : st.findSlot (prog.l1Idx st.geometry) = some v) :
      WriteMove none prog (fun st => st.touch v) rb { prog with slot := v, stage :=
        .slotReady } false
  | evict (hstage : prog.stage = .enter) (hslot : st.findSlot (prog.l1Idx st.geometry) = none)
      (hdirty : (st.l2Slots st.pickVictim).valid ∧ (st.l2Slots st.pickVictim).dirty) :
      WriteMove (some (writebackStep st.pickVictim (st.l2Slots st.pickVictim).hostOffset
          st.geometry.clusterSize st.config.device))
        { prog with slot := st.pickVictim }
        (fun s => s.setSlot st.pickVictim { st.l2Slots st.pickVictim with valid := false, dirty :=
          false }) rb
        { prog with slot := st.pickVictim, stage := .slotFree } false
  | reuse (hstage : prog.stage = .enter) (hslot : st.findSlot (prog.l1Idx st.geometry) = none)
      (hclean : ¬ ((st.l2Slots st.pickVictim).valid ∧ (st.l2Slots st.pickVictim).dirty)) :
      WriteMove none prog id rb { prog with slot := st.pickVictim, stage := .slotFree } false
  | freshTable {host : Nat} {rb' : Buffer} {cursor : AllocCursor} (hstage : prog.stage = .slotFree)
      (hraw : l1Raw = 0) (halloc : allocCall st rb = (.ok host, rb', cursor)) :
      WriteMove none prog (allocated st.geometry cursor host) rb'
        { prog with l2Host := host, stage := .freshAlloc } false
  | load {l2Host : Nat} (hstage : prog.stage = .slotFree) (hraw : l1Raw ≠ 0)
      (hl1 : validateL1Entry st rb l1Raw = .ok (.owned l2Host)) :
      WriteMove (some (loadStep prog.slot l2Host st.geometry.clusterSize st.config.device)) prog
        (fun s => assignSlot s prog.slot (prog.l1Idx s.geometry) l2Host false) rb
        { prog with stage := .enter } true
  | copyTable {old host : Nat} {rb' : Buffer} {cursor : AllocCursor}
      (hstage : prog.stage = .slotFree) (hraw : l1Raw ≠ 0)
      (hl1 : validateL1Entry st rb l1Raw = .ok (.cowL2 old))
      (halloc : allocCall st rb = (.ok host, rb', cursor)) :
      WriteMove none prog (allocated st.geometry cursor host) rb'
        { prog with l2Host := host, cowSrc := old, stage := .cowL2Load } false
  | zeroTable (hstage : prog.stage = .freshAlloc) : WriteMove
        (some (zeroRegionStep prog.slot st.geometry.clusterSize st.config.device)) prog
        (fun s => (assignSlot s prog.slot (prog.l1Idx st.geometry) prog.l2Host true).pendingZeroSet
          prog.slot) rb
        { prog with stage := .freshZeroed } false
  | installTable (hstage : prog.stage = .freshZeroed) : WriteMove (some (l1PatchStep st prog)) prog
        (fun s => touch { s with l1Dirty := true } prog.slot) rb
        { prog with stage := .slotReady } false
  | owned {host : Nat} (hstage : prog.stage = .slotReady)
      (hl2 : classifyL2Entry st rb l2Raw = .ok (.owned host)) :
      WriteMove (some (bodyAt st prog host)) prog id rb (prog.advance st.geometry) false
  | ownedZero {host : Nat} (hstage : prog.stage = .slotReady)
      (hl2 : classifyL2Entry st rb l2Raw = .ok (.ownedZero host)) :
      WriteMove none prog id rb { prog with dataHost := host, stage := .dataAlloc } false
  | copyData {old host : Nat} {zeroPreimage : Bool} {rb' : Buffer} {cursor : AllocCursor}
      (hstage : prog.stage = .slotReady)
      (hl2 : classifyL2Entry st rb l2Raw = .ok (.cowData old zeroPreimage))
      (halloc : allocCall st rb = (.ok host, rb', cursor)) :
      WriteMove none prog (allocated st.geometry cursor host) rb'
        { prog with dataHost := host, cowSrc := old, cowZeroPreimage := zeroPreimage,
                    stage := .cowDataEnter } false
  | freshData {host : Nat} {rb' : Buffer} {cursor : AllocCursor} (hstage : prog.stage = .slotReady)
      (hl2 : classifyL2Entry st rb l2Raw = .ok .unallocated) (hbacking : ¬ NeedsBacking st prog)
      (halloc : allocCall st rb = (.ok host, rb', cursor)) :
      WriteMove none prog (allocated st.geometry cursor host) rb'
        { prog with dataHost := host, stage := .dataAlloc } false
  | head (hstage : prog.stage = .dataAlloc) : WriteMove (if 0 < prog.inOff st.geometry then
          some (zeroRangeStep prog.dataHost (prog.inOff st.geometry) st.config.device) else none)
        prog id rb { prog with stage := .headDone } false
  | body (hstage : prog.stage = .headDone) :
        WriteMove (some (bodyAt st prog prog.dataHost)) prog id rb
        { prog with stage := .bodyDone } false
  | tail (hstage : prog.stage = .bodyDone) : WriteMove
        (if prog.inOff st.geometry + prog.winLen st.geometry < st.geometry.clusterSize then
          some (zeroRangeStep (prog.dataHost + (prog.inOff st.geometry + prog.winLen st.geometry))
            (st.geometry.clusterSize - (prog.inOff st.geometry + prog.winLen st.geometry))
            st.config.device) else none)
        prog id rb { prog with stage := .tailDone } false
  | installData (hstage : prog.stage = .tailDone) : WriteMove (some (l2PatchStep st prog)) prog
        (fun s => dirtySlot s prog.slot) rb (prog.advance st.geometry) false
  | loadOld (hstage : prog.stage = .cowL2Load) : WriteMove
        (some (loadStep prog.slot prog.cowSrc st.geometry.clusterSize st.config.device)) prog
        (fun s => assignSlot s prog.slot (prog.l1Idx st.geometry) prog.l2Host true) rb
        { prog with stage := .cowL2Repoint } false
  | repoint (hstage : prog.stage = .cowL2Repoint) : WriteMove (some (l1PatchStep st prog)) prog
        (fun s => { s with l1Dirty := true }) rb { prog with stage := .cowL2Decrement } false
  | dropTable {rbIdx : Nat} {rb' : Buffer} (hstage : prog.stage = .cowL2Decrement)
      (hdec : decRefblocks st.geometry rb prog.cowSrc = .ok (rbIdx, rb')) :
      WriteMove none prog (fun s => s.refblockDirtySet rbIdx) rb' { prog with stage := .enter } true
  | copyNothing (hstage : prog.stage = .cowDataEnter)
      (hfull : prog.inOff st.geometry = 0 ∧ prog.winLen st.geometry = st.geometry.clusterSize) :
      WriteMove none prog id rb { prog with stage := .cowDataBody } false
  | copyZero (hstage : prog.stage = .cowDataEnter)
      (hpart : ¬ (prog.inOff st.geometry = 0 ∧ prog.winLen st.geometry = st.geometry.clusterSize))
      (hzero : prog.cowZeroPreimage = true) :
      WriteMove (some (zeroRangeStep prog.dataHost st.geometry.clusterSize st.config.device))
      prog id rb
        { prog with stage := .cowDataBody } false
  | copyRead (hstage : prog.stage = .cowDataEnter)
      (hpart : ¬ (prog.inOff st.geometry = 0 ∧ prog.winLen st.geometry = st.geometry.clusterSize))
      (hzero : prog.cowZeroPreimage = false) :
      WriteMove (some (readClusterToBounceStep prog.cowSrc st.geometry.clusterSize
        st.config.device)) prog id rb { prog with stage := .cowDataCopy } false
  | copyWrite (hstage : prog.stage = .cowDataCopy) : WriteMove
        (some (writeBounceClusterStep prog.dataHost st.geometry.clusterSize st.config.device)) prog
        id rb { prog with stage := .cowDataBody } false
  | copyBody (hstage : prog.stage = .cowDataBody) :
        WriteMove (some (bodyAt st prog prog.dataHost)) prog id rb
        { prog with stage := .cowDataPatch } false
  | copyInstall (hstage : prog.stage = .cowDataPatch) : WriteMove (some (l2PatchStep st prog)) prog
        (fun s => dirtySlot s prog.slot) rb { prog with stage := .cowDataDecrement } false
  | dropData {rbIdx : Nat} {rb' : Buffer} (hstage : prog.stage = .cowDataDecrement)
      (hdec : decRefblocks st.geometry rb prog.cowSrc = .ok (rbIdx, rb')) :
      WriteMove none prog (fun s => s.refblockDirtySet rbIdx) rb' (prog.advance st.geometry) false

end

section

variable {st : WriteState} {rb rb' : Buffer} {l1Raw l2Raw : Nat} {prog held next : WriteProgress}
  {step : Option Step} {update : WriteState → WriteState} {close : Bool}

/-- An allocating action that does not refuse has allocated. -/
theorem allocAct_move {k : Nat → WriteProgress}
    (h : allocAct st rb prog k = .move step held update rb' next close) :
    ∃ host cursor, allocCall st rb = (.ok host, rb', cursor) ∧ step = none ∧ held = prog ∧
      update = allocated st.geometry cursor host ∧ next = k host ∧ close = false := by
  unfold allocAct at h
  dsimp only at h
  rcases halloc : allocCall st rb with ⟨res, rb1, cursor⟩
  unfold allocCall at halloc
  rw [halloc] at h
  cases res with
  | ok host =>
    injection h with h1 h2 h3 h4 h5 h6
    subst h4
    exact ⟨host, cursor, rfl, h1.symm, h2.symm, h3.symm, h5.symm, h6.symm⟩
  | error e => cases e <;> cases h

theorem decAct_move {fin : WriteProgress} {closes : Bool}
    (h : decAct st rb prog fin closes = .move step held update rb' next close) :
    ∃ rbIdx, decRefblocks st.geometry rb prog.cowSrc = .ok (rbIdx, rb') ∧ step = none ∧
      held = prog ∧ update = (fun s => s.refblockDirtySet rbIdx) ∧ next = fin ∧ close = closes := by
  unfold decAct at h
  cases hdec : decRefblocks st.geometry rb prog.cowSrc with
  | error e =>
    rw [hdec] at h
    cases h
  | ok res =>
    rw [hdec] at h
    injection h with h1 h2 h3 h4 h5 h6
    subst h4
    exact ⟨res.1, rfl, h1.symm, h2.symm, h3.symm, h5.symm, h6.symm⟩

/-- Every write action that does not refuse or finish is one of the listed moves. -/
theorem writeAct_move (h : writeAct st rb l1Raw l2Raw prog =
    .move step held update rb' next close) :
    prog.consumed < prog.len ∧
    WriteMove st rb l1Raw l2Raw prog step held update rb' next close := by
  unfold writeAct at h
  by_cases hlt : prog.consumed < prog.len
  case neg => simp [hlt] at h
  simp only [hlt, not_true_eq_false, if_false] at h
  refine ⟨hlt, ?_⟩
  cases hstage : prog.stage with
  | enter =>
    simp only [hstage, enterAct] at h
    cases hslot : st.findSlot (prog.l1Idx st.geometry) with
    | some v =>
      simp only [hslot] at h
      cases h
      exact .hit hstage hslot
    | none =>
      simp only [hslot] at h
      split at h
      case isTrue hdirty =>
        cases h
        rw [← hstage]
        exact .evict hstage hslot hdirty
      case isFalse hclean =>
        cases h
        exact .reuse hstage hslot hclean
  | slotFree =>
    simp only [hstage, slotFreeAct] at h
    split at h
    case isTrue hraw =>
      obtain ⟨host, cursor, halloc, rfl, rfl, rfl, rfl, rfl⟩ := allocAct_move h
      exact .freshTable hstage hraw halloc
    case isFalse hraw =>
      split at h
      · cases h
      case h_2 l2Host hl1 =>
        cases h
        exact .load hstage hraw hl1
      case h_3 old hl1 =>
        obtain ⟨host, cursor, halloc, rfl, rfl, rfl, rfl, rfl⟩ := allocAct_move h
        exact .copyTable hstage hraw hl1 halloc
  | slotReady =>
    simp only [hstage, slotReadyAct] at h
    split at h
    · cases h
    case h_2 host hl2 =>
      cases h
      exact .owned hstage hl2
    case h_3 host hl2 =>
      cases h
      exact .ownedZero hstage hl2
    case h_4 old zeroPreimage hl2 =>
      obtain ⟨host, cursor, halloc, rfl, rfl, rfl, rfl, rfl⟩ := allocAct_move h
      exact .copyData hstage hl2 halloc
    case h_5 hl2 =>
      split at h
      · cases h
      case isFalse hbacking =>
        obtain ⟨host, cursor, halloc, rfl, rfl, rfl, rfl, rfl⟩ := allocAct_move h
        exact .freshData hstage hl2 hbacking halloc
  | cowL2Decrement =>
    simp only [hstage] at h
    obtain ⟨rbIdx, hdec, rfl, rfl, rfl, rfl, rfl⟩ := decAct_move h
    exact .dropTable hstage hdec
  | cowDataDecrement =>
    simp only [hstage] at h
    obtain ⟨rbIdx, hdec, rfl, rfl, rfl, rfl, rfl⟩ := decAct_move h
    exact .dropData hstage hdec
  | cowDataEnter =>
    simp only [hstage] at h
    split at h
    case isTrue hfull =>
      cases h
      exact .copyNothing hstage hfull
    case isFalse hpart =>
      split at h
      case isTrue hzero =>
        cases h
        exact .copyZero hstage hpart hzero
      case isFalse hzero =>
        cases h
        exact .copyRead hstage hpart (by simpa using hzero)
  | freshAlloc => simp only [hstage] at h; cases h; exact .zeroTable hstage
  | freshZeroed => simp only [hstage] at h; cases h; exact .installTable hstage
  | dataAlloc => simp only [hstage] at h; cases h; exact .head hstage
  | headDone => simp only [hstage] at h; cases h; exact .body hstage
  | bodyDone => simp only [hstage] at h; cases h; exact .tail hstage
  | tailDone => simp only [hstage] at h; cases h; exact .installData hstage
  | cowL2Load => simp only [hstage] at h; cases h; exact .loadOld hstage
  | cowL2Repoint => simp only [hstage] at h; cases h; exact .repoint hstage
  | cowDataCopy => simp only [hstage] at h; cases h; exact .copyWrite hstage
  | cowDataBody => simp only [hstage] at h; cases h; exact .copyBody hstage
  | cowDataPatch => simp only [hstage] at h; cases h; exact .copyInstall hstage

/-! ## Frames -/

/-- What no move changes in a state. -/
structure SameFrame (st st' : WriteState) : Prop where
  geometry : st'.geometry = st.geometry
  config : st'.config = st.config
  pending : st'.pending = st.pending
  cowEnabled : st'.cowEnabled = st.cowEnabled
  hasBacking : st'.hasBacking = st.hasBacking
  steps : st'.stepsSinceBarrier = st.stepsSinceBarrier

variable (h : WriteMove st rb l1Raw l2Raw prog step held update rb' next close)

include h

theorem WriteMove.frame (s : WriteState) : SameFrame s (update s) := by
  cases h <;> exact ⟨rfl, rfl, rfl, rfl, rfl, rfl⟩

/-- Queued zeroings do not influence an update. -/
theorem WriteMove.clear (s : WriteState) :
    (update s).pendingZeroClearAll = (update s.pendingZeroClearAll).pendingZeroClearAll := by
  cases h <;> rfl

theorem WriteMove.request : next.voff = prog.voff ∧ next.len = prog.len ∧
    next.data = prog.data := by
  cases h <;> exact ⟨rfl, rfl, rfl⟩

/-- No write step touches the refblocks. -/
theorem WriteMove.avoids {s : Step} (hs : step = some s) : s.region ≠ .refblocks := by
  have hbody : ∀ host, (bodyAt st prog host).region ≠ .refblocks := by
    intro host
    unfold bodyAt bodyStep
    cases prog.data <;> simp
  cases h with
  | head hstage | tail hstage =>
    split at hs
    · cases hs
      simp [zeroRangeStep]
    · cases hs
  | owned => cases hs; exact hbody _
  | body => cases hs; exact hbody _
  | copyBody => cases hs; exact hbody _
  | _ => cases hs <;> simp [writebackStep, loadStep, zeroRegionStep, l1PatchStep, l2PatchStep,
      patchStep, zeroRangeStep, readClusterToBounceStep, writeBounceClusterStep]

/-- When the push fails, at most the slot in the progress record has changed, and only where the
next attempt chooses it afresh. -/
theorem WriteMove.held_eq : held = prog ∨ prog.stage = .enter ∧
    ∃ v, held = { prog with slot := v } := by
  cases h <;> first | exact .inl rfl | exact .inr ⟨‹_›, _, rfl⟩

omit h

/-! ## Refusals -/

/-- A refusal changes nothing, except that a failed allocation reports the allocator's own buffers
and cursor. -/
theorem writeAct_refuse {e : WriteError}
    (h : writeAct st rb l1Raw l2Raw prog = .refuse e update rb') :
    e ≠ .bufFull ∧ prog.consumed < prog.len ∧ ((update = id ∧ rb' = rb) ∨
      ∃ err cursor, allocCall st rb = (.error err, rb', cursor) ∧
        update = fun s => { s with allocCursor := cursor }) := by
  have halloc : ∀ {k : Nat → WriteProgress}, allocAct st rb prog k = .refuse e update rb' →
      e ≠ .bufFull ∧ ∃ err cursor, allocCall st rb = (.error err, rb', cursor) ∧
        update = fun s => { s with allocCursor := cursor } := by
    intro k h
    unfold allocAct at h
    dsimp only at h
    rcases hcall : allocCall st rb with ⟨res, rb1, cursor⟩
    unfold allocCall at hcall
    rw [hcall] at h
    cases res with
    | ok host => cases h
    | error err =>
      cases err <;> cases h <;> exact ⟨by simp, _, cursor, rfl, rfl⟩
  have hread : ∀ host err, readStagedRefcount st.geometry rb host = .error err →
      err ≠ .bufFull := by
    intro host err h
    unfold readStagedRefcount at h
    dsimp only at h
    split at h
    · cases h
      simp
    · split at h <;> cases h
      simp
  unfold writeAct at h
  by_cases hlt : prog.consumed < prog.len
  case neg => simp [hlt] at h
  simp only [hlt, not_true_eq_false, if_false] at h
  cases hstage : prog.stage with
  | enter =>
    simp only [hstage, enterAct] at h
    split at h
    · cases h
    · split at h <;> cases h
  | slotFree =>
    simp only [hstage, slotFreeAct] at h
    split at h
    · obtain ⟨hne, hcall⟩ := halloc h
      exact ⟨hne, hlt, .inr hcall⟩
    · split at h
      case h_1 err hl1 =>
        cases h
        refine ⟨?_, hlt, .inl ⟨rfl, rfl⟩⟩
        unfold validateL1Entry at hl1
        grind
      · cases h
      · obtain ⟨hne, hcall⟩ := halloc h
        exact ⟨hne, hlt, .inr hcall⟩
  | slotReady =>
    simp only [hstage, slotReadyAct] at h
    split at h
    case h_1 err hl2 =>
      cases h
      refine ⟨?_, hlt, .inl ⟨rfl, rfl⟩⟩
      unfold classifyL2Entry at hl2
      grind
    · cases h
    · cases h
    · obtain ⟨hne, hcall⟩ := halloc h
      exact ⟨hne, hlt, .inr hcall⟩
    · split at h
      · cases h
        exact ⟨by simp, hlt, .inl ⟨rfl, rfl⟩⟩
      · obtain ⟨hne, hcall⟩ := halloc h
        exact ⟨hne, hlt, .inr hcall⟩
  | cowL2Decrement | cowDataDecrement =>
    simp only [hstage, decAct] at h
    split at h
    case h_1 err hdec =>
      cases h
      refine ⟨?_, hlt, .inl ⟨rfl, rfl⟩⟩
      unfold decRefblocks at hdec
      grind
    · cases h
  | cowDataEnter =>
    simp only [hstage] at h
    split at h
    · cases h
    · split at h <;> cases h
  | _ =>
    simp only [hstage] at h
    cases h

theorem writeAct_finish (h : writeAct st rb l1Raw l2Raw prog = .finish step) :
    step = none ∧ ¬ prog.consumed < prog.len := by
  have halloc : ∀ {k : Nat → WriteProgress}, allocAct st rb prog k ≠ .finish step := by
    intro k h
    unfold allocAct at h
    dsimp only at h
    split at h <;> cases h
  have hdec : ∀ {fin : WriteProgress}
      {closes : Bool}, decAct st rb prog fin closes ≠ .finish step := by
    intro fin closes h
    unfold decAct at h
    split at h <;> cases h
  unfold writeAct at h
  by_cases hlt : prog.consumed < prog.len
  case neg =>
    simp only [hlt, not_false_eq_true, if_true, Act.finish.injEq] at h
    exact ⟨h.symm, hlt⟩
  simp only [hlt, not_true_eq_false, if_false] at h
  cases hstage : prog.stage <;> simp only [hstage] at h <;>
    first
    | cases h
    | exact absurd h hdec
    | (simp only [enterAct] at h; grind)
    | (simp only [slotFreeAct] at h; grind)
    | (simp only [slotReadyAct] at h; grind)
    | (split at h <;> first | cases h | (split at h <;> cases h))

end

/-! ## Flushes -/

variable {st : WriteState} {start idx : Nat}

theorem nextDirtySlot_some (h : st.nextDirtySlot start = some idx) :
    start ≤ idx ∧ idx < st.config.l2Slots ∧ (st.l2Slots idx).valid = true ∧
      (st.l2Slots idx).dirty = true ∧ ∀ v, start ≤ v → v < idx →
        ¬ ((st.l2Slots v).valid = true ∧ (st.l2Slots v).dirty = true) := by
  unfold nextDirtySlot at h
  rw [List.find?_range'_eq_some, List.mem_range'_1] at h
  obtain ⟨hdirty, ⟨hle, hlt⟩, hfirst⟩ := h
  simp only [Bool.and_eq_true] at hdirty
  refine ⟨hle, by omega, hdirty.1, hdirty.2, fun v hv hvi hd => ?_⟩
  have := hfirst v hv hvi
  simp [hd.1, hd.2] at this

theorem nextDirtySlot_none (h : st.nextDirtySlot start = none) :
      ∀ v, start ≤ v → v < st.config.l2Slots →
      ¬ ((st.l2Slots v).valid = true ∧ (st.l2Slots v).dirty = true) := by
  intro v hle hlt hdirty
  unfold nextDirtySlot at h
  rw [List.find?_eq_none] at h
  refine h v (List.mem_range'_1.mpr ⟨hle, by omega⟩) ?_
  simp [hdirty.1, hdirty.2]

theorem nextDirtyRefblock_some (h : st.nextDirtyRefblock start = some idx) :
    start ≤ idx ∧ idx < st.config.maxRefblocks ∧ st.refblockDirty idx = true ∧
      ∀ v, start ≤ v → v < idx → st.refblockDirty v = false := by
  unfold nextDirtyRefblock at h
  rw [List.find?_range'_eq_some, List.mem_range'_1] at h
  obtain ⟨hdirty, ⟨hle, hlt⟩, hfirst⟩ := h
  refine ⟨hle, by omega, hdirty, fun v hv hvi => ?_⟩
  simpa using hfirst v hv hvi

theorem nextDirtyRefblock_none (h : st.nextDirtyRefblock start = none) :
    ∀ v, start ≤ v → v < st.config.maxRefblocks → st.refblockDirty v = false := by
  intro v hle hlt
  unfold nextDirtyRefblock at h
  rw [List.find?_eq_none] at h
  simpa using h v (List.mem_range'_1.mpr ⟨hle, by omega⟩)

section

variable (st : WriteState) (sg : StagedRegions) (prog : FlushProgress)

/-- The moves of a flush, by what they do. -/
inductive FlushMove :
    Option Step → (WriteState → WriteState) → FlushProgress → Prop where
  | first (hstage : prog.stage = .preBarrier) : FlushMove (dueBarrier st) id ⟨.l2Writebacks, 0⟩
  | table {idx : Nat} (hstage : prog.stage = .l2Writebacks)
      (hidx : st.nextDirtySlot prog.nextIdx = some idx) :
      FlushMove (some (writebackStep idx (st.l2Slots idx).hostOffset st.geometry.clusterSize
          st.config.device))
        (fun s => s.setSlot idx { st.l2Slots idx with dirty := false })
        { prog with nextIdx := idx + 1 }
  | tables (hstage : prog.stage = .l2Writebacks) (hidx : st.nextDirtySlot prog.nextIdx = none) :
      FlushMove none id { prog with stage := .l1Barrier }
  | l1Barrier (hstage : prog.stage = .l1Barrier) (hdirty : st.l1Dirty = true) :
      FlushMove (dueBarrier st) id { prog with stage := .l1Write }
  | l1Clean (hstage : prog.stage = .l1Barrier) (hdirty : st.l1Dirty = false) :
      FlushMove none id { prog with stage := .rbBarrier }
  | l1 (hstage : prog.stage = .l1Write) :
      FlushMove (some (l1WriteStep st)) (fun s => { s with l1Dirty := false })
        { prog with stage := .rbBarrier }
  | rbBarrier (hstage : prog.stage = .rbBarrier) (hdirty : (st.nextDirtyRefblock 0).isSome) :
      FlushMove (dueBarrier st) id ⟨.rbWritebacks, 0⟩
  | rbClean (hstage : prog.stage = .rbBarrier) (hdirty : st.nextDirtyRefblock 0 = none) :
      FlushMove none id { prog with stage := .endBarrier }
  | block {idx : Nat} (hstage : prog.stage = .rbWritebacks)
      (hidx : st.nextDirtyRefblock prog.nextIdx = some idx)
      (hblock : idx < sg.refblocks.len / st.geometry.clusterSize)
      (hhost : sg.refcountTable.be (idx * 8) 8 &&& l1OffsetMask ≠ 0 ∧
        (sg.refcountTable.be (idx * 8) 8 &&& l1OffsetMask) % st.geometry.clusterSize = 0 ∧
        sg.refcountTable.be (idx * 8) 8 &&& 0x1ff = 0) :
      FlushMove (some (refblockWriteStep st idx (sg.refcountTable.be (idx * 8) 8 &&& l1OffsetMask)))
        (fun s => s.refblockDirtyClear idx) { prog with nextIdx := idx + 1 }
  | blocks (hstage : prog.stage = .rbWritebacks) (hidx : st.nextDirtyRefblock prog.nextIdx = none) :
      FlushMove none id { prog with stage := .endBarrier }

end

section

variable {st : WriteState} {sg : StagedRegions} {prog held next : FlushProgress}
  {step : Option Step} {update : WriteState → WriteState} {rb : Buffer} {close : Bool}

theorem flushAct_move (h : flushActOf st sg prog = .move step held update rb next close) :
    FlushMove st sg prog step update next ∧ held = prog ∧ rb = sg.refblocks ∧ close = false := by
  unfold flushActOf at h
  cases hstage : prog.stage with
  | preBarrier =>
    rw [hstage] at h
    cases h
    exact ⟨.first hstage, rfl, rfl, rfl⟩
  | l2Writebacks =>
    simp only [hstage] at h
    cases hidx : st.nextDirtySlot prog.nextIdx with
    | some idx =>
      simp only [hidx] at h
      cases h
      rw [← hstage]
      exact ⟨.table hstage hidx, rfl, rfl, rfl⟩
    | none =>
      simp only [hidx] at h
      cases h
      exact ⟨.tables hstage hidx, rfl, rfl, rfl⟩
  | l1Barrier =>
    simp only [hstage] at h
    split at h
    case isTrue hdirty =>
      cases h
      exact ⟨.l1Barrier hstage hdirty, rfl, rfl, rfl⟩
    case isFalse hdirty =>
      cases h
      exact ⟨.l1Clean hstage (by simpa using hdirty), rfl, rfl, rfl⟩
  | l1Write =>
    simp only [hstage] at h
    cases h
    exact ⟨.l1 hstage, rfl, rfl, rfl⟩
  | rbBarrier =>
    simp only [hstage] at h
    split at h
    case isTrue hdirty =>
      cases h
      exact ⟨.rbBarrier hstage hdirty, rfl, rfl, rfl⟩
    case isFalse hdirty =>
      cases h
      exact ⟨.rbClean hstage (by simpa using hdirty), rfl, rfl, rfl⟩
  | rbWritebacks =>
    simp only [hstage] at h
    cases hidx : st.nextDirtyRefblock prog.nextIdx with
    | none =>
      simp only [hidx] at h
      cases h
      exact ⟨.blocks hstage hidx, rfl, rfl, rfl⟩
    | some idx =>
      simp only [hidx] at h
      split at h
      · cases h
      case isFalse hblock =>
        split at h
        · cases h
        case isFalse hhost =>
          push Not at hhost
          cases h
          rw [← hstage]
          exact ⟨.block hstage hidx (by omega) hhost, rfl, rfl, rfl⟩
  | endBarrier =>
    simp only [hstage] at h
    cases h

/-- A flush refuses only a refblock it has no place for. -/
theorem flushAct_refuse {e : WriteError} (h : flushActOf st sg prog = .refuse e update rb) :
    e ≠ .bufFull ∧ update = id ∧ rb = sg.refblocks ∧ prog.stage = .rbWritebacks := by
  unfold flushActOf at h
  cases hstage : prog.stage with
  | l2Writebacks | l1Barrier | rbBarrier =>
    simp only [hstage] at h
    split at h <;> cases h
  | rbWritebacks =>
    simp only [hstage] at h
    split at h
    · split at h
      · cases h
        exact ⟨by simp, rfl, rfl, rfl⟩
      · split at h <;> cases h
        exact ⟨by simp, rfl, rfl, rfl⟩
    · cases h
  | _ =>
    simp only [hstage] at h
    cases h

theorem flushAct_finish (h : flushActOf st sg prog = .finish step) :
    prog.stage = .endBarrier ∧ step = dueBarrier st := by
  unfold flushActOf at h
  cases hstage : prog.stage with
  | l2Writebacks | l1Barrier | rbBarrier =>
    simp only [hstage] at h
    split at h <;> cases h
  | rbWritebacks =>
    simp only [hstage] at h
    split at h
    · split at h
      · cases h
      · split at h <;> cases h
    · cases h
  | endBarrier =>
    simp only [hstage, Act.finish.injEq] at h
    exact ⟨rfl, h.symm⟩
  | _ =>
    simp only [hstage] at h
    cases h

section

variable (h : FlushMove st sg prog step update next) (s : WriteState)

include h s

theorem FlushMove.frame : SameFrame s (update s) := by
  cases h <;> exact ⟨rfl, rfl, rfl, rfl, rfl, rfl⟩

theorem FlushMove.clear :
    (update s).pendingZeroClearAll = (update s.pendingZeroClearAll).pendingZeroClearAll := by
  cases h <;> rfl

end

end

end Instar.Write
