import Instar.Write.Writing

/-!
# Whole writes

`WriteInv.moved` goes through the moves of a write; from it follow what a completed request has done
to the image and which clusters of the disk it has left alone.
-/

namespace Instar.Write

open Instar.Qcow2 ByteMap WriteProgress Sys

section

variable {bits : Nat} {inflate : Inflate bits} {under : Nat → UInt8} {fixed held : Nat → Nat}
  {st st' : WriteState} {sg sg' : StagedRegions} {disk disk' : ByteMap}
  {bounce bounce' callerData : Buffer} {prog next : WriteProgress} {v : Nat}

/-! ## Every move -/

/-- A write in progress on a system. -/
def WriteInv {bits : Nat} (inflate : Inflate bits) (under : Nat → UInt8) (fixed : Nat → Nat)
    (sys : Sys) (prog : WriteProgress) : Prop :=
  WriteOk inflate under fixed sys.state sys.regions.staged sys.disk sys.regions.bounce
    sys.regions.callerData prog

/-- A move of a write on a system. -/
abbrev Sys.WriteMoves (sys : Sys) (prog : WriteProgress) (step : Option Step) (held : WriteProgress)
    (update : WriteState → WriteState) (rb : Buffer) (next : WriteProgress) (close : Bool) : Prop :=
  WriteMove sys.state sys.regions.staged.refblocks
    (readStagedL1Entry sys.regions.staged (prog.l1Idx sys.state.geometry))
    (readStagedL2Entry sys.state sys.regions.staged prog.slot (prog.l2Idx sys.state.geometry))
    prog step held update rb next close

variable (h : WriteOk inflate under fixed st sg disk bounce callerData prog)
  {update : WriteState → WriteState} {rb : Buffer}

include h

/-- The entry a stage reads is the entry of the image. -/
theorem WriteOk.entry_eq (hon : prog.stage.onSlot = true) (hclear : st.pendingZeroClearAll = st) :
    readStagedL2Entry st sg prog.slot (prog.l2Idx st.geometry)
      = effTab st sg disk (prog.l1Idx st.geometry) (prog.l2Idx st.geometry) := by
  obtain ⟨hv, hvalid, hidx⟩ := h.keep.heldSlot hon
  have hpz : st.slotPendingZero prog.slot = false := by
    rw [← hclear]
    rfl
  rw [effTab_some ((findSlot_iff h.keep.inj).mpr ⟨hv, hvalid, hidx⟩)]
  simp [readStagedL2Entry, hpz]

theorem WriteOk.blank_of_verdict (hverdict : EntryVerdict st sg.refblocks
      (sceneOf inflate under st sg disk bounce callerData prog).entry .unallocated)
    (hbacking : ¬ NeedsBacking st prog) :
      ∀ k < st.geometry.clusterSize, ¬ prog.inWindow st.geometry k →
      prog.cur - prog.inOff st.geometry + k < st.geometry.virtualSize →
      (sceneOf inflate under st sg disk bounce callerData prog).old k = 0 := by
  intro k hk hwin hsize
  rw [sceneOf_old h.keep.geo hk]
  cases hverdict with
  | zeroed hplain hzero hhost => exact entryByte_zero hplain hzero
  | empty hentry =>
    rw [hentry]
    show under _ = 0
    cases hb : st.hasBacking with
    | false => exact h.backing hb _
    | true =>
      -- the request covers the whole cluster, up to the end of the disk
      refine absurd ?_ hwin
      have hfull : ¬ (prog.inOff st.geometry ≠ 0 ∨
          prog.inOff st.geometry + prog.winLen st.geometry < min st.geometry.clusterSize
            (st.geometry.virtualSize - (prog.cur - prog.inOff st.geometry))) :=
        fun hneed => hbacking ⟨hb, hneed⟩
      unfold inWindow
      omega

omit h

theorem Sys.move_some {sys sys' : Sys} {step : Step}
    (hframe : ∀ s, SameFrame s (update s)) (h : sys.move (some step) update rb = some sys') :
    execOne (sys.regions.setRefblocks rb) sys.devices step = some (sys'.regions, sys'.devices) ∧
      sys'.disk = sys'.devices.disk sys.state.config.device := by
  constructor
  · rcases move_cases h with ⟨hnone, -⟩ | ⟨s, hs, hexec⟩
    · cases hnone
    · cases hs
      exact hexec
  · unfold disk
    rw [(move_setup hframe h).config]

theorem Sys.move_none {sys sys' : Sys} (h : sys.move none update rb = some sys') :
    sys' = ⟨(update sys.state).pendingZeroClearAll, sys.regions.setRefblocks rb, sys.devices⟩ := by
  cases h
  rfl

end

section

variable {bits : Nat} {inflate : Inflate bits} {under : Nat → UInt8} {fixed : Nat → Nat}
  {sys sys' : Sys} {prog held next : WriteProgress} {step : Option Step}
  {update : WriteState → WriteState} {rb : Buffer} {close : Bool}
  (h : WriteInv inflate under fixed sys prog)

include h

/-- Zeroing what the request leaves of the data cluster before or after its own bytes; nothing is
emitted where nothing is left. -/
theorem WriteInv.zeroes {left : Prop} [Decidable left] {upTo len : Nat} {held : Nat → Nat}
    (hlt : prog.consumed < prog.len) (hst : Store fixed held sys.state sys.regions.staged sys.disk)
    (hfill : Filling (sceneOf inflate under sys.state sys.regions.staged sys.disk sys.regions.bounce
      sys.regions.callerData prog) held prog upTo)
      (hstage : prog.stage = .dataAlloc ∨ prog.stage = .bodyDone)
    (hlen : upTo + len ≤ sys.state.geometry.clusterSize) (hleft : ¬ left → len = 0)
    (hout : ∀ k < len, ¬ prog.inWindow sys.state.geometry (upTo + k))
    (hsys : sys.move (if left then some (zeroRangeStep (prog.dataHost + upTo) len
      sys.state.config.device) else none) id sys.regions.staged.refblocks = some sys')
    (hslot : next.slot = prog.slot) (hcur : next.cur = prog.cur)
    (hvisible : next.visible sys.state.geometry = prog.visible sys.state.geometry)
    (hnext : ∀ sc : Scene, sc.geo = sys.state.geometry → Filling sc held prog (upTo + len) →
      StageOk sc held next) :
    Moved inflate under fixed sys.regions.callerData sys.state sys.regions.staged sys.disk prog
        sys'.state sys'.regions.staged sys'.disk sys'.regions.bounce next ∧
      sys'.regions.callerData = sys.regions.callerData := by
  have hun : prog.stage.unlinked = false := by
    rcases hstage with hstage | hstage <;> rw [hstage] <;> rfl
  have hframe : ∀ s : WriteState, SameFrame s (id s) := fun _ => ⟨rfl, rfl, rfl, rfl, rfl, rfl⟩
  by_cases hc : left
  · rw [if_pos hc] at hsys
    obtain ⟨hexec, hdisk⟩ := move_some hframe hsys
    obtain ⟨hr, -, hd⟩ := execOne_zeroRange hexec
    rw [move_state hsys, hr, hdisk]
    refine ⟨h.fills hlt hst hfill hlen (fun k hk => ?_) hd ⟨rfl, rfl,
      rfl⟩ rfl hun hvisible hslot hcur hnext, rfl⟩
    rw [if_neg (hout k hk)]
  · rw [if_neg hc] at hsys
    rw [move_none hsys]
    obtain rfl := hleft hc
    have hscene : sceneOf inflate under sys.state sys.regions.staged sys.disk sys.regions.bounce
        sys.regions.callerData next = sceneOf inflate under sys.state sys.regions.staged sys.disk
        sys.regions.bounce sys.regions.callerData prog := by
      simp only [sceneOf, l1Idx, l2Idx, inOff, hslot, hcur]
    refine ⟨h.next_stage hst ⟨rfl, rfl, rfl⟩ rfl hun hvisible ?_, rfl⟩
    show StageOk (sceneOf inflate under sys.state sys.regions.staged sys.disk sys.regions.bounce
      sys.regions.callerData next) held next
    rw [hscene]
    exact hnext _ rfl hfill

/-- Every move keeps the image, up to the part of the request that becomes visible. -/
theorem WriteInv.moved (hcluster : sys.regions.clusterSize = sys.state.geometry.clusterSize)
    (hclear : sys.state.pendingZeroClearAll = sys.state) (hlt : prog.consumed < prog.len)
    (hmove : sys.WriteMoves prog step held update rb next close)
    (hsys : sys.move step update rb = some sys') :
    Moved inflate under fixed sys.regions.callerData sys.state sys.regions.staged sys.disk prog
        sys'.state sys'.regions.staged sys'.disk sys'.regions.bounce next ∧
      sys'.regions.callerData = sys.regions.callerData := by
  have hok := h
  unfold WriteInv at hok
  obtain ⟨held0, hst, hstageOk⟩ := hok.store
  have hgeo := hok.keep.geo
  have hframe := hmove.frame
  have hstate := move_state hsys
  cases hmove with
  | hit hstage hslot =>
    rw [move_none hsys]
    simp only [StageOk, hstage] at hstageOk
    exact ⟨hok.hit hst hstage hstageOk ⟨rfl, rfl, rfl⟩ rfl, rfl⟩
  | reuse hstage hslot hclean =>
    rw [move_none hsys]
    simp only [StageOk, hstage] at hstageOk
    refine ⟨hok.next_stage hst ⟨rfl, rfl, rfl⟩ rfl (by rw [hstage]; rfl) ?_ hstageOk, rfl⟩
    simp [visible, hstage]
  | evict hstage hslot hdirty =>
    obtain ⟨hexec, hdisk⟩ := move_some hframe hsys
    obtain ⟨-, hr, -, hd⟩ := execOne_writeback hexec
    rw [hstate, hr, hdisk]
    have hv := WriteState.pickVictim_lt hok.keep.slots
    exact ⟨hok.evict hstage hv hdirty.1 hdirty.2 ⟨rfl, rfl, rfl⟩ rfl rfl hd, rfl⟩
  | freshTable hstage hraw halloc =>
    rw [move_none hsys]
    refine ⟨hok.allocates halloc rfl (by rw [hstage]; rfl) (fun held hh => ?_) ?_ fun hsole => ?_,
      rfl⟩
    · simpa only [StageOk, hstage] using hh
    · simp [visible, hstage]
    · refine ⟨rfl, hsole, ?_⟩
      show hostOf (readStagedL1Entry sys.regions.staged (prog.l1Idx sys.state.geometry)) = 0
      rw [hraw]
      rfl
  | copyTable hstage hraw hl1 halloc =>
    rw [move_none hsys]
    refine ⟨hok.allocates halloc rfl (by rw [hstage]; rfl) (fun held hh => ?_) ?_ fun hsole => ?_,
      rfl⟩
    · simpa only [StageOk, hstage] using hh
    · simp [visible, hstage]
    · cases validateL1_ok hgeo hl1 with
      | shared hne hhost hcow => exact ⟨rfl, hsole, rfl, hne⟩
  | copyData hstage hl2 halloc =>
    rw [move_none hsys]
    have hentry := hok.entry_eq (by rw [hstage]; rfl) hclear
    rw [hentry] at hl2
    refine ⟨hok.allocates halloc rfl (by rw [hstage]; rfl) (fun held hh => ?_) ?_ fun hsole => ?_,
      rfl⟩
    · simpa only [StageOk, hstage] using hh
    · simp [visible, hstage]
    · cases classify_ok hgeo hl2 with
      | shared hplain hne hhost hcow => exact ⟨hsole, hplain, rfl, hne, rfl, rfl⟩
  | freshData hstage hl2 hbacking halloc =>
    rw [move_none hsys]
    have hentry := hok.entry_eq (by rw [hstage]; rfl) hclear
    rw [hentry] at hl2
    refine ⟨hok.allocates halloc rfl (by rw [hstage]; rfl) (fun held hh => ?_) ?_ fun hsole => ?_,
      rfl⟩
    · simpa only [StageOk, hstage] using hh
    · simp [visible, hstage]
    · have hverdict := classify_ok hgeo hl2
      obtain ⟨hplain, hhost⟩ := hverdict.unmapped
      exact ⟨hsole, hplain, .inl ⟨hhost, rfl⟩, hok.blank_of_verdict hverdict hbacking,
        fun k hk => by omega⟩
  | load hstage hraw hl1 =>
    obtain ⟨hexec, hdisk⟩ := move_some hframe hsys
    obtain ⟨-, -, hdevs, hr⟩ := execOne_load hexec
    obtain rfl : held0 = fun _ => 0 := by simpa only [StageOk, hstage] using hstageOk
    rw [hstate, hr, hdisk, hdevs]
    cases validateL1_ok hgeo hl1 with
    | owned hne hhost hcount =>
      refine ⟨hok.assign (fun _ => 0) hlt (by rw [hstage]; rfl) hst ⟨rfl, rfl, rfl⟩ rfl
        ⟨hne, hhost, hcount⟩ (fun _ k _ => rfl) (fun j hj => ?_) (fun c => ?_) rfl (.inr rfl) ?_
        fun sc _ _ => rfl, rfl⟩
      · rw [be_drop, diskTab, if_neg hne]
        rfl
      · rw [tableRef_eq_oneRef hne]
      · simp [visible, hstage]
  | zeroTable hstage =>
    obtain ⟨hexec, hdisk⟩ := move_some hframe hsys
    obtain ⟨hdevs, hr⟩ := execOne_zeroRegion hcluster.symm hexec
    simp only [StageOk, hstage] at hstageOk
    obtain ⟨rfl, hsole, hl1⟩ := hstageOk
    have hl1' : hostOf (readStagedL1Entry sys.regions.staged (prog.l1Idx sys.state.geometry)) = 0 :=
      hl1
    rw [hstate, hr, hdisk, hdevs]
    refine ⟨hok.assign (fun _ => 0) hlt (by rw [hstage]; rfl) hst ⟨rfl, rfl, rfl⟩ rfl hsole
      (fun hd => by cases hd) (fun j hj => ?_) (fun c => ?_) rfl (.inl rfl) ?_
      fun sc _ hslot => ⟨rfl, hslot⟩, rfl⟩
    · rw [hl1', diskTab, if_pos rfl]
      exact be_zeros _ _
    · rw [hl1', tableRef_zero, zero_add]
      rfl
    · simp [visible, hstage]
  | loadOld hstage =>
    obtain ⟨hexec, hdisk⟩ := move_some hframe hsys
    obtain ⟨-, -, hdevs, hr⟩ := execOne_load hexec
    simp only [StageOk, hstage] at hstageOk
    obtain ⟨rfl, hsole, hl1, hne⟩ := hstageOk
    have hl1' : hostOf (readStagedL1Entry sys.regions.staged (prog.l1Idx sys.state.geometry))
        = prog.cowSrc := hl1
    rw [hstate, hr, hdisk, hdevs]
    refine ⟨hok.assign (oneRef sys.state.geometry prog.cowSrc) hlt (by rw [hstage]; rfl) hst
      ⟨rfl, rfl, rfl⟩ rfl hsole (fun hd => by cases hd) (fun j hj => ?_) (fun c =>
        ?_) rfl (.inl rfl)
      ?_ fun sc hgeo' hslot => ⟨by rw [hgeo'], hslot⟩, rfl⟩
    · rw [hl1', be_drop, diskTab, if_neg hne]
      rfl
    · rw [hl1', tableRef_eq_oneRef hne, add_comm]
      rfl
    · simp [visible, hstage]
  | installTable hstage =>
    obtain ⟨hexec, hdisk⟩ := move_some hframe hsys
    obtain ⟨hdevs, -, hr⟩ := execOne_patchL1 hexec
    simp only [StageOk, hstage] at hstageOk
    obtain ⟨rfl, hslot⟩ := hstageOk
    rw [hstate, hr, hdisk, hdevs]
    refine ⟨hok.install (by rw [hstage]; rfl) hst hslot
      (sameTables_update rfl rfl rfl rfl rfl rfl) ⟨rfl, rfl, rfl⟩
      (update_dirty rfl rfl) ?_ fun sc _ => rfl, rfl⟩
    simp [visible, hstage]
  | repoint hstage =>
    obtain ⟨hexec, hdisk⟩ := move_some hframe hsys
    obtain ⟨hdevs, -, hr⟩ := execOne_patchL1 hexec
    simp only [StageOk, hstage] at hstageOk
    obtain ⟨rfl, hslot⟩ := hstageOk
    rw [hstate, hr, hdisk, hdevs]
    refine ⟨hok.install (by rw [hstage]; rfl) hst hslot (sameTables_of_slots rfl rfl rfl)
      ⟨rfl, rfl, rfl⟩ (fun _ => rfl) ?_ fun sc hgeo' => ?_, rfl⟩
    · simp [visible, hstage]
    · show oneRef _ _ = oneRef _ _
      rw [hgeo']
      rfl
  | dropTable hstage hdec | dropData hstage hdec =>
    rw [move_none hsys]
    refine ⟨hok.drops hdec rfl (by rw [hstage]; rfl) (fun held hh => ?_) ?_ rfl, rfl⟩
    · simp only [StageOk, hstage] at hh
      exact hh
    · simp [visible, hstage, advance]
  | owned hstage hl2 =>
    obtain ⟨hexec, hdisk⟩ := move_some hframe hsys
    obtain ⟨hr, -, hd⟩ := execOne_body hexec
    obtain rfl : held0 = fun _ => 0 := by simpa only [StageOk, hstage] using hstageOk
    rw [hok.entry_eq (by rw [hstage]; rfl) hclear] at hl2
    rw [hstate, hr, hdisk, hd]
    cases classify_ok hgeo hl2 with
    | owned hplain hzero hne hhost hcount =>
      refine ⟨hok.inPlace hlt hst ⟨hne, hhost, hcount⟩ hplain hzero rfl (fun k => ?_) rfl
        ⟨rfl, rfl, rfl⟩ rfl (by rw [hstage]; rfl) ?_ ?_ fun sc => rfl, rfl⟩
      · unfold newByte
        rw [Nat.add_sub_cancel_left]
        rfl
      · simp [visible, hstage]
      · simp [visible, advance]
  | ownedZero hstage hl2 =>
    rw [move_none hsys]
    rw [hok.entry_eq (by rw [hstage]; rfl) hclear] at hl2
    obtain rfl : held0 = fun _ => 0 := by simpa only [StageOk, hstage] using hstageOk
    refine ⟨hok.next_stage hst ⟨rfl, rfl, rfl⟩ rfl (by rw [hstage]; rfl) ?_ ?_, rfl⟩
    · simp [visible, hstage]
    · cases classify_ok hgeo hl2 with
      | ownedZero hplain hzero hne hhost hcount =>
        refine ⟨⟨hne, hhost, hcount⟩, hplain, .inr ⟨rfl, hzero, rfl⟩, fun k hk _ _ => ?_,
          fun k hk => by omega⟩
        rw [sceneOf_old hgeo hk]
        exact entryByte_zero hplain hzero
  | head hstage =>
    simp only [StageOk, hstage] at hstageOk
    have hin := prog.inOff_lt hgeo
    refine h.zeroes hlt hst hstageOk (.inl hstage) (by omega) (fun hc => by omega) (fun k hk => ?_)
      hsys rfl rfl ?_ fun sc hgeo' hfill => ?_
    · unfold inWindow
      omega
    · simp [visible, hstage]
    · show Filling sc _ _ _
      rw [hgeo', ← zero_add (inOff _ _)]
      exact hfill.at_stage _
  | body hstage =>
    obtain ⟨hexec, hdisk⟩ := move_some hframe hsys
    obtain ⟨hr, -, hd⟩ := execOne_body hexec
    simp only [StageOk, hstage] at hstageOk
    rw [hstate, hr, hdisk]
    refine ⟨hok.fills hlt hst hstageOk (prog.window_le hgeo) (fun k hk => ?_) hd ⟨rfl, rfl, rfl⟩ rfl
      (by rw [hstage]; rfl) ?_ rfl rfl fun sc hgeo' hfill => ?_, rfl⟩
    · rw [if_pos]
      · unfold newByte
        show _ = prog.data.byteAt _ (_ + (prog.inOff sys.state.geometry + k - _))
        rw [Nat.add_sub_cancel_left]
        rfl
      · unfold inWindow
        show prog.inOff sys.state.geometry ≤ prog.inOff sys.state.geometry + k ∧
          prog.inOff sys.state.geometry + k < _
        omega
    · simp [visible, hstage]
    · show Filling sc _ _ _
      rw [hgeo']
      exact hfill.at_stage _
  | tail hstage =>
    simp only [StageOk, hstage] at hstageOk
    have hend := prog.window_le hgeo
    refine h.zeroes hlt hst hstageOk (.inr hstage) ?_ (fun hc => by omega) (fun k hk => ?_)
      hsys rfl rfl ?_ fun sc hgeo' hfill => ?_
    · show prog.inOff sys.state.geometry + prog.winLen sys.state.geometry + _ ≤ _
      omega
    · unfold inWindow
      show ¬ (_ ∧ prog.inOff sys.state.geometry + prog.winLen sys.state.geometry + k < _)
      omega
    · simp [visible, hstage]
    · have hlen : prog.inOff sys.state.geometry + prog.winLen sys.state.geometry
          + (sys.state.geometry.clusterSize
            - (prog.inOff sys.state.geometry + prog.winLen sys.state.geometry))
          = sys.state.geometry.clusterSize := by omega
      show Filling sc _ _ _
      rw [hgeo', ← hlen]
      exact hfill.at_stage _
  | installData hstage =>
    obtain ⟨hexec, hdisk⟩ := move_some hframe hsys
    obtain ⟨hdevs, -, hr⟩ := execOne_patchL2 hexec
    simp only [StageOk, hstage] at hstageOk
    rw [hstate, hr, hdisk, hdevs]
    show Moved _ _ _ _ _ _ _ _ _ (StagedRegions.withWindow _ (splice _
      (prog.slot * sys.regions.clusterSize + _) _ _)) _ _ _ ∧ _
    rw [hcluster]
    refine ⟨hok.publish (fun _ => 0) hlt (by rw [hstage]; rfl) hst hstageOk.sole (fun k hk hsize =>
      ?_) (fun c => ?_) ⟨rfl, rfl, rfl⟩ rfl (by rw [hstage]; rfl) ?_ ?_ fun sc _ => rfl, rfl⟩
    · refine (hstageOk.filled k hk).trans ?_
      by_cases hwin : prog.inWindow sys.state.geometry k
      · exact (if_pos hwin).trans (if_pos hwin).symm
      · refine (if_neg hwin).trans (Eq.trans ?_ (if_neg hwin).symm)
        exact (hstageOk.blank k hk hwin hsize).symm
    · refine Eq.trans ?_ (congrArg (held0 c + ·) (entryRefs_plain hstageOk.plain).symm)
      rcases hstageOk.entry with ⟨hhost, rfl⟩ | ⟨hhost, -, rfl⟩
      · rw [hhost, tableRef_zero, zero_add]
        rfl
      · rw [hhost, tableRef_eq_oneRef hstageOk.sole.ne]
    · simp [visible, hstage]
    · simp [visible, advance]
  | copyNothing hstage hfull =>
    rw [move_none hsys]
    simp only [StageOk, hstage] at hstageOk
    refine ⟨hok.next_stage hst ⟨rfl, rfl, rfl⟩ rfl (by rw [hstage]; rfl) ?_ ?_, rfl⟩
    · simp [visible, hstage]
    · refine ⟨hstageOk.at_stage _, fun k hk hwin => absurd ?_ hwin⟩
      have hk' : k < sys.state.geometry.clusterSize := hk
      show prog.inOff sys.state.geometry ≤ k ∧ k < prog.inOff sys.state.geometry
        + prog.winLen sys.state.geometry
      omega
  | copyZero hstage hpart hzero =>
    obtain ⟨hexec, hdisk⟩ := move_some hframe hsys
    obtain ⟨hr, -, hd⟩ := execOne_zeroRange hexec
    simp only [StageOk, hstage] at hstageOk
    rw [hstate, hr, hdisk, hd]
    refine ⟨hok.copies 0 hlt hst hstageOk (zero_add _).le rfl ⟨rfl, rfl, rfl⟩ rfl
      (by rw [hstage]; rfl) ?_ rfl rfl ⟨hstageOk.on_disk _ _, copied_of_cluster fun k hk => ?_⟩,
      rfl⟩
    · simp [visible, hstage]
    · exact ((hstageOk.old_eq hgeo hk).trans (if_pos hzero)).symm
  | copyRead hstage hpart hzero =>
    obtain ⟨hexec, hdisk⟩ := move_some hframe hsys
    obtain ⟨hdevs, hr⟩ := execOne_readBounce hexec
    simp only [StageOk, hstage] at hstageOk
    rw [hstate, hr, hdisk, hdevs]
    refine ⟨hok.next_stage hst ⟨rfl, rfl, rfl⟩ rfl (by rw [hstage]; rfl) ?_ ?_, rfl⟩
    · simp [visible, hstage]
    · refine ⟨⟨hstageOk.sole, hstageOk.plain, hstageOk.source, hstageOk.source_ne, hstageOk.zero,
        hstageOk.held_eq⟩, hzero, fun k hk => ?_⟩
      have hk' : k < sys.state.geometry.clusterSize := hk
      show (splice _ 0 _ _) k = _
      rw [splice_mem (Nat.zero_le _) (by omega)]
      rfl
  | copyWrite hstage =>
    obtain ⟨hexec, hdisk⟩ := move_some hframe hsys
    obtain ⟨hr, -, hd⟩ := execOne_writeBounce hexec
    simp only [StageOk, hstage] at hstageOk
    obtain ⟨hcopy, hzero, hbounce⟩ := hstageOk
    rw [hstate, hr, hdisk, hd]
    refine ⟨hok.copies 0 hlt hst hcopy (zero_add _).le rfl ⟨rfl, rfl, rfl⟩ rfl
      (by rw [hstage]; rfl) ?_ rfl rfl ⟨hcopy.on_disk _ _, copied_of_cluster fun k hk => ?_⟩, rfl⟩
    · simp [visible, hstage]
    · refine (hbounce k hk).trans (Eq.symm ((hcopy.old_eq hgeo hk).trans ?_))
      rw [hzero]
      rfl
  | copyBody hstage =>
    obtain ⟨hexec, hdisk⟩ := move_some hframe hsys
    obtain ⟨hr, -, hd⟩ := execOne_body hexec
    simp only [StageOk, hstage] at hstageOk
    obtain ⟨hcopy, hcopied⟩ := hstageOk
    rw [hstate, hr, hdisk, hd]
    refine ⟨hok.copies (prog.inOff sys.state.geometry) hlt hst hcopy (prog.window_le hgeo) rfl
      ⟨rfl, rfl, rfl⟩ rfl (by rw [hstage]; rfl) ?_ rfl rfl
      ⟨hcopy.on_disk _ _, hcopied.body (fun k => ?_) rfl⟩, rfl⟩
    · simp [visible, hstage]
    · show _ = prog.data.byteAt _ (prog.consumed
        + (prog.inOff sys.state.geometry + k - prog.inOff sys.state.geometry))
      rw [Nat.add_sub_cancel_left]
      rfl
  | copyInstall hstage =>
    obtain ⟨hexec, hdisk⟩ := move_some hframe hsys
    obtain ⟨hdevs, -, hr⟩ := execOne_patchL2 hexec
    simp only [StageOk, hstage] at hstageOk
    obtain ⟨hcopy, hcopied, hbodied⟩ := hstageOk
    rw [hstate, hr, hdisk, hdevs]
    show Moved _ _ _ _ _ _ _ _ _ (StagedRegions.withWindow _ (splice _
      (prog.slot * sys.regions.clusterSize + _) _ _)) _ _ _ ∧ _
    rw [hcluster]
    refine ⟨hok.publish (oneRef sys.state.geometry prog.cowSrc) hlt (by rw [hstage]; rfl)
      hst hcopy.sole
      (fun k hk _ => ?_) (fun c => ?_) ⟨rfl, rfl, rfl⟩ rfl (by rw [hstage]; rfl) ?_ ?_
      fun sc hgeo' => ?_, rfl⟩
    · by_cases hwin : prog.inWindow sys.state.geometry k
      · exact (hbodied k hwin).trans (if_pos hwin).symm
      · exact (hcopied k hk hwin).trans (if_neg hwin).symm
    · refine Eq.trans ?_ (congrArg (held0 c + ·) (entryRefs_plain hcopy.plain).symm)
      rw [hcopy.source, tableRef_eq_oneRef hcopy.source_ne, hcopy.held_eq, add_comm]
      rfl
    · simp [visible, hstage]
    · simp [visible, winLen, inOff, cur]
    · show oneRef _ _ = oneRef _ _
      rw [hgeo']

omit h

/-! ## The clusters a write touches -/

theorem Store.sole_unfixed {i j host : Nat} {held : Nat → Nat} {st : WriteState}
    {sg : StagedRegions}
    {disk : ByteMap} (hst : Store fixed held st sg disk)
    (hsole : SoleHost st.geometry sg.refblocks host)
    (hi : i < st.geometry.l1Size) (hj : j < st.geometry.entriesPerL2)
    (hunseen : held (host / st.geometry.clusterSize) ≠ 0 ∨
      effTab st sg disk i j &&& oflagCompressed = 0 ∧ effTab st sg disk i j &&& qcowOflagZero ≠ 0 ∧
        hostOf (effTab st sg disk i j) = host) : fixed (host / st.geometry.clusterSize) = 0 := by
  rcases hunseen with hheld | ⟨hplain, -, hhost⟩
  · have hc := hst.ledger.count _ hsole.count.covered
    rw [hsole.count.count] at hc
    omega
  · exact (hst.entry_alone hsole hi hj hplain hhost).1

include h in
/-- Every range a write puts on the disk lies in one cluster, which nothing outside the active L1
refers to. -/
theorem WriteInv.target (hclear : sys.state.pendingZeroClearAll = sys.state)
    (hlt : prog.consumed < prog.len)
    (hmove : sys.WriteMoves prog step held update rb next close) {s : Step} (hs : step = some s) :
    s.device = sys.state.config.device ∧ ∀ off len, s.target = some (off, len) →
      ∃ H, fixed H = 0 ∧ ∀ b, off ≤ b → b < off + len → b / sys.state.geometry.clusterSize = H := by
  have hok := h
  obtain ⟨held0, hst, hstageOk⟩ := hok.store
  have hgeo := hok.keep.geo
  have hidx := hok.l1Idx_lt hlt
  have hj : prog.l2Idx sys.state.geometry < sys.state.geometry.entriesPerL2 := hgeo.entry_lt _
  have hend := prog.window_le hgeo
  have hinside : ∀ {host : Nat}, HostOk sys.state.geometry host →
      fixed (host / sys.state.geometry.clusterSize) = 0 → ∀ {off len : Nat}, host ≤ off →
      off + len ≤ host + sys.state.geometry.clusterSize →
      ∃ H, fixed H = 0 ∧ ∀ b, off ≤ b → b < off + len → b / sys.state.geometry.clusterSize = H := by
    intro host hhost hfixed off len hlo hhi
    refine ⟨_, hfixed, fun b hb hb' => ?_⟩
    exact div_of_mem hgeo.size_pos hhost.aligned (by omega)
  have hdata : ∀ {upTo : Nat}, Filling (sceneOf inflate under sys.state sys.regions.staged sys.disk
      sys.regions.bounce sys.regions.callerData prog) held0 prog upTo →
      fixed (prog.dataHost / sys.state.geometry.clusterSize) = 0 := by
    intro upTo hfill
    exact hst.sole_unfixed hfill.sole hidx hj hfill.unseen
  have hcopied : Copying (sceneOf inflate under sys.state sys.regions.staged sys.disk
      sys.regions.bounce sys.regions.callerData prog) held0 prog →
      fixed (prog.dataHost / sys.state.geometry.clusterSize) = 0 := by
    intro hcopy
    refine hst.sole_unfixed hcopy.sole hidx hj (.inl ?_)
    rw [hcopy.held_eq]
    show oneRef sys.state.geometry prog.dataHost _ ≠ 0
    rw [oneRef_self]
    decide
  have hbody : ∀ {host : Nat}, HostOk sys.state.geometry host →
      fixed (host / sys.state.geometry.clusterSize) = 0 → s = bodyAt sys.state prog host →
      s.device = sys.state.config.device ∧ ∀ off len, s.target = some (off, len) →
        ∃ H, fixed H = 0 ∧ ∀ b, off ≤ b → b < off + len →
        b / sys.state.geometry.clusterSize = H := by
    rintro host hhost hfixed rfl
    refine ⟨by unfold bodyAt bodyStep; cases prog.data <;> rfl, fun off len htarget => ?_⟩
    have htarget' : (bodyAt sys.state prog host).target
        = some (host + prog.inOff sys.state.geometry, prog.winLen sys.state.geometry) := by
      unfold bodyAt bodyStep
      cases prog.data <;> rfl
    rw [htarget'] at htarget
    cases htarget
    exact hinside hhost hfixed (by omega) (by omega)
  cases hmove with
  | evict hstage hslot hdirty =>
    cases hs
    refine ⟨rfl, fun off len htarget => ?_⟩
    cases htarget
    have hv := WriteState.pickVictim_lt hok.keep.slots
    exact hinside (hst.slot _ hv hdirty.1).2.ok (hst.slot_alone hv hdirty.1).1 le_rfl le_rfl
  | owned hstage hl2 =>
    cases hs
    rw [hok.entry_eq (by rw [hstage]; rfl) hclear] at hl2
    cases classify_ok hgeo hl2 with
    | owned hplain hzero hne hhost hcount =>
      exact hbody hhost (hst.entry_alone ⟨hne, hhost, hcount⟩ hidx hj hplain rfl).1 rfl
  | head hstage =>
    simp only [StageOk, hstage] at hstageOk
    split at hs <;> cases hs
    refine ⟨rfl, fun off len htarget => ?_⟩
    cases htarget
    have hfit : prog.dataHost + prog.inOff sys.state.geometry
        ≤ prog.dataHost + sys.state.geometry.clusterSize := by omega
    exact hinside hstageOk.sole.ok (hdata hstageOk) le_rfl hfit
  | body hstage =>
    simp only [StageOk, hstage] at hstageOk
    cases hs
    exact hbody hstageOk.sole.ok (hdata hstageOk) rfl
  | tail hstage =>
    simp only [StageOk, hstage] at hstageOk
    split at hs <;> cases hs
    refine ⟨rfl, fun off len htarget => ?_⟩
    cases htarget
    have hlo : prog.dataHost
        ≤ prog.dataHost + (prog.inOff sys.state.geometry +
          prog.winLen sys.state.geometry) := by omega
    have hfit : prog.dataHost + (prog.inOff sys.state.geometry + prog.winLen sys.state.geometry)
        + (sys.state.geometry.clusterSize - (prog.inOff sys.state.geometry +
          prog.winLen sys.state.geometry))
        ≤ prog.dataHost + sys.state.geometry.clusterSize := by omega
    exact hinside hstageOk.sole.ok (hdata hstageOk) hlo hfit
  | copyZero hstage hpart hzero =>
    simp only [StageOk, hstage] at hstageOk
    cases hs
    refine ⟨rfl, fun off len htarget => ?_⟩
    cases htarget
    exact hinside hstageOk.sole.ok (hcopied hstageOk) le_rfl le_rfl
  | copyWrite hstage =>
    simp only [StageOk, hstage] at hstageOk
    cases hs
    refine ⟨rfl, fun off len htarget => ?_⟩
    cases htarget
    exact hinside hstageOk.1.sole.ok (hcopied hstageOk.1) le_rfl le_rfl
  | copyBody hstage =>
    simp only [StageOk, hstage] at hstageOk
    cases hs
    exact hbody hstageOk.1.sole.ok (hcopied hstageOk.1) rfl
  | _ =>
    -- the other steps write to no device
    cases hs <;> exact ⟨rfl, fun off len htarget => by cases htarget⟩

end

end Instar.Write
