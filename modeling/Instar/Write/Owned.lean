import Instar.Write.Refinement

/-!
# Installed entries are owned

A write installs an entry with the copied flag only for a cluster with one reference.  Over a
consistent image that is still so when the request completes: what the request allocates later is
another cluster, and what it drops later is never one it has installed.  Where the refcounts are not
consistent it fails.
-/

namespace Instar.Write

open Instar.Qcow2 ByteMap

/-- Every entry a program installs has the copied flag and names a cluster with one reference. -/
def InstallsOwned (geo : Geometry) (rb : Buffer) (steps : List Step) : Prop :=
  ∀ s ∈ steps, s.kind = .patchEntryU64 → s.value = hostOf s.value ||| oflagCopied ∧
    hostOf s.value ≠ 0 ∧ CountIs geo rb (hostOf s.value) 1

/-- The L1 entries of an image and the entries of its tables that are not compressed. -/
inductive Sys.Entry (sys : Sys) : Nat → Prop where
  | table {i : Nat} (hi : i < sys.state.geometry.l1Size) :
    Entry sys (readStagedL1Entry sys.regions.staged i)
  | data {i j : Nat} (hi : i < sys.state.geometry.l1Size) (hj : j < sys.state.geometry.entriesPerL2)
      (hplain : sys.entry i j &&& oflagCompressed = 0) : Entry sys (sys.entry i j)

/-- Every cluster that an entry names has a reference. -/
def Sys.Referenced (sys : Sys) : Prop :=
  ∀ e, sys.Entry e → hostOf e ≠ 0 →
    ¬ CountIs sys.state.geometry sys.regions.staged.refblocks (hostOf e) 0

/-- The states that a write passes through from `sys` and `prog` on, one move at a time. -/
inductive Passes (sys : Sys) (prog : WriteProgress) : Sys → WriteProgress → Prop where
  | refl : Passes sys prog sys prog
  | move {s s' : Sys} {p held next : WriteProgress} {step : Option Step}
      {update : WriteState → WriteState} {rb : Buffer} {close : Bool} (hpass : Passes sys prog s p)
      (hact : writeActOf s.state s.regions.staged p = .move step held update rb next close)
      (hsys : s.move step update rb = some s') : Passes sys prog s' next

/-- An entry without the copied flag names the cluster. -/
def Sys.Lent (sys : Sys) (c : Nat) : Prop :=
  ∃ e, sys.Entry e ∧ e &&& oflagCopied = 0 ∧ hostOf e ≠ 0 ∧
    hostOf e / sys.state.geometry.clusterSize = c

/-- The stages between choosing a cluster to copy and dropping the reference to it. -/
def ClusterStage.copies : ClusterStage → Bool
  | .cowL2Load | .cowL2Repoint | .cowL2Decrement | .cowDataEnter | .cowDataCopy | .cowDataBody
  | .cowDataPatch | .cowDataDecrement => true
  | _ => false

/-- A cluster that the write has installed and will not drop. -/
structure Owned (sys : Sys) (prog : WriteProgress) (host : Nat) : Prop where
  sole : SoleHost sys.state.geometry sys.regions.staged.refblocks host
  unlent : ¬ sys.Lent (host / sys.state.geometry.clusterSize)
  apart : prog.stage.copies = true →
    prog.cowSrc / sys.state.geometry.clusterSize ≠ host / sys.state.geometry.clusterSize

section

variable {st : WriteState} {rb rb' : Buffer} {l1Raw l2Raw host : Nat}
  {prog held next : WriteProgress}
  {step : Option Step} {update : WriteState → WriteState} {close : Bool}

/-! ## Entries that are copied -/

theorem CountIs.read (hgeo : st.geometry.Wf) {n : Nat} (h : CountIs st.geometry rb host n) :
    readStagedRefcount st.geometry rb host = .ok n := by
  rw [readStagedRefcount_eq hgeo, if_pos h.covered, h.count]

/-- An entry whose cluster has one reference is copied only where the copied flag is clear. -/
theorem classify_unshared (hgeo : st.geometry.Wf) {entry old : Nat} {zeroPreimage : Bool}
    (h : classifyL2Entry st rb entry = .ok (.cowData old zeroPreimage))
    (hcount : CountIs st.geometry rb (hostOf entry) 1) : entry &&& oflagCopied = 0 := by
  have hread : readStagedRefcount st.geometry rb (entry &&& l2OffsetMask) = .ok 1 :=
    hcount.read hgeo
  by_contra hset
  unfold classifyL2Entry at h
  simp only [hread, hset, lt_irrefl, if_false] at h
  split_ifs at h <;> cases h

theorem validateL1_unshared (hgeo : st.geometry.Wf) {raw old : Nat}
    (h : validateL1Entry st rb raw = .ok (.cowL2 old))
    (hcount : CountIs st.geometry rb (hostOf raw) 1) : raw &&& oflagCopied = 0 := by
  have hread : readStagedRefcount st.geometry rb (raw &&& l1OffsetMask) = .ok 1 := hcount.read hgeo
  by_contra hset
  unfold validateL1Entry at h
  simp only [hread, hset, lt_irrefl, if_false] at h
  split_ifs at h
  cases h

/-! ## Single moves -/

/-- The stages after which an entry is installed. -/
def ClusterStage.installed : ClusterStage → Bool
  | .slotReady | .enter | .cowL2Decrement | .cowDataDecrement => true
  | _ => false

/-- The moves that install an entry. -/
theorem WriteMove.installs {s : Step}
    (h : WriteMove st rb l1Raw l2Raw prog step held update rb' next close)
    (hs : step = some s) (hkind : s.kind = .patchEntryU64) :
    rb' = rb ∧ next.stage.installed = true ∧
      (s = l1PatchStep st prog ∧ next.stage.onSlot = true ∧ next.slot = prog.slot ∧
        next.cur = prog.cur ∧ (prog.stage = .freshZeroed ∨ prog.stage = .cowL2Repoint) ∨
      s = l2PatchStep st prog ∧ update = (fun s => dirtySlot s prog.slot) ∧
        (prog.stage = .tailDone ∨ prog.stage = .cowDataPatch)) := by
  cases h with
  | installTable hstage =>
    cases hs
    exact ⟨rfl, rfl, .inl ⟨rfl, rfl, rfl, rfl, .inl hstage⟩⟩
  | repoint hstage =>
    cases hs
    exact ⟨rfl, rfl, .inl ⟨rfl, rfl, rfl, rfl, .inr hstage⟩⟩
  | installData hstage =>
    cases hs
    exact ⟨rfl, rfl, .inr ⟨rfl, rfl, .inl hstage⟩⟩
  | copyInstall hstage =>
    cases hs
    exact ⟨rfl, rfl, .inr ⟨rfl, rfl, .inr hstage⟩⟩
  | owned | body | copyBody =>
    cases hs
    unfold bodyAt bodyStep at hkind
    cases hdata : prog.data <;> simp [hdata] at hkind
  | head | tail =>
    split at hs <;> cases hs
    cases hkind
  | _ => cases hs <;> cases hkind

/-- A reference that is not dropped stays the only one. -/
theorem WriteMove.count_one (h : WriteMove st rb l1Raw l2Raw prog step held update rb' next close)
    (hfit : BlocksFit st rb) (hcount : CountIs st.geometry rb host 1)
    (hapart : prog.stage.copies = true →
      prog.cowSrc / st.geometry.clusterSize ≠ host / st.geometry.clusterSize) :
    CountIs st.geometry rb' host 1 := by
  refine ⟨?_, ?_⟩
  · unfold counted
    rw [h.blocks_len]
    exact hcount.covered
  cases h with
  | freshTable _ _ halloc | copyTable _ _ _ halloc | copyData _ _ halloc | freshData _ _ _ halloc =>
    obtain ⟨c, -, -, -, -, hrc, -⟩ := allocCall_ok hfit halloc
    rw [hrc]
    split
    · rfl
    · exact hcount.count
  | dropTable hstage hdec | dropData hstage hdec =>
    obtain ⟨-, -, -, -, hrc, -⟩ := decRefblocks_ok hfit.geo hdec
    rw [hrc, if_neg (hapart (by rw [hstage]; rfl)).symm]
    exact hcount.count
  | _ => exact hcount.count

end

section

variable {bits : Nat} {inflate : Inflate bits} {under : Nat → UInt8} {fixed host : Nat → Nat}
  {n voff len h : Nat} {data : DataSource} {sys₀ sys sys' : Sys} {prog held next : WriteProgress}
  {step : Option Step} {update : WriteState → WriteState} {rb : Buffer} {close : Bool}

/-- Where every table is linked, the L1 names the tables of the image. -/
theorem effHost_linked {st : WriteState} {sg : StagedRegions} {i : Nat}
    (hlinked : ∀ v < st.config.l2Slots, (st.l2Slots v).valid = true → Linked st sg v) :
    effHost st sg i = hostOf (readStagedL1Entry sg i) := by
  cases hfind : st.findSlot i with
  | none => exact effHost_none hfind
  | some v =>
    obtain ⟨hv, hvalid, rfl⟩ := WriteState.findSlot_some hfind
    rw [effHost_some hfind]
    exact (hlinked v hv hvalid).symm

/-- The reference that an entry of the image holds. -/
theorem Sys.Entry.pointer {e : Nat} (he : sys.Entry e) (hne : hostOf e ≠ 0)
    (hlinked : ∀ v < sys.state.config.l2Slots, (sys.state.l2Slots v).valid = true →
      Linked sys.state sys.regions.staged v) :
    ∃ p ∈ refPointers sys.state.geometry, refNames sys.state.geometry
        (effHost sys.state sys.regions.staged) (effTab sys.state sys.regions.staged sys.disk) p
        (hostOf e / sys.state.geometry.clusterSize) = 1 ∧
      e = if p.2 < sys.state.geometry.entriesPerL2 then sys.entry p.1 p.2
        else readStagedL1Entry sys.regions.staged p.1 := by
  cases he with
  | table hi =>
    refine ⟨_, table_mem hi, ?_, (if_neg (lt_irrefl _)).symm⟩
    rw [refNames_table, effHost_linked hlinked, tableRef_eq_oneRef hne, oneRef_self]
  | data hi hj hplain =>
    refine ⟨_, entry_mem hi hj, ?_, (if_pos hj).symm⟩
    rw [refNames_entry hj, ← Sys.entry, entryRefs_plain hplain, tableRef_eq_oneRef hne, oneRef_self]

/-- A cluster whose only reference is an entry with the copied flag. -/
theorem Owned.of_entry {e : Nat} (hok : WriteOk inflate under fixed sys.state sys.regions.staged
      sys.disk sys.regions.bounce sys.regions.callerData prog)
      (hstage : prog.stage.installed = true)
    (hsole : SoleHost sys.state.geometry sys.regions.staged.refblocks (hostOf e)) (he : sys.Entry e)
    (hset : e &&& oflagCopied ≠ 0) : Owned sys prog (hostOf e) := by
  have hlinked : ∀ v < sys.state.config.l2Slots, (sys.state.l2Slots v).valid = true →
      Linked sys.state sys.regions.staged v := by
    refine fun v hv hvalid => hok.linked_all ?_ hv hvalid
    revert hstage
    cases prog.stage <;> decide
  obtain ⟨held, hst, hheld⟩ := hok.store
  obtain ⟨p, hp, hname, hentry⟩ := he.pointer hsole.ne hlinked
  obtain ⟨-, hnone, halone⟩ := hst.ledger.alone hp hsole.count hname
  refine ⟨hsole, ?_, fun hcopies heq => ?_⟩
  · rintro ⟨e', he', hclear, hne, hc⟩
    obtain ⟨q, hq, hname', hentry'⟩ := he'.pointer hne hlinked
    obtain rfl : q = p := by
      by_contra hqp
      rw [hc, halone q hq hqp] at hname'
      cases hname'
    rw [hentry'.trans hentry.symm] at hclear
    exact hset hclear
  · -- the reference about to be dropped is held, so it is to another cluster
    have hdec : prog.stage = .cowL2Decrement ∨ prog.stage = .cowDataDecrement := by
      revert hstage hcopies
      cases prog.stage <;> decide
    have hdrop : held = oneRef sys.state.geometry prog.cowSrc := by
      rcases hdec with hdec | hdec <;> simp only [StageOk, hdec] at hheld <;> exact hheld
    rw [hdrop, ← heq, oneRef_self] at hnone
    cases hnone

variable (hrun : WriteRun inflate under fixed n host voff len data sys₀ sys prog)
  (hact : writeActOf sys.state sys.regions.staged prog = .move step held update rb next close)
  (hsys : sys.move step update rb = some sys')

include hrun hsys

/-- The L1 after a patch. -/
theorem WriteRun.patched_l1 (hmove : sys.WriteMoves prog step held update rb next close)
    (hstep : step = some (l1PatchStep sys.state prog)) : HostOk sys.state.geometry prog.l2Host ∧
    ∀ i, readStagedL1Entry sys'.regions.staged i = if i = prog.l1Idx sys.state.geometry
      then prog.l2Host ||| oflagCopied else readStagedL1Entry sys.regions.staged i := by
  have hinv := hrun.ok
  obtain ⟨held₀, hst, hstageOk⟩ := hinv.store
  have hslot : prog.stage.onSlot = true ∧
      (sys.state.l2Slots prog.slot).hostOffset = prog.l2Host := by
    rcases hmove.installs hstep rfl with ⟨-, -, ⟨-, -, -, -, hstage | hstage⟩ | ⟨hne, -⟩⟩
    · simp only [StageOk, hstage] at hstageOk
      exact ⟨by rw [hstage]; rfl, hstageOk.2⟩
    · simp only [StageOk, hstage] at hstageOk
      exact ⟨by rw [hstage]; rfl, hstageOk.2⟩
    · cases congrArg Step.region hne
  obtain ⟨hv, hvalid, -⟩ := hinv.keep.heldSlot hslot.1
  have hok : HostOk sys.state.geometry prog.l2Host := hslot.2 ▸ (hst.slot _ hv hvalid).2.ok
  subst hstep
  obtain ⟨hexec, -⟩ := Sys.move_some hmove.frame hsys
  obtain ⟨-, -, hr⟩ := execOne_patchL1 hexec
  rw [hr]
  exact ⟨hok, readStagedL1Entry_patch (or_copied_lt (by have := hok.small; omega))⟩

include hact

/-- Entries without the copied flag are old ones. -/
theorem WriteRun.entry_before {e : Nat} (he : sys'.Entry e) (hclear : e &&& oflagCopied = 0) :
    sys.Entry e := by
  obtain ⟨hlt, hmove⟩ := writeAct_move hact
  have hgeo := (Sys.move_setup hmove.frame hsys).geometry
  obtain ⟨hmoved, -⟩ := hrun.inv.moved hrun.start.cluster hrun.clear hlt hmove hsys
  cases he with
  | @table i hi =>
    rw [hgeo] at hi
    have hold : readStagedL1Entry sys'.regions.staged i =
        readStagedL1Entry sys.regions.staged i := by
      obtain ⟨-, -, hl1 | ⟨hstep, -⟩⟩ := hmove.staged hsys
      · unfold readStagedL1Entry
        rw [hl1]
      · rw [(hrun.patched_l1 hsys hmove hstep).2] at hclear ⊢
        split at hclear
        · exact absurd hclear (patched_copied _)
        · rename_i hne
          exact if_neg hne
    rw [hold]
    exact .table hi
  | @data i j hi hj hplain =>
    rw [hgeo] at hi hj
    have hold : sys'.entry i j = sys.entry i j := hmoved.image.lent i hi j hj hclear
    rw [hold] at hplain ⊢
    exact .data hi hj hplain

/-- What the write copies next is not a cluster it has installed. -/
theorem Owned.apart_next (howned : Owned sys prog h) (hcopies : next.stage.copies = true) :
    next.cowSrc / sys.state.geometry.clusterSize ≠ h / sys.state.geometry.clusterSize := by
  obtain ⟨hlt, hmove⟩ := writeAct_move hact
  have hinv := hrun.ok
  have hgeo := hinv.keep.geo
  have hidx := hinv.l1Idx_lt hlt
  have hcount : ∀ {old}, old / sys.state.geometry.clusterSize = h / sys.state.geometry.clusterSize →
      CountIs sys.state.geometry sys.regions.staged.refblocks old 1 := by
    intro old heq
    exact ⟨heq ▸ howned.sole.count.covered, heq ▸ howned.sole.count.count⟩
  cases hmove with
  | copyTable hstage hraw hl1 halloc =>
    have hverdict := validateL1_ok hgeo hl1
    intro heq
    have hclear := validateL1_unshared hgeo hl1
    cases hverdict with
    | shared hne hok hcow => exact howned.unlent ⟨_, .table hidx, hclear (hcount heq), hne, heq⟩
  | copyData hstage hl2 halloc =>
    rw [hinv.entry_eq (by rw [hstage]; rfl) hrun.clear] at hl2
    have hverdict := classify_ok hgeo hl2
    intro heq
    have hclear := classify_unshared hgeo hl2
    cases hverdict with
    | shared hplain hne hok hcow =>
      exact howned.unlent ⟨_, .data hidx (hgeo.entry_lt _) hplain, hclear (hcount heq), hne, heq⟩
  | loadOld hstage | repoint hstage | copyNothing hstage | copyZero hstage | copyRead hstage
  | copyWrite hstage | copyBody hstage | copyInstall hstage =>
    exact howned.apart (by rw [hstage]; rfl)
  | _ => cases hcopies

/-- A cluster that the write has installed stays its own. -/
theorem Owned.move (howned : Owned sys prog h) : Owned sys' next h := by
  obtain ⟨hlt, hmove⟩ := writeAct_move hact
  have hinv := hrun.ok
  obtain ⟨_, hst, -⟩ := hinv.store
  obtain ⟨-, hblocks, -⟩ := hmove.staged hsys
  have hgeo := (Sys.move_setup hmove.frame hsys).geometry
  refine ⟨?_, ?_, ?_⟩
  · rw [hgeo, hblocks]
    exact ⟨howned.sole.ne, howned.sole.ok, hmove.count_one hst.fit howned.sole.count howned.apart⟩
  · rintro ⟨e, he, hclear, hne, hc⟩
    rw [hgeo] at hc
    exact howned.unlent ⟨e, hrun.entry_before hact hsys he hclear, hclear, hne, hc⟩
  · rw [hgeo]
    exact howned.apart_next hrun hact hsys

/-- An entry that the write installs is its own. -/
theorem WriteRun.installs {s : Step} (hs : step = some s) (hkind : s.kind = .patchEntryU64) :
    s.value = hostOf s.value ||| oflagCopied ∧ Owned sys' next (hostOf s.value) := by
  obtain ⟨hlt, hmove⟩ := writeAct_move hact
  have hinv := hrun.ok
  have hinv' := (hrun.move hact hsys).ok
  obtain ⟨held₀, hst, hheld⟩ := hinv.store
  obtain ⟨_, hst', -⟩ := hinv'.store
  have hgeo := (Sys.move_setup hmove.frame hsys).geometry
  have hwf := hinv.keep.geo
  have hidx : prog.l1Idx sys.state.geometry < sys'.state.geometry.l1Size := hgeo ▸ hinv.l1Idx_lt hlt
  obtain ⟨rfl, hnext, ⟨rfl, hon, -, hcur, -⟩ | ⟨rfl, rfl, hstage⟩⟩ := hmove.installs hs hkind
  · obtain ⟨hok, hl1⟩ := hrun.patched_l1 hsys hmove hs
    have hhost : hostOf (prog.l2Host ||| oflagCopied) = prog.l2Host := hok.patched hwf
    refine ⟨congrArg (· ||| oflagCopied) hhost.symm, ?_⟩
    have hraw := hl1 (prog.l1Idx sys.state.geometry)
    rw [if_pos rfl] at hraw
    -- the slot of the new table is linked to the entry
    obtain ⟨hv, hvalid, hslot⟩ := hinv'.keep.heldSlot hon
    have hlink : Linked sys'.state sys'.regions.staged next.slot :=
      hinv'.linked_all (by revert hnext; cases next.stage <;> decide) hv hvalid
    unfold Linked at hlink
    rw [hslot, hgeo, WriteProgress.l1Idx, hcur] at hlink
    have hsole := (hst'.slot _ hv hvalid).2
    rw [← hlink] at hsole
    show Owned sys' next (hostOf (prog.l2Host ||| oflagCopied))
    rw [← hraw]
    exact .of_entry hinv' hnext hsole (.table hidx) (hraw ▸ patched_copied _)
  · have hsole : SoleHost sys.state.geometry sys.regions.staged.refblocks prog.dataHost := by
      rcases hstage with hstage | hstage <;> simp only [StageOk, hstage] at hheld
      · exact hheld.sole
      · exact hheld.1.sole
    have hon : prog.stage.onSlot = true := by
      rcases hstage with hstage | hstage <;> rw [hstage] <;> rfl
    have hhost : hostOf (prog.dataHost ||| oflagCopied) = prog.dataHost := hsole.ok.patched hwf
    refine ⟨congrArg (· ||| oflagCopied) hhost.symm, ?_⟩
    have hentry : sys'.entry (prog.l1Idx sys.state.geometry) (prog.l2Idx sys.state.geometry)
        = prog.dataHost ||| oflagCopied := by
      subst hs
      obtain ⟨hexec, -⟩ := Sys.move_some hmove.frame hsys
      obtain ⟨-, -, hr⟩ := execOne_patchL2 hexec
      have hsame : SameTables sys.state sys'.state := by
        rw [Sys.move_state hsys]
        exact sameTables_update rfl rfl rfl rfl rfl rfl
      rw [Sys.entry, hsame.tab_eq,
        effTab_some ((findSlot_iff hst.inj).mpr (hinv.keep.heldSlot hon)), hr, ← hrun.start.cluster]
      exact be_splice_ofBe (or_copied_lt (by have := hsole.ok.small; omega))
    show Owned sys' next (hostOf (prog.dataHost ||| oflagCopied))
    have hsole' : SoleHost sys'.state.geometry sys'.regions.staged.refblocks
        (hostOf (prog.dataHost ||| oflagCopied)) := by
      rw [hgeo, (hmove.staged hsys).2.1, hhost]
      exact hsole
    rw [← hentry] at hsole' ⊢
    have hjdx : prog.l2Idx sys.state.geometry < sys'.state.geometry.entriesPerL2 := by
      rw [hgeo]
      exact hwf.entry_lt _
    refine .of_entry hinv' hnext hsole' (.data hidx hjdx ?_) (hentry ▸ patched_copied _)
    rw [hentry]
    exact patched_plain hsole.ok.small

/-! ## Whole requests -/

omit hrun hact hsys

/-- In every state in which a write reads or allocates, all entries name clusters with
references. -/
theorem WriteRun.referenced
    (hrun : WriteRun inflate under fixed n host voff len data sys₀ sys prog)
    (hstage : prog.stage.unlinked = false) : sys.Referenced := by
  have hinv := hrun.ok
  intro e he hne hcount
  obtain ⟨_, hst, -⟩ := hinv.store
  obtain ⟨p, hp, hname, -⟩ :=
    he.pointer hne fun v hv hvalid => hinv.linked_all hstage hv hvalid
  have hledger := hst.ledger.count _ hcount.covered
  have hle : refNames sys.state.geometry (effHost sys.state sys.regions.staged)
        (effTab sys.state sys.regions.staged sys.disk) p (hostOf e / sys.state.geometry.clusterSize)
      ≤ refTotal sys.state.geometry (effHost sys.state sys.regions.staged)
        (effTab sys.state sys.regions.staged sys.disk)
        (hostOf e / sys.state.geometry.clusterSize) :=
    RefCount.le_total hp
  rw [hname] at hle
  rw [hcount.count] at hledger
  omega

/-- A write keeps its invariant in the states it passes through. -/
theorem Passes.writeRun (hpass : Passes sys₀ (.start voff len data) sys prog)
    (hstart : 0 < len →
      WriteRun inflate under fixed n host voff len data sys₀ sys₀ (.start voff len data))
    (hlt : prog.consumed < prog.len) :
    WriteRun inflate under fixed n host voff len data sys₀ sys prog := by
  induction hpass with
  | refl => exact hstart hlt
  | move _ hact hsys ih => exact (ih (writeAct_move hact).1).move hact hsys

/-- The entries that a write installs are owned when it completes. -/
theorem Settled.write_installs {m : Nat} {steps : List Step}
    (hset : Settled bits under fixed n host sys)
    (hvalid : validateStaged sys.state sys.regions.staged 1 = .ok ())
    (hgranted : admitWrite sys.state.geometry voff len data = .ok (some (.start voff len data)))
    (hdone : eager writeActOf m sys (.start voff len data) [] = .done (.ok ()) sys' steps) :
    InstallsOwned sys.state.geometry sys'.regions.staged.refblocks steps := by
  refine eager_done (I := fun s prog acc =>
      WriteRun (Inflate.blank bits) under fixed n host voff len data sys s prog ∧ ∀ x ∈ acc,
        x.kind = .patchEntryU64 → x.value = hostOf x.value ||| oflagCopied ∧
        Owned s prog (hostOf x.value))
    (J := fun r s acc => r = .ok () →
      InstallsOwned sys.state.geometry s.regions.staged.refblocks acc)
    ?_ ?_ ?_ ⟨hset.writeRun hvalid hgranted, fun _ hx => absurd hx List.not_mem_nil⟩ hdone rfl
  · rintro s s' prog held next step update rb close acc ⟨hrun, hacc⟩ hact hsys
    refine ⟨hrun.move hact hsys, fun x hx hkind => ?_⟩
    rcases List.mem_append.mp hx with hx | hx
    · obtain ⟨hvalue, howned⟩ := hacc x hx hkind
      exact ⟨hvalue, howned.move hrun hact hsys⟩
    · exact hrun.installs hact hsys (Option.mem_toList.mp hx) hkind
  · intro s prog e update rb acc _ _ hr
    cases hr
  · rintro s s' prog step acc ⟨hrun, hacc⟩ hact hsys - x hx hkind
    obtain ⟨rfl, -⟩ := writeAct_finish hact
    obtain rfl := Sys.move_none hsys
    obtain ⟨hvalue, hsole, -⟩ := hacc x (by simpa using hx) hkind
    rw [hrun.setup.geometry] at hsole
    exact ⟨hvalue, hsole.ne, hsole.count⟩

variable {header : Buffer} {hdr : QcowHeader} {cfg : StagingConfig} {cow : Bool} {st : WriteState}
  {regions : Regions} {devices : Devices} {capacity : Nat} {reqs : List Request}
  {replies : List Reply} {snapshots others : List (Nat × Nat)} {callerData : Buffer}

/-- The image with one snapshot, except that the data cluster has no references. -/
def staleDisk : ByteMap := fun i => if i = 1037 then 0 else sharedDisk i

/-- Its staged regions. -/
def staleRegions : Regions :=
  { sharedRegions with staged := { sharedRegions.staged with refblocks :=
    ⟨512, staleDisk.drop 1024⟩ } }

/-- Its devices. -/
def staleDevices : Devices :=
  let dev : Device := ⟨512, staleDisk, fun _ => true, fun _ => true, some true, []⟩
  ⟨dev, dev⟩

/-- The run has set the first L1 entry to cluster 6, which is not counted. -/
def Run.installsUncounted : Run → Bool
  | .done sys [⟨.ok (), steps⟩] => decide (patchStep .l1 0 (3072 ||| oflagCopied) .output ∈ steps ∧
      6 < counted sharedState.geometry sys.regions.staged.refblocks ∧
      rcAt sys.regions.staged.refblocks.bytes 6 = 0)
  | _ => false

end

end Instar.Write
