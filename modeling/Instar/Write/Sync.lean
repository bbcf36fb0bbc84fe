import Instar.Write.Written

/-!
# The staged metadata and its place on disk

The staged L1 and refblocks are copies of clusters on the disk that only a flush rewrites.
`Flushed` names those clusters, `Home` says that they belong to nothing else, and `Synced` that a
copy differs from its cluster only while its dirty bit is set.  Writes keep that: they change a copy
together with its bit, and no cluster that something outside the active L1 refers to.
-/

namespace Instar.Write

open Instar.Qcow2

/-! ## Clusters a run leaves alone -/

/-- A run that changes one device only, and there never a byte to be kept. -/
structure Devices.Spares (dev : TargetDevice) (keep : Nat → Prop) (devs devs' : Devices) :
    Prop where
  own : (devs.get dev).Spares keep (devs'.get dev)
  other : ∀ dev', dev' ≠ dev → devs'.get dev' = devs.get dev'

namespace Devices.Spares

variable {dev : TargetDevice} {keep keep' : Nat → Prop} {devs devs' devs'' : Devices}

theorem refl (dev : TargetDevice) (keep : Nat → Prop) (devs : Devices) :
    devs.Spares dev keep devs :=
  ⟨.refl keep _, fun _ _ => rfl⟩

variable (h : devs.Spares dev keep devs')

include h

theorem trans (h' : devs'.Spares dev keep devs'') : devs.Spares dev keep devs'' :=
  ⟨h.own.trans h'.own, fun dev' hne => (h'.other dev' hne).trans (h.other dev' hne)⟩

theorem mono (himp : ∀ b, keep' b → keep b) : devs.Spares dev keep' devs' :=
  ⟨h.own.mono himp, h.other⟩

theorem bytes {b : Nat} (hb : keep b) : devs'.disk dev b = devs.disk dev b := h.own.bytes hb

end Devices.Spares

/-- One step, when the bytes it writes are not to be kept. -/
theorem execOne_devices {r r' : Regions} {devs devs' : Devices} {step : Step} {dev : TargetDevice}
    {keep : Nat → Prop} (h : execOne r devs step = some (r', devs')) (hdev : step.device = dev)
    (hkeep : ∀ off len, step.target = some (off, len) →
      ∀ b, keep b → ¬ (off ≤ b ∧ b < off + len)) : devs.Spares dev keep devs' := by
  obtain ⟨d, hset, hspares⟩ := execOne_spares h hkeep
  rw [hdev] at hset hspares
  rw [hset]
  constructor
  · rw [Devices.get_set]
    exact hspares
  · intro dev' hne
    cases dev <;> cases dev' <;> first | rfl | exact absurd rfl hne

/-! ## What the staged copies stand for -/

/-- Where the staged refcount table says that refblock `i` lives. -/
def blockHost (sg : StagedRegions) (i : Nat) : Nat := hostOf (sg.refcountTable.be (i * 8) 8)

/-- The clusters that only a flush rewrites: those of the active L1 and of the `n` staged refblocks,
of which `host i` is the place of block `i`. -/
def Flushed (geo : Geometry) (n : Nat) (host : Nat → Nat) (c : Nat) : Prop :=
  (∃ k < geo.l1Size * 8, (geo.l1TableOffset + k) / geo.clusterSize = c) ∨
    ∃ i < n, host i ≠ 0 ∧ host i / geo.clusterSize = c

/-- Each of these clusters has one use, and something outside the active L1 refers to it. -/
structure Home (geo : Geometry) (fixed : Nat → Nat) (n : Nat) (host : Nat → Nat) : Prop where
  fixed_ne : ∀ c, Flushed geo n host c → fixed c ≠ 0
  aligned : ∀ i < n, host i % geo.clusterSize = 0
  inj : ∀ i < n, ∀ j < n, host i ≠ 0 → host j ≠ 0 →
    host i / geo.clusterSize = host j / geo.clusterSize → i = j
  apart : ∀ i < n, host i ≠ 0 → ∀ k < geo.l1Size * 8,
    (geo.l1TableOffset + k) / geo.clusterSize ≠ host i / geo.clusterSize

/-- A clean copy equals its cluster; a refblock without a cluster is all zeroes. -/
structure Synced (n : Nat) (host : Nat → Nat) (st : WriteState) (sg : StagedRegions)
    (disk : ByteMap) : Prop where
  count : sg.refblocks.len / st.geometry.clusterSize = n
  hosts : ∀ i < n, blockHost sg i = host i
  l1 : st.l1Dirty = false →
    ∀ k < st.geometry.l1Size * 8, sg.l1.bytes k = disk (st.geometry.l1TableOffset + k)
  blocks : ∀ i < n, st.refblockDirty i = false → ∀ k < st.geometry.clusterSize,
    sg.refblocks.bytes (i * st.geometry.clusterSize + k) = if host i = 0 then 0
    else disk (host i + k)
  sole : ∀ c, Flushed st.geometry n host c →
    c < counted st.geometry sg.refblocks ∧ rcAt sg.refblocks.bytes c = 1

section

variable {fixed host : Nat → Nat} {n : Nat} {st st' : WriteState} {sg sg' : StagedRegions}
  {disk disk' : ByteMap}

/-- The copies depend on the flushed clusters of the disk only. -/
theorem Synced.on_disk (h : Synced n host st sg disk) (hwf : st.geometry.Wf)
    (hhome : Home st.geometry fixed n host)
    (hdisk : ∀ b, Flushed st.geometry n host (b / st.geometry.clusterSize) → disk' b = disk b) :
    Synced n host st sg disk' := by
  refine ⟨h.count, h.hosts, fun hclean k hk => ?_, fun i hi hclean k hk => ?_, h.sole⟩
  · rw [hdisk _ (.inl ⟨k, hk, rfl⟩)]
    exact h.l1 hclean k hk
  · rw [h.blocks i hi hclean k hk]
    by_cases hhost : host i = 0
    · rw [if_pos hhost, if_pos hhost]
    · rw [if_neg hhost, if_neg hhost, hdisk]
      rw [div_of_aligned hwf.size_pos (hhome.aligned i hi) hk]
      exact .inr ⟨i, hi, hhost, rfl⟩

/-- Nor do they depend on the rest of the state. -/
theorem Synced.same_state (h : Synced n host st sg disk) (hgeo : st'.geometry = st.geometry)
    (hl1 : st'.l1Dirty = st.l1Dirty) (hblocks : st'.refblockDirty = st.refblockDirty) :
    Synced n host st' sg disk := by
  obtain ⟨hcount, hhosts, hl1', hblocks', hsole⟩ := h
  rw [← hgeo] at hcount hl1' hblocks' hsole
  exact ⟨hcount, hhosts, hl1 ▸ hl1', hblocks ▸ hblocks', hsole⟩

end

/-! ## Writes -/

section

variable {st : WriteState} {rb rb' : Buffer} {l1Raw l2Raw : Nat} {prog held next : WriteProgress}
  {step : Option Step} {update : WriteState → WriteState} {close : Bool}
  (h : WriteMove st rb l1Raw l2Raw prog step held update rb' next close)

include h

/-- The regions that the steps of a write store into. -/
theorem WriteMove.stores {s : Step} (hs : step = some s) (hstores : s.stores = true) :
    s.region = .bounce ∨ (∃ v, s.region = .l2Slot v) ∨
      s = l1PatchStep st prog ∧ ∀ s', (update s').l1Dirty = true := by
  cases h with
  | load | zeroTable | installData | loadOld | copyInstall =>
    cases hs
    exact .inr (.inl ⟨_, rfl⟩)
  | installTable | repoint =>
    cases hs
    exact .inr (.inr ⟨rfl, fun _ => rfl⟩)
  | copyRead =>
    cases hs
    exact .inl rfl
  | owned | body | copyBody =>
    cases hs
    unfold bodyAt bodyStep at hstores
    cases hdata : prog.data <;> simp [hdata, Step.stores] at hstores
  | head | tail =>
    split at hs <;> cases hs
    cases hstores
  | _ => cases hs <;> cases hstores

/-- A write marks the L1 where it changes it. -/
theorem WriteMove.l1Dirty : (∀ s, (update s).l1Dirty = s.l1Dirty) ∨
    ∀ s, (update s).l1Dirty = true := by
  cases h with
  | installTable | repoint => exact .inr fun _ => rfl
  | _ => exact .inl fun _ => rfl

omit h

/-- The refcount of `c` is changed, and the block it is in marked: `c` was free, or the write drops
the cluster it has copied. -/
structure CountChange (st : WriteState) (rb : Buffer) (prog : WriteProgress)
    (update : WriteState → WriteState) (rb' : Buffer) (c : Nat) : Prop where
  bytes : ∀ i, (i < 2 * c ∨ 2 * (c + 1) ≤ i) → rb'.bytes i = rb.bytes i
  dirty : ∀ s, (update s).refblockDirty
    = Function.update s.refblockDirty (c / st.geometry.entriesPerRefblock) true
  others : ∀ c', c' ≠ c → rcAt rb'.bytes c' = rcAt rb.bytes c'
  cause : rcAt rb.bytes c = 0 ∨ c = prog.cowSrc / st.geometry.clusterSize ∧
    (prog.stage = .cowL2Decrement ∨ prog.stage = .cowDataDecrement)

theorem countChange_alloc {host : Nat} {cursor : AllocCursor} (hfit : BlocksFit st rb)
    (h : allocCall st rb = (.ok host, rb', cursor)) :
    ∃ c, CountChange st rb prog (allocated st.geometry cursor host) rb' c := by
  obtain ⟨c, rfl, -, hfree, -, hrc, hbytes, -⟩ := allocCall_ok hfit h
  refine ⟨c, hbytes, fun s => ?_, fun c' hne => by rw [hrc, if_neg hne], .inl hfree⟩
  simp [allocated, allocUpdate, Nat.mul_div_cancel _ hfit.geo.size_pos]

theorem countChange_drop {rbIdx : Nat} (hfit : BlocksFit st rb)
    (h : decRefblocks st.geometry rb prog.cowSrc = .ok (rbIdx, rb'))
    (hstage : prog.stage = .cowL2Decrement ∨ prog.stage = .cowDataDecrement) :
    ∃ c, CountChange st rb prog (fun s => s.refblockDirtySet rbIdx) rb' c := by
  obtain ⟨-, rfl, -, -, hrc, hbytes⟩ := decRefblocks_ok hfit.geo h
  exact ⟨_, hbytes, fun s => rfl, fun c' hne => by rw [hrc, if_neg hne], .inr ⟨rfl, hstage⟩⟩

/-- A write changes at most one refcount at a time. -/
theorem WriteMove.counts (hfit : BlocksFit st rb)
    (h : WriteMove st rb l1Raw l2Raw prog step held update rb' next close) :
    (rb' = rb ∧ ∀ s, (update s).refblockDirty = s.refblockDirty) ∨
      ∃ c, CountChange st rb prog update rb' c := by
  cases h with
  | freshTable _ _ halloc | copyTable _ _ _ halloc | copyData _ _ halloc
  | freshData _ _ _ halloc => exact .inr (countChange_alloc hfit halloc)
  | dropTable hstage hdec => exact .inr (countChange_drop hfit hdec (.inl hstage))
  | dropData hstage hdec => exact .inr (countChange_drop hfit hdec (.inr hstage))
  | _ => exact .inl ⟨rfl, fun _ => rfl⟩

theorem CountChange.other_block {c i k : Nat} (h : CountChange st rb prog update rb' c)
    (hwf : st.geometry.Wf)
    (hi : i ≠ c / st.geometry.entriesPerRefblock) (hk : k < st.geometry.clusterSize) :
    rb'.bytes (i * st.geometry.clusterSize + k) = rb.bytes (i * st.geometry.clusterSize + k) := by
  -- the two bytes of the count are in block `c / entriesPerRefblock`
  have hper := hwf.perBlock
  have hc := Nat.div_add_mod c st.geometry.entriesPerRefblock
  have hr := Nat.mod_lt c hwf.perBlock_pos
  have hblock : 2 * c = c / st.geometry.entriesPerRefblock * st.geometry.clusterSize
      + 2 * (c % st.geometry.entriesPerRefblock) := by
    have hcs : st.geometry.clusterSize = 2 * st.geometry.entriesPerRefblock := by omega
    calc 2 * c = 2 * (st.geometry.entriesPerRefblock * (c / st.geometry.entriesPerRefblock)
            + c % st.geometry.entriesPerRefblock) := by rw [hc]
      _ = _ := by rw [hcs]; ring
  refine h.bytes _ ?_
  have hapart := slot_apart st.geometry.clusterSize hi
  omega

end

section

variable {bits : Nat} {inflate : Inflate bits} {under : Nat → UInt8} {fixed host : Nat → Nat}
  {n : Nat} {sys sys' : Sys} {prog held next : WriteProgress} {step : Option Step}
  {update : WriteState → WriteState} {rb : Buffer} {close : Bool}
  (h : WriteInv inflate under fixed sys prog)

/-- Only the window, the bounce buffer and a marked L1 are stored into. -/
theorem WriteMove.staged (hmove : sys.WriteMoves prog step held update rb next close)
    (hsys : sys.move step update rb = some sys') :
    sys'.regions.staged.refcountTable = sys.regions.staged.refcountTable ∧
      sys'.regions.staged.refblocks = rb ∧
      (sys'.regions.staged.l1 = sys.regions.staged.l1 ∨
        step = some (l1PatchStep sys.state prog) ∧ ∀ s, (update s).l1Dirty = true) := by
  rcases Sys.move_cases hsys with ⟨-, hregions, -⟩ | ⟨s, hs, hexec⟩
  · rw [hregions]
    exact ⟨rfl, rfl, .inl rfl⟩
  · rcases execOne_regions hexec with hr | ⟨hstores, bytes, hr⟩
    · rw [hr]
      exact ⟨rfl, rfl, .inl rfl⟩
    · rw [hr]
      rcases hmove.stores hs hstores with hregion | ⟨v, hregion⟩ | ⟨rfl, hdirty⟩
      · rw [hregion]
        exact ⟨rfl, rfl, .inl rfl⟩
      · rw [hregion]
        exact ⟨rfl, rfl, .inl rfl⟩
      · exact ⟨rfl, rfl, .inr ⟨hs, hdirty⟩⟩

include h

/-- A write leaves alone every cluster that something outside the active L1 refers to. -/
theorem WriteInv.spares (hclear : sys.state.pendingZeroClearAll = sys.state)
    (hlt : prog.consumed < prog.len)
    (hmove : sys.WriteMoves prog step held update rb next close)
    (hsys : sys.move step update rb = some sys') : sys.devices.Spares sys.state.config.device
      (fun b => fixed (b / sys.state.geometry.clusterSize) ≠ 0) sys'.devices := by
  rcases Sys.move_cases hsys with ⟨-, -, hdevs⟩ | ⟨s, hs, hexec⟩
  · rw [hdevs]
    exact .refl _ _ _
  · obtain ⟨hdev, htarget⟩ := h.target hclear hlt hmove hs
    refine execOne_devices hexec hdev fun off len hrange b hb hin => ?_
    obtain ⟨H, hH, hcluster⟩ := htarget off len hrange
    rw [hcluster b hin.1 hin.2] at hb
    exact hb hH

/-- A cluster to be dropped is not one that a flush rewrites: it has at least two references. -/
theorem WriteInv.drop_shared (hstage : prog.stage = .cowL2Decrement ∨
    prog.stage = .cowDataDecrement)
    (hcount : CountIs sys.state.geometry sys.regions.staged.refblocks prog.cowSrc 1) :
    fixed (prog.cowSrc / sys.state.geometry.clusterSize) = 0 := by
  obtain ⟨held0, hst, hstageOk⟩ := WriteOk.store h
  have hheld : held0 = oneRef sys.state.geometry prog.cowSrc := by
    rcases hstage with hstage | hstage <;> simp only [StageOk, hstage] at hstageOk <;>
      exact hstageOk
  have hc := hst.ledger.count _ hcount.covered
  rw [hcount.count, hheld, oneRef_self] at hc
  omega

/-- Writes keep the staged metadata in step with the disk. -/
theorem WriteInv.synced (hhome : Home sys.state.geometry fixed n host)
    (hsync : Synced n host sys.state sys.regions.staged sys.disk)
    (hclear : sys.state.pendingZeroClearAll = sys.state) (hlt : prog.consumed < prog.len)
    (hmove : sys.WriteMoves prog step held update rb next close)
    (hsys : sys.move step update rb = some sys') :
    Synced n host sys'.state sys'.regions.staged sys'.disk := by
  obtain ⟨held0, hst, -⟩ := WriteOk.store h
  have hwf := hst.fit.geo
  have hsetup := Sys.move_setup hmove.frame hsys
  -- the disk: the clusters of the copies are not written
  have hdisk : ∀ b, Flushed sys.state.geometry n host (b / sys.state.geometry.clusterSize) →
      sys'.disk b = sys.disk b := by
    intro b hb
    unfold Sys.disk
    rw [hsetup.config]
    exact (h.spares hclear hlt hmove hsys).bytes (hhome.fixed_ne _ hb)
  have hold := hsync.on_disk hwf hhome hdisk
  obtain ⟨htable, hblocks, hl1⟩ := hmove.staged hsys
  have hstate : ∀ i, sys'.state.refblockDirty i =
      (update (sys.state.countStep step)).refblockDirty i := by
    intro i
    rw [Sys.move_state hsys]
    rfl
  refine ⟨?_, fun i hi => ?_, fun hclean k hk => ?_, fun i hi hclean k hk => ?_, fun c hc => ?_⟩
  · rw [hblocks, hsetup.geometry, hmove.blocks_len]
    exact hsync.count
  · unfold blockHost
    rw [htable]
    exact hsync.hosts i hi
  · rw [hsetup.geometry] at hk ⊢
    have hdirty : sys'.state.l1Dirty = (update (sys.state.countStep step)).l1Dirty := by
      rw [Sys.move_state hsys]
      rfl
    rw [hdirty] at hclean
    rcases hl1 with hl1 | ⟨-, hl1⟩
    · rcases hmove.l1Dirty with hsame | hmarked
      · rw [hsame] at hclean
        rw [hl1]
        exact hold.l1 (by simpa using hclean) k hk
      · rw [hmarked] at hclean
        cases hclean
    · rw [hl1] at hclean
      cases hclean
  · rw [hsetup.geometry] at hk ⊢
    rw [hstate] at hclean
    rw [hblocks]
    rcases hmove.counts hst.fit with ⟨rfl, hsame⟩ | ⟨c, hchange⟩
    · rw [hsame] at hclean
      exact hold.blocks i hi (by simpa using hclean) k hk
    · rw [hchange.dirty] at hclean
      have hne : i ≠ c / sys.state.geometry.entriesPerRefblock := by
        rintro rfl
        rw [Function.update_self] at hclean
        cases hclean
      rw [Function.update_of_ne hne] at hclean
      rw [hchange.other_block hwf hne hk]
      exact hold.blocks i hi (by simpa using hclean) k hk
  · rw [hsetup.geometry] at hc ⊢
    obtain ⟨hlt', hone⟩ := hsync.sole c hc
    rw [hblocks]
    refine ⟨?_, ?_⟩
    · unfold counted
      rw [hmove.blocks_len]
      exact hlt'
    · rcases hmove.counts hst.fit with ⟨rfl, -⟩ | ⟨c', hchange⟩
      · exact hone
      · rw [hchange.others c ?_]
        · exact hone
        · rintro rfl
          rcases hchange.cause with hfree | ⟨rfl, hstage⟩
          · omega
          · exact hhome.fixed_ne _ hc (h.drop_shared hstage ⟨hlt', hone⟩)

end

end Instar.Write
