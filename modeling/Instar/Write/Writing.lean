import Instar.Write.Content

/-!
# The moves of a write keep the image

One lemma for each kind of move: the references stay counted, and what the image shows changes only
where the request's bytes become visible.
-/

namespace Instar.Write

open Instar.Qcow2 ByteMap WriteProgress Function SameImage

section

variable {bits : Nat} (inflate : Inflate bits) (under : Nat → UInt8)

/-- What the image shows after a move: more of the request, and nothing else. -/
structure Progressed (callerData : Buffer) (st : WriteState) (sg : StagedRegions) (disk : ByteMap)
    (prog : WriteProgress) (st' : WriteState) (sg' : StagedRegions) (disk' : ByteMap)
    (next : WriteProgress) : Prop where
  geometry : st'.geometry = st.geometry
  mono : prog.visible st.geometry ≤ next.visible st.geometry
  byte : ∀ x, x / st.geometry.l2Coverage < st.geometry.l1Size → x < st.geometry.virtualSize →
    effByte inflate under st' sg' disk' x
      = if prog.voff + prog.visible st.geometry ≤ x ∧ x < prog.voff + next.visible st.geometry
        then prog.data.byteAt callerData (x - prog.voff)
        else effByte inflate under st sg disk x
  tab : ∀ i < st.geometry.l1Size, ∀ j < st.geometry.entriesPerL2,
    (∀ x, prog.voff ≤ x → x < prog.voff + prog.len → ¬ (x / st.geometry.l2Coverage = i ∧
        x / st.geometry.clusterSize % st.geometry.entriesPerL2 = j)) →
    effTab st' sg' disk' i j = effTab st sg disk i j
  /-- An entry without the copied flag is an old one. -/
  lent : ∀ i < st.geometry.l1Size, ∀ j < st.geometry.entriesPerL2,
    effTab st' sg' disk' i j &&& oflagCopied = 0 → effTab st' sg' disk' i j = effTab st sg disk i j

/-- The state of a write after a move. -/
structure Moved (fixed : Nat → Nat) (callerData : Buffer) (st : WriteState) (sg : StagedRegions)
    (disk : ByteMap) (prog : WriteProgress) (st' : WriteState) (sg' : StagedRegions)
    (disk' : ByteMap) (bounce' : Buffer) (next : WriteProgress) : Prop where
  store : ∃ held, Store fixed held st' sg' disk' ∧
    StageOk (sceneOf inflate under st' sg' disk' bounce' callerData next) held next
  linked : ∀ v < st'.config.l2Slots, (st'.l2Slots v).valid = true →
    (next.stage.unlinked = true → v ≠ next.slot) → Linked st' sg' v
  image : Progressed inflate under callerData st sg disk prog st' sg' disk' next

end

section

variable {bits : Nat} {inflate : Inflate bits} {under : Nat → UInt8} {fixed held : Nat → Nat}
  {st st' : WriteState} {sg sg' : StagedRegions} {disk disk' : ByteMap}
  {bounce bounce' callerData : Buffer} {prog next : WriteProgress} {v : Nat}
  {slot : L2Slot} {rb' : Buffer} {host upTo k : Nat} {src : ByteMap} {sc : Scene}

theorem SameImage.progressed (h : SameImage inflate under st sg disk st' sg' disk')
    (hvisible : next.visible st.geometry = prog.visible st.geometry) :
    Progressed inflate under callerData st sg disk prog st' sg' disk' next := by
  refine ⟨h.geometry, hvisible.ge, fun x hx _ => ?_, fun i hi j hj _ => h.tab i hi j hj,
    fun i hi j hj _ => h.tab i hi j hj⟩
  rw [h.byte x hx, hvisible, if_neg (by omega)]

/-- The L1 names a slot's cluster as before. -/
theorem SameTables.linked (h : SameTables st st') (hl1 : sg'.l1 = sg.l1) : Linked st' sg' v ↔
    Linked st sg v := by
  unfold Linked readStagedL1Entry
  rw [h.l1Idx, h.hostOffset, hl1]

variable (h : WriteOk inflate under fixed st sg disk bounce callerData prog) {len : Nat}

include h in
theorem WriteOk.linked_all (hstage : prog.stage.unlinked = false) (hv : v < st.config.l2Slots)
    (hvalid : (st.l2Slots v).valid = true) : Linked st sg v :=
  h.linked v hv hvalid fun hun => by
    rw [hstage] at hun
    cases hun

theorem update_dirty (hslots : st'.l2Slots = Function.update st.l2Slots v slot)
    (hdirty : slot.dirty = (st.l2Slots v).dirty) (w : Nat) :
    (st'.l2Slots w).dirty = (st.l2Slots w).dirty := by
  rw [hslots]
  by_cases hw : w = v
  · rw [hw, update_self, hdirty]
  · rw [update_of_ne hw]

/-- What a move that neither allocates nor drops keeps, apart from the slots. -/
structure SameBase (st st' : WriteState) : Prop where
  geometry : st'.geometry = st.geometry
  config : st'.config = st.config
  cursor : st'.allocCursor = st.allocCursor

theorem SameBase.fit {rb : Buffer} (hbase : SameBase st st') (h : BlocksFit st rb) :
    BlocksFit st' rb := by
  refine ⟨hbase.geometry ▸ h.geo, hbase.config ▸ h.limit, ?_, ?_, ?_⟩
  · rw [hbase.geometry, hbase.config]
    exact h.count
  · rw [hbase.geometry]
    exact h.whole
  · rw [hbase.geometry, hbase.cursor]
    exact h.cursor

theorem SameBase.tables (hbase : SameBase st st') (hslots : st'.l2Slots = st.l2Slots) :
    SameTables st st' :=
  sameTables_of_slots hbase.geometry hbase.config hslots

/-! ## Moves that store nothing -/

include h

section

variable {held : Nat → Nat} (hst : Store fixed held st sg disk)

include hst

/-- A move that changes neither the tables nor the disk. -/
theorem WriteOk.quiet (hsame : SameTables st st')
    (hbase : SameBase st st') (hdirty : ∀ w, (st'.l2Slots w).dirty = (st.l2Slots w).dirty)
    (hun : prog.stage.unlinked = false)
    (hvisible : next.visible st.geometry = prog.visible st.geometry)
    (hok : StageOk (sceneOf inflate under st sg disk bounce' callerData next) held next) :
    Moved inflate under fixed callerData st sg disk prog st' sg disk bounce' next := by
  refine ⟨⟨held, hst.same hsame (hbase.fit hst.fit) fun w hw => hdirty w ▸ hw, ?_⟩,
    fun w hw hvalid _ => ?_, (hsame.image hst.fit.geo rfl rfl).progressed hvisible⟩
  · rw [hsame.scene_eq]
    exact hok
  · rw [hsame.linked rfl]
    refine h.linked_all hun (hsame.config ▸ hw) ?_
    rwa [hsame.valid] at hvalid

/-- The table is in the window. -/
theorem WriteOk.hit (hstage : prog.stage = .enter)
    (hheld : held = fun _ => 0) (hbase : SameBase st st') {counter : Nat} (hslots : st'.l2Slots
      = Function.update st.l2Slots v { st.l2Slots v with lastAccess := counter }) :
    Moved inflate under fixed callerData st sg disk prog st' sg disk bounce
      { prog with slot := v, stage := .slotReady } := by
  refine h.quiet hst (sameTables_update hbase.geometry hbase.config hslots rfl rfl rfl) hbase
    (update_dirty hslots rfl) (by rw [hstage]; rfl) ?_ hheld
  simp [visible, hstage]

theorem WriteOk.next_stage (hbase : SameBase st st')
    (hslots : st'.l2Slots = st.l2Slots) (hun : prog.stage.unlinked = false)
    (hvisible : next.visible st.geometry = prog.visible st.geometry)
    (hok : StageOk (sceneOf inflate under st sg disk bounce' callerData next) held next) :
    Moved inflate under fixed callerData st sg disk prog st' sg disk bounce' next :=
  h.quiet hst (hbase.tables hslots) hbase (fun w => by rw [hslots]) hun hvisible hok

end

omit h

/-! ## Allocating and dropping -/

theorem zero_add_oneRef (geo : Geometry) (host : Nat) :
    (fun c => (fun _ => 0) c + oneRef geo host c) = oneRef geo host := by
  funext c
  exact zero_add _

include h

theorem WriteOk.allocates {cursor : AllocCursor}
    (halloc : allocCall st sg.refblocks = (.ok host, rb', cursor))
    (hstate : st' = (allocated st.geometry cursor host st).pendingZeroClearAll)
    (hun : prog.stage.unlinked = false)
    (hheld : ∀ held, StageOk (sceneOf inflate under st sg disk bounce callerData prog) held prog →
      held = fun _ => 0) (hvisible : next.visible st.geometry = prog.visible st.geometry)
    (hok : SoleHost st.geometry rb' host →
      StageOk { sceneOf inflate under st sg disk bounce callerData next with blocks := rb' }
      (oneRef st.geometry host) next) :
    Moved inflate under fixed callerData st sg disk prog st' { sg with refblocks :=
      rb' } disk bounce next := by
  obtain ⟨held, hst, hstage⟩ := h.store
  obtain rfl := hheld held hstage
  have hsame : SameTables st st' := by
    rw [hstate]
    exact sameTables_of_slots rfl rfl rfl
  have hfit : BlocksFit st' rb' := by
    obtain ⟨c, -, -, -, hlen, -, -, hcursor⟩ := allocCall_ok hst.fit halloc
    rw [hstate]
    refine ⟨hst.fit.geo, hst.fit.limit, ?_, ?_, hcursor⟩
    · show rb'.len / st.geometry.clusterSize ≤ st.config.maxRefblocks
      rw [hlen]
      exact hst.fit.count
    · show rb'.len % st.geometry.clusterSize = 0
      rw [hlen]
      exact hst.fit.whole
  obtain ⟨hst', hhost, hcount, hfixed, -⟩ :=
    hst.alloc hsame (by rw [hstate]; exact fun _ => rfl) hfit halloc
  rw [zero_add_oneRef] at hst'
  have hne : host ≠ 0 := by
    rintro rfl
    rw [Nat.zero_div] at hfixed
    exact h.root hfixed
  refine ⟨⟨_, hst', ?_⟩, fun w hw hvalid _ => ?_, ?_⟩
  · rw [hsame.scene_eq]
    exact hok ⟨hne, hhost, hcount⟩
  · rw [hsame.linked rfl]
    refine h.linked_all hun (hsame.config ▸ hw) ?_
    rwa [hsame.valid] at hvalid
  · refine progressed (hsame.image hst.fit.geo ?_ ?_) hvisible <;> rfl

/-- A move that drops the reference to the old cluster. -/
theorem WriteOk.drops {rbIdx : Nat}
    (hdec : decRefblocks st.geometry sg.refblocks prog.cowSrc = .ok (rbIdx, rb'))
    (hstate : st' = (st.refblockDirtySet rbIdx).pendingZeroClearAll)
    (hun : prog.stage.unlinked = false)
    (hheld : ∀ held, StageOk (sceneOf inflate under st sg disk bounce callerData prog) held prog →
      held = oneRef st.geometry prog.cowSrc)
      (hvisible : next.visible st.geometry = prog.visible st.geometry)
    (hnext : next.stage = .enter) :
    Moved inflate under fixed callerData st sg disk prog st' { sg with refblocks :=
      rb' } disk bounce next := by
  obtain ⟨held, hst, hstage⟩ := h.store
  obtain rfl := hheld held hstage
  have hsame : SameTables st st' := by
    rw [hstate]
    exact sameTables_of_slots rfl rfl rfl
  have hfit : BlocksFit st' rb' := by
    have hlen := decRefblocks_len hdec
    rw [hstate]
    refine ⟨hst.fit.geo, hst.fit.limit, ?_, ?_, hst.fit.cursor⟩
    · show rb'.len / st.geometry.clusterSize ≤ st.config.maxRefblocks
      rw [hlen]
      exact hst.fit.count
    · show rb'.len % st.geometry.clusterSize = 0
      rw [hlen]
      exact hst.fit.whole
  rw [← zero_add_oneRef] at hst
  have hst' := hst.drop hsame (by rw [hstate]; exact fun _ => rfl) hfit hdec
  refine ⟨⟨_, hst', ?_⟩, fun w hw hvalid _ => ?_, ?_⟩
  · simp only [StageOk, hnext]
  · rw [hsame.linked rfl]
    refine h.linked_all hun (hsame.config ▸ hw) ?_
    rwa [hsame.valid] at hvalid
  · refine progressed (hsame.image hst.fit.geo ?_ ?_) hvisible <;> rfl

/-! ## Tables leaving and entering the window -/

/-- A dirty victim is written back and its slot freed. -/
theorem WriteOk.evict (hstage : prog.stage = .enter) (hv : v < st.config.l2Slots)
    (hvalid : (st.l2Slots v).valid = true) (hd : (st.l2Slots v).dirty = true)
    (hbase : SameBase st st')
    (hslots : st'.l2Slots = Function.update st.l2Slots v slot) (hinvalid : slot.valid = false)
    (hdisk : disk' = disk.splice (st.l2Slots v).hostOffset st.geometry.clusterSize
      (sg.l2Window.bytes.drop (v * st.geometry.clusterSize))) :
    Moved inflate under fixed callerData st sg disk prog st' sg disk' bounce
      { prog with slot := v, stage := .slotFree } := by
  obtain ⟨held, hst, hok⟩ := h.store
  have hlinked : ∀ w < st.config.l2Slots, (st.l2Slots w).valid = true → Linked st sg w :=
    fun w hw hvw => h.linked_all (by rw [hstage]; rfl) hw hvw
  obtain ⟨hst1, -, hclean⟩ := hst.writeback hv hvalid hd hdisk
  obtain ⟨hst2, -, htab2⟩ := hst1.free hbase.geometry hbase.config hslots hinvalid
    (hbase.fit hst.fit) fun _ _ => ⟨hclean, hlinked v hv hvalid⟩
  have himage : SameImage inflate under st sg disk st sg disk' :=
    hst.writeback_image h.bits hv hvalid hd hdisk
  refine ⟨⟨held, hst2, ?_⟩, fun w hw hvw _ => ?_, ?_⟩
  · simpa only [StageOk, hstage] using hok
  · have hwv : w ≠ v := by
      rintro rfl
      rw [hslots, update_self, hinvalid] at hvw
      cases hvw
    unfold Linked
    rw [hslots, update_of_ne hwv] at hvw ⊢
    exact hlinked w (hbase.config ▸ hw) hvw
  · refine progressed (himage.trans ?_) ?_
    · exact sameImage_of_tab hst.fit.geo hbase.geometry fun i _ j hj => htab2 i j hj
    · simp [visible, hstage]

omit h

/-- A table is brought into the slot that was freed for it. -/
theorem WriteOk.assign {lastAccess : Nat} {dirty : Bool} {held : Nat → Nat} (held' : Nat → Nat)
    (h : WriteOk inflate under fixed st sg disk bounce callerData prog)
    (hlt : prog.consumed < prog.len)
    (hbefore : prog.stage.beforeSlot = true)
    (hst : Store fixed held st sg disk) (hbase : SameBase st st')
    (hslots : st'.l2Slots = Function.update st.l2Slots prog.slot
      ⟨true, dirty, prog.l1Idx st.geometry, host, lastAccess⟩)
    (hhost : SoleHost st.geometry sg.refblocks host)
    (hclean : dirty = false → ∀ k < st.geometry.clusterSize, src k = disk (host + k))
    (hsrc : ∀ j < st.geometry.entriesPerL2, src.be (j * 8) 8
      = diskTab disk (hostOf (readStagedL1Entry sg (prog.l1Idx st.geometry))) j)
    (hheld : ∀ c, held' c + oneRef st.geometry host c = held c + tableRef st.geometry.clusterSize
      (hostOf (readStagedL1Entry sg (prog.l1Idx st.geometry))) c) (hslot : next.slot = prog.slot)
    (hlink : next.stage.unlinked = true ∨
      hostOf (readStagedL1Entry sg (prog.l1Idx st.geometry)) = host)
    (hvisible : next.visible st.geometry = prog.visible st.geometry)
    (hok : ∀ sc : Scene, sc.geo = st.geometry → sc.slotHost = host → StageOk sc held' next) :
    Moved inflate under fixed callerData st sg disk prog st'
      (sg.withWindow (sg.l2Window.bytes.splice (prog.slot * st.geometry.clusterSize)
        st.geometry.clusterSize src)) disk bounce next := by
  obtain ⟨hv, hother, hnotdirty⟩ := h.keep.freeSlot hbefore
  have hun : prog.stage.unlinked = false := by
    revert hbefore
    cases prog.stage <;> decide
  have hnone : st.findSlot (prog.l1Idx st.geometry) = none := WriteState.findSlot_eq_none.mpr hother
  have hheld1 : ∀ c, held' c + tableRef st.geometry.clusterSize host c = held c
      + tableRef st.geometry.clusterSize (effHost st sg (prog.l1Idx st.geometry)) c := by
    intro c
    rw [tableRef_eq_oneRef hhost.ne, effHost_none hnone]
    exact hheld c
  obtain ⟨hst', htab⟩ := hst.reassign hbase.geometry hbase.config hslots hv rfl (h.l1Idx_lt hlt)
    hnone (hbase.fit hst.fit) hhost hclean
    (fun j hj => (hsrc j hj).trans (by rw [effTab_none hnone, effHost_none hnone])) hheld1
    fun hvalid => ⟨hst.clean _ hv hvalid (by simpa [hvalid] using hnotdirty),
      h.linked_all hun hv hvalid⟩
  refine ⟨⟨held', hst', hok _ hbase.geometry ?_⟩, fun w hw hvw hne => ?_, ?_⟩
  · show (st'.l2Slots next.slot).hostOffset = host
    rw [hslots, hslot, update_self]
  · by_cases hwv : w = prog.slot
    · unfold Linked
      rw [hwv, hslots, update_self]
      rcases hlink with hlink | hlink
      · exact absurd (hwv.trans hslot.symm) (hne hlink)
      · exact hlink
    · unfold Linked
      rw [hslots, update_of_ne hwv] at hvw ⊢
      exact h.linked_all hun (hbase.config ▸ hw) hvw
  · exact progressed (sameImage_of_tab hst.fit.geo hbase.geometry fun i _ j hj =>
      htab i j hj) hvisible

/-! ## Naming a table in the L1 -/

include h in
/-- The L1 entry of the new table is patched. -/
theorem WriteOk.install {held : Nat → Nat} (hon : prog.stage.onSlot = true)
    (hst : Store fixed held st sg disk)
    (hslotHost : (st.l2Slots prog.slot).hostOffset = prog.l2Host) (hsame : SameTables st st')
    (hbase : SameBase st st') (hdirty : ∀ w, (st'.l2Slots w).dirty = (st.l2Slots w).dirty)
    (hvisible : next.visible st.geometry = prog.visible st.geometry)
    (hok : ∀ sc : Scene, sc.geo = st.geometry → StageOk sc held next) :
    Moved inflate under fixed callerData st sg disk prog st'
      (sg.withL1 (sg.l1.bytes.splice (prog.l1Idx st.geometry * 8) 8
        (ofBe (prog.l2Host ||| oflagCopied) 8))) disk bounce next := by
  obtain ⟨hv, hvalid, hidx⟩ := h.keep.heldSlot hon
  have hfind := (findSlot_iff hst.inj).mpr ⟨hv, hvalid, hidx⟩
  have hhost : HostOk st.geometry prog.l2Host := hslotHost ▸ (hst.slot _ hv hvalid).2.ok
  have hvalue : prog.l2Host ||| oflagCopied < 2 ^ 64 := or_copied_lt (by have := hhost.small; omega)
  obtain ⟨hst', -, htab⟩ := hst.patchL1 hvalue hfind
  refine ⟨⟨held, hst'.same hsame (hbase.fit hst.fit) fun w hw => hdirty w ▸ hw,
    hok _ hsame.geometry⟩, fun w hw hvw _ => ?_, ?_⟩
  · rw [hsame.config] at hw
    rw [hsame.valid] at hvw
    unfold Linked
    rw [hsame.l1Idx, hsame.hostOffset, readStagedL1Entry_patch hvalue]
    by_cases hwv : w = prog.slot
    · rw [hwv, if_pos hidx, hslotHost]
      exact hhost.patched hst.fit.geo
    · rw [if_neg]
      · exact h.linked w hw hvw fun _ => hwv
      · intro heq
        exact hwv (hst.inj w hw _ hv hvw hvalid (heq.trans hidx.symm))
  · refine progressed (sameImage_of_tab hst.fit.geo hsame.geometry fun i _ j _ => ?_) hvisible
    rw [hsame.tab_eq, htab]

/-! ## Filling the data cluster -/

/-- Writing to a cluster that nothing shows: it is held by the write, or its entry has the zero
flag. -/
theorem Store.writeSole {i j : Nat} (hst : Store fixed held st sg disk)
    (hbits : st.geometry.clusterBits = bits) (hsole : SoleHost st.geometry sg.refblocks host)
    (hi : i < st.geometry.l1Size) (hj : j < st.geometry.entriesPerL2)
    (hunseen : held (host / st.geometry.clusterSize) ≠ 0 ∨
      effTab st sg disk i j &&& oflagCompressed = 0 ∧ effTab st sg disk i j &&& qcowOflagZero ≠ 0 ∧
        hostOf (effTab st sg disk i j) = host)
    (hdisk : ∀ b, b / st.geometry.clusterSize ≠ host / st.geometry.clusterSize → disk' b = disk b) :
    Store fixed held st sg disk' ∧ SameImage inflate under st sg disk st sg disk' := by
  have hnames : ∀ q ∈ refPointers st.geometry, q = (i, j) ∧
        effTab st sg disk i j &&& oflagCompressed = 0 ∧
        effTab st sg disk i j &&& qcowOflagZero ≠ 0 ∨
      refNames st.geometry (effHost st sg) (effTab st sg disk) q (host / st.geometry.clusterSize) =
          0 := by
    intro q hq
    rcases hunseen with hheld | ⟨hplain, hzero, hhost⟩
    · exact .inr (hst.ledger.unnamed hsole.count (by omega) q hq)
    · by_cases heq : q = (i, j)
      · exact .inl ⟨heq, hplain, hzero⟩
      · exact .inr ((hst.entry_alone hsole hi hj hplain hhost).2.2 q hq heq)
  have htables : ∀ i' < st.geometry.l1Size,
      tableRef st.geometry.clusterSize (effHost st sg i') (host / st.geometry.clusterSize) = 0 := by
    intro i' hi'
    rcases hnames _ (table_mem hi') with ⟨heq, -⟩ | hname
    · have := congrArg Prod.snd heq
      omega
    · rwa [refNames_table] at hname
  obtain ⟨hst', htab⟩ := hst.writeCluster hdisk fun i' hi' href => absurd (htables i' hi') href
  refine ⟨hst', hst.image_of_cluster hbits htab hdisk fun i' hi' j' hj' => ?_⟩
  rcases hnames _ (entry_mem hi' hj') with ⟨heq, hzero⟩ | hname
  · cases heq
    exact .inr hzero
  · exact .inl (by rwa [refNames_entry hj'] at hname)

include h in
theorem WriteOk.writesData {held : Nat → Nat} (hlt : prog.consumed < prog.len)
    (hst : Store fixed held st sg disk) (hsole : SoleHost st.geometry sg.refblocks prog.dataHost)
    (hunseen : held (prog.dataHost / st.geometry.clusterSize) ≠ 0 ∨
      (sceneOf inflate under st sg disk bounce callerData prog).entry &&& oflagCompressed = 0 ∧
      (sceneOf inflate under st sg disk bounce callerData prog).entry &&& qcowOflagZero ≠ 0 ∧
      hostOf (sceneOf inflate under st sg disk bounce callerData prog).entry = prog.dataHost)
    (hbase : SameBase st st') (hslots : st'.l2Slots = st.l2Slots)
      (hun : prog.stage.unlinked = false)
    (hdisk : ∀ b, b / st.geometry.clusterSize ≠ prog.dataHost / st.geometry.clusterSize →
      disk' b = disk b) (hvisible : next.visible st.geometry = prog.visible st.geometry)
    (hslot : next.slot = prog.slot) (hcur : next.cur = prog.cur)
    (hok : StageOk { sceneOf inflate under st sg disk bounce callerData prog with disk :=
      disk' } held next) :
    Moved inflate under fixed callerData st sg disk prog st' sg disk' bounce next := by
  have hsame := hbase.tables hslots
  have hidx := h.l1Idx_lt hlt
  obtain ⟨hst', himage⟩ := hst.writeSole h.bits hsole hidx (hst.fit.geo.entry_lt _) hunseen hdisk
  have hscene : sceneOf inflate under st sg disk' bounce callerData next
      = { sceneOf inflate under st sg disk bounce callerData prog with disk := disk' } := by
    have hnext : sceneOf inflate under st sg disk' bounce callerData next
        = sceneOf inflate under st sg disk' bounce callerData prog := by
      simp only [sceneOf, l1Idx, l2Idx, inOff, hslot, hcur]
    rw [hnext, himage.scene_eq hst.fit.geo hidx]
    rfl
  refine ⟨⟨held, hst'.same hsame (hbase.fit hst.fit) fun w hw => by rwa [hslots] at hw, ?_⟩,
    fun w hw hvw _ => ?_, (himage.trans (hsame.image hst.fit.geo rfl rfl)).progressed hvisible⟩
  · rw [hsame.scene_eq, hscene]
    exact hok
  · rw [hsame.linked rfl]
    refine h.linked_all hun (hsame.config ▸ hw) ?_
    rwa [hsame.valid] at hvw

/-- The next part of a cluster that is filled from its start. -/
theorem Filling.extend (h : Filling sc held prog upTo)
    (hsrc : ∀ k < len, src k = if prog.inWindow sc.geo (upTo + k)
      then prog.newByte sc.geo sc.callerData (upTo + k) else 0) :
    Filling { sc with disk := sc.disk.splice (prog.dataHost + upTo) len src } held prog
        (upTo + len) := by
  refine ⟨h.sole, h.plain, h.entry, h.blank, fun k hk => ?_⟩
  show (sc.disk.splice (prog.dataHost + upTo) len src) (prog.dataHost + k) = _
  by_cases hlt : k < upTo
  · rw [splice_outside (by omega)]
    exact h.filled k hlt
  · obtain ⟨m, rfl⟩ : ∃ m, k = upTo + m := ⟨k - upTo, by omega⟩
    rw [← add_assoc, splice_inside (by omega)]
    exact hsrc m (by omega)

/-- A cluster being filled is not shown yet. -/
theorem Filling.unseen (h : Filling sc held prog upTo) :
    held (prog.dataHost / sc.geo.clusterSize) ≠ 0 ∨ sc.entry &&& oflagCompressed = 0 ∧
      sc.entry &&& qcowOflagZero ≠ 0 ∧ hostOf sc.entry = prog.dataHost := by
  rcases h.entry with ⟨-, rfl⟩ | ⟨hhost, hzero, -⟩
  · rw [oneRef_self]
    exact .inl (by decide)
  · exact .inr ⟨h.plain, hzero, hhost⟩

include h in
/-- A move that fills the next part of the data cluster. -/
theorem WriteOk.fills {held : Nat → Nat} (hlt : prog.consumed < prog.len)
    (hst : Store fixed held st sg disk)
    (hfill : Filling (sceneOf inflate under st sg disk bounce callerData prog) held prog upTo)
    (hlen : upTo + len ≤ st.geometry.clusterSize)
    (hsrc : ∀ k < len, src k = if prog.inWindow st.geometry (upTo + k)
      then prog.newByte st.geometry callerData (upTo + k) else 0)
    (hdisk : disk' = disk.splice (prog.dataHost + upTo) len src) (hbase : SameBase st st')
    (hslots : st'.l2Slots = st.l2Slots) (hun : prog.stage.unlinked = false)
    (hvisible : next.visible st.geometry = prog.visible st.geometry) (hslot : next.slot = prog.slot)
    (hcur : next.cur = prog.cur)
    (hok : ∀ sc : Scene, sc.geo = st.geometry → Filling sc held prog (upTo + len) →
      StageOk sc held next) :
    Moved inflate under fixed callerData st sg disk prog st' sg disk' bounce next := by
  refine h.writesData hlt hst hfill.sole hfill.unseen hbase hslots hun (fun b hb => ?_) hvisible
    hslot hcur (hok _ rfl ?_)
  · rw [hdisk]
    exact splice_cluster_outside hst.fit.geo.size_pos hfill.sole.ok.aligned hlen hb
  · rw [hdisk]
    exact hfill.extend hsrc

/-! ## Copying the old data cluster -/

/-- What the image shows in the current cluster, through its entry. -/
theorem sceneOf_old (hwf : st.geometry.Wf) (hk : k < st.geometry.clusterSize) :
    (sceneOf inflate under st sg disk bounce callerData prog).old k
      = entryByte st.geometry.clusterSize inflate under disk
          (sceneOf inflate under st sg disk bounce callerData prog).entry
          (prog.cur - prog.inOff st.geometry + k) := by
  have hcluster : (prog.cur - prog.inOff st.geometry + k) / st.geometry.clusterSize
      = prog.cur / st.geometry.clusterSize := base_add_div hwf hk
  show (if k < st.geometry.clusterSize then _ else _) = _
  rw [if_pos hk, effByte, hwf.table_eq hcluster, hcluster]
  rfl

theorem base_add_mod_eq (hwf : st.geometry.Wf) (hk : k < st.geometry.clusterSize) :
    (prog.cur - prog.inOff st.geometry + k) % st.geometry.clusterSize = k := by
  have hcluster : (prog.cur - prog.inOff st.geometry + k) / st.geometry.clusterSize
      = prog.cur / st.geometry.clusterSize := base_add_div hwf hk
  have hbase := base_add_mod hcluster
  omega

/-- A move that writes into the copy under construction. -/
theorem WriteOk.copies {held : Nat → Nat} (off : Nat)
    (h : WriteOk inflate under fixed st sg disk bounce callerData prog)
    (hlt : prog.consumed < prog.len) (hst : Store fixed held st sg disk)
    (hcopy : Copying (sceneOf inflate under st sg disk bounce callerData prog) held prog)
    (hlen : off + len ≤ st.geometry.clusterSize)
    (hdisk : disk' = disk.splice (prog.dataHost + off) len src)
    (hbase : SameBase st st') (hslots : st'.l2Slots = st.l2Slots)
    (hun : prog.stage.unlinked = false)
    (hvisible : next.visible st.geometry = prog.visible st.geometry) (hslot : next.slot = prog.slot)
    (hcur : next.cur = prog.cur)
    (hok : StageOk { sceneOf inflate under st sg disk bounce callerData prog with disk :=
      disk' } held next) :
    Moved inflate under fixed callerData st sg disk prog st' sg disk' bounce next := by
  refine h.writesData hlt hst hcopy.sole (.inl ?_) hbase hslots hun (fun b hb =>
    ?_) hvisible hslot hcur hok
  · rw [hcopy.held_eq]
    show oneRef st.geometry prog.dataHost _ ≠ 0
    rw [oneRef_self]
    decide
  · rw [hdisk]
    exact splice_cluster_outside hst.fit.geo.size_pos hcopy.sole.ok.aligned hlen hb

/-- The old cluster is what the image shows. -/
theorem Copying.old_eq (hwf : st.geometry.Wf) (hk : k < st.geometry.clusterSize)
    (h : Copying (sceneOf inflate under st sg disk bounce callerData prog) held prog) :
    (sceneOf inflate under st sg disk bounce callerData prog).old k
      = if prog.cowZeroPreimage then 0 else disk (prog.cowSrc + k) := by
  rw [sceneOf_old hwf hk, h.zero]
  by_cases hzero : (sceneOf inflate under st sg disk bounce callerData prog).entry
    &&& qcowOflagZero = 0
  · have hne : hostOf (sceneOf inflate under st sg disk bounce callerData prog).entry ≠ 0 := by
      rw [h.source]
      exact h.source_ne
    rw [entryByte_host h.plain hzero hne, h.source, base_add_mod_eq hwf hk,
      decide_eq_false (not_not.mpr hzero)]
    rfl
  · rw [entryByte_zero h.plain hzero, decide_eq_true hzero]
    rfl

/-- The whole cluster is written with what the image shows. -/
theorem copied_of_cluster (hsrc : ∀ k < sc.geo.clusterSize, src k = sc.old k) :
    Copied { sc with disk := sc.disk.splice prog.dataHost sc.geo.clusterSize src } prog := by
  intro k hk _
  show (sc.disk.splice prog.dataHost sc.geo.clusterSize src) (prog.dataHost + k) = sc.old k
  have hk' : k < sc.geo.clusterSize := hk
  rw [splice_inside hk', hsrc k hk']

/-- The request's bytes are written over the copy. -/
theorem Copied.body (h : Copied sc prog)
    (hsrc : ∀ k, src k = prog.newByte sc.geo sc.callerData (prog.inOff sc.geo + k))
    (hdisk : disk' = sc.disk.splice (prog.dataHost + prog.inOff sc.geo) (prog.winLen sc.geo) src) :
    Copied { sc with disk := disk' } prog ∧ Bodied { sc with disk := disk' } prog := by
  refine ⟨fun k hk hwin => ?_, fun k hwin => ?_⟩
  · have hwin' : ¬ (prog.inOff sc.geo ≤ k ∧ k < prog.inOff sc.geo + prog.winLen sc.geo) := hwin
    show disk' (prog.dataHost + k) = sc.old k
    rw [hdisk, splice_outside (by omega)]
    exact h k hk hwin
  · have hwin' : prog.inOff sc.geo ≤ k ∧ k < prog.inOff sc.geo + prog.winLen sc.geo := hwin
    obtain ⟨m, rfl⟩ : ∃ m, k = prog.inOff sc.geo + m := ⟨k - prog.inOff sc.geo, by omega⟩
    show disk' (prog.dataHost + (prog.inOff sc.geo + m)) = _
    rw [hdisk, ← add_assoc, splice_inside (by omega), hsrc]

/-! ## Making the request visible -/

/-- The request's part of the current cluster has become visible. -/
theorem progressed_window (hwf : st.geometry.Wf) (hlt : prog.consumed < prog.len)
    (hgeo : st'.geometry = st.geometry) (hbefore : prog.visible st.geometry = prog.consumed)
    (hafter : next.visible st.geometry = prog.consumed + prog.winLen st.geometry)
    (hinside : ∀ k < st.geometry.clusterSize,
      prog.cur - prog.inOff st.geometry + k < st.geometry.virtualSize →
      effByte inflate under st' sg' disk' (prog.cur - prog.inOff st.geometry + k)
        = if prog.inWindow st.geometry k then prog.newByte st.geometry callerData k
          else effByte inflate under st sg disk (prog.cur - prog.inOff st.geometry + k))
    (houtside : ∀ x, x / st.geometry.l2Coverage < st.geometry.l1Size →
      x / st.geometry.clusterSize ≠ prog.cur / st.geometry.clusterSize →
      effByte inflate under st' sg' disk' x = effByte inflate under st sg disk x)
    (htab : ∀ i < st.geometry.l1Size, ∀ j < st.geometry.entriesPerL2,
      (i, j) ≠ (prog.l1Idx st.geometry, prog.l2Idx st.geometry) ∨
        effTab st' sg' disk' i j &&& oflagCopied = 0 →
      effTab st' sg' disk' i j = effTab st sg disk i j) :
    Progressed inflate under callerData st sg disk prog st' sg' disk' next := by
  refine ⟨hgeo, by omega, fun x hx hsize => ?_, fun i hi j hj hreq => ?_,
    fun i hi j hj hclear => htab i hi j hj (.inr hclear)⟩
  · have hcur : prog.cur = prog.voff + prog.consumed := rfl
    rw [hbefore, hafter, ← add_assoc, ← hcur]
    by_cases hcluster : x / st.geometry.clusterSize = prog.cur / st.geometry.clusterSize
    · have hx' := base_add_mod hcluster
      have hin := hinside (x % st.geometry.clusterSize) (Nat.mod_lt _ hwf.size_pos) (by rwa [hx'])
      rw [hx'] at hin
      rw [hin]
      by_cases hwin : prog.inWindow st.geometry (x % st.geometry.clusterSize)
      · have hrange := (inWindow_iff hcluster).mp hwin
        rw [if_pos hwin, if_pos hrange, newByte_eq hcluster hrange.1]
      · rw [if_neg hwin, if_neg (fun hrange => hwin ((inWindow_iff hcluster).mpr hrange))]
    · rw [houtside x hx hcluster, if_neg]
      exact fun hrange => hcluster (cluster_of_window hwf hrange.1 hrange.2)
  · refine htab i hi j hj (.inl ?_)
    rintro ⟨⟩
    refine hreq prog.cur ?_ ?_ ⟨rfl, rfl⟩ <;> unfold cur <;> omega

/-- A patched entry has the copied flag. -/
theorem patched_copied (h : Nat) : (h ||| oflagCopied) &&& oflagCopied ≠ 0 := by
  have hset : oflagCopied.testBit 63 = true := by decide
  intro heq
  have hbit := congrArg (Nat.testBit · 63) heq
  simp [hset] at hbit

/-- The L2 entry of the current cluster is patched to name the data cluster. -/
theorem WriteOk.publish {held : Nat → Nat} (held' : Nat → Nat)
    (h : WriteOk inflate under fixed st sg disk bounce callerData prog)
    (hlt : prog.consumed < prog.len)
    (hon : prog.stage.onSlot = true) (hst : Store fixed held st sg disk)
    (hsole : SoleHost st.geometry sg.refblocks prog.dataHost)
    (hbytes : ∀ k < st.geometry.clusterSize, prog.cur - prog.inOff st.geometry + k <
      st.geometry.virtualSize → disk (prog.dataHost + k) = if prog.inWindow st.geometry k
        then prog.newByte st.geometry callerData k
        else (sceneOf inflate under st sg disk bounce callerData prog).old k)
    (hheld : ∀ c, held' c + oneRef st.geometry prog.dataHost c = held c
      + entryRefs st.geometry.clusterBits st.geometry.clusterSize
          (sceneOf inflate under st sg disk bounce callerData prog).entry c)
    (hbase : SameBase st st') (hslots : st'.l2Slots = Function.update st.l2Slots prog.slot
      { st.l2Slots prog.slot with dirty := true }) (hun : prog.stage.unlinked = false)
    (hbefore : prog.visible st.geometry = prog.consumed)
    (hafter : next.visible st.geometry = prog.consumed + prog.winLen st.geometry)
    (hok : ∀ sc : Scene, sc.geo = st.geometry → StageOk sc held' next) :
    Moved inflate under fixed callerData st sg disk prog st'
      (sg.withWindow (sg.l2Window.bytes.splice (prog.slot * st.geometry.clusterSize
        + prog.l2Idx st.geometry * 8) 8 (ofBe (prog.dataHost ||| oflagCopied) 8)))
      disk bounce next := by
  obtain ⟨hv, hvalid, hidx⟩ := h.keep.heldSlot hon
  have hwf := hst.fit.geo
  have hfind := (findSlot_iff hst.inj).mpr ⟨hv, hvalid, hidx⟩
  have hsame : SameTables st st' := sameTables_update hbase.geometry hbase.config hslots rfl rfl rfl
  have hj : prog.l2Idx st.geometry < st.geometry.entriesPerL2 := hwf.entry_lt _
  have hplain := patched_plain hsole.ok.small
  have hhost := hsole.ok.patched hwf
  have hrefs : ∀ c, entryRefs st.geometry.clusterBits st.geometry.clusterSize
      (prog.dataHost ||| oflagCopied) c = oneRef st.geometry prog.dataHost c := by
    intro c
    rw [entryRefs_plain hplain, hhost, tableRef_eq_oneRef hsole.ne]
  have hheld1 : ∀ c, held' c + entryRefs st.geometry.clusterBits st.geometry.clusterSize
      (prog.dataHost ||| oflagCopied) c = held c + entryRefs st.geometry.clusterBits
        st.geometry.clusterSize (effTab st sg disk (prog.l1Idx st.geometry)
          (prog.l2Idx st.geometry)) c := by
    intro c
    rw [hrefs]
    exact hheld c
  obtain ⟨hst', -, hnew, hother⟩ := hst.patchL2 hsame (hbase.fit hst.fit) hfind
    (by rw [hslots, update_self]) (fun w hw => by rw [hslots, update_of_ne hw])
    hj (or_copied_lt (by have := hsole.ok.small; omega))
    (fun _ => by rw [hhost]; exact hsole.ok.aligned) hheld1 (fun c hc => by
      rw [hrefs, oneRef, if_neg]
      have := hsole.count.covered
      omega)
  have hentry : ∀ x, x / st.geometry.l2Coverage < st.geometry.l1Size →
      x / st.geometry.clusterSize ≠ prog.cur / st.geometry.clusterSize →
      (x / st.geometry.l2Coverage, x / st.geometry.clusterSize % st.geometry.entriesPerL2)
        ≠ (prog.l1Idx st.geometry, prog.l2Idx st.geometry) := by
    intro x _ hne heq
    exact hne (hwf.cluster_of (congrArg Prod.fst heq) (congrArg Prod.snd heq))
  refine ⟨⟨held', hst', hok _ hbase.geometry⟩, fun w hw hvw _ => ?_,
    progressed_window hwf hlt hbase.geometry hbefore hafter (fun k hk hsize => ?_)
      (fun x hx hne => ?_) fun i _ j hj hold => hother i j hj ?_⟩
  · rw [hsame.linked rfl]
    refine h.linked_all hun (hsame.config ▸ hw) ?_
    rwa [hsame.valid] at hvw
  · have hcluster : (prog.cur - prog.inOff st.geometry + k) / st.geometry.clusterSize
        = prog.cur / st.geometry.clusterSize := base_add_div hwf hk
    have hold : (sceneOf inflate under st sg disk bounce callerData prog).old k
        = effByte inflate under st sg disk (prog.cur - prog.inOff st.geometry + k) := if_pos hk
    rw [← hold, ← hbytes k hk hsize, effByte, hbase.geometry, hwf.table_eq hcluster, hcluster]
    refine Eq.trans (congrArg (fun e => entryByte _ inflate under disk e _) hnew) ?_
    rw [entryByte_host hplain (patched_nonzero (hsole.ok.dvd hwf)) (by rw [hhost]; exact hsole.ne),
      hhost, base_add_mod_eq hwf hk]
  · unfold effByte
    rw [hbase.geometry, hother _ _ (hwf.entry_lt x) (hentry x hx hne)]
  · rintro ⟨⟩
    refine hold.elim (fun hne => hne rfl) fun hclear => patched_copied prog.dataHost ?_
    rw [← hnew]
    exact hclear

include h in
/-- The request's bytes go into the cluster the entry names. -/
theorem WriteOk.inPlace {held : Nat → Nat} (hlt : prog.consumed < prog.len)
    (hst : Store fixed held st sg disk) (hsole : SoleHost st.geometry sg.refblocks host)
    (hplain : effTab st sg disk (prog.l1Idx st.geometry) (prog.l2Idx st.geometry)
      &&& oflagCompressed = 0)
    (hzero : effTab st sg disk (prog.l1Idx st.geometry) (prog.l2Idx st.geometry) &&& qcowOflagZero =
      0)
    (hhost : hostOf (effTab st sg disk (prog.l1Idx st.geometry) (prog.l2Idx st.geometry)) = host)
    (hsrc : ∀ k, src k = prog.newByte st.geometry callerData (prog.inOff st.geometry + k))
    (hdisk : disk' = disk.splice (host + prog.inOff st.geometry) (prog.winLen st.geometry) src)
    (hbase : SameBase st st') (hslots : st'.l2Slots = st.l2Slots)
    (hun : prog.stage.unlinked = false) (hbefore : prog.visible st.geometry = prog.consumed)
    (hafter : next.visible st.geometry = prog.consumed + prog.winLen st.geometry)
    (hok : ∀ sc : Scene, StageOk sc held next) :
    Moved inflate under fixed callerData st sg disk prog st' sg disk' bounce next := by
  have hwf := hst.fit.geo
  have hsame := hbase.tables hslots
  have hidx := h.l1Idx_lt hlt
  have hj : prog.l2Idx st.geometry < st.geometry.entriesPerL2 := hwf.entry_lt _
  have houtside : ∀ b, b / st.geometry.clusterSize ≠ host / st.geometry.clusterSize →
      disk' b = disk b := by
    intro b hb
    rw [hdisk]
    exact splice_cluster_outside hwf.size_pos hsole.ok.aligned (prog.window_le hwf) hb
  have halone := (hst.entry_alone hsole hidx hj hplain hhost).2.2
  obtain ⟨hst', htab⟩ := hst.writeCluster houtside fun i hi href => by
    have hname := halone _ (table_mem hi) (fun heq => by
      have := congrArg Prod.snd heq
      omega)
    rw [refNames_table] at hname
    exact absurd hname href
  have heff : ∀ x, x / st.geometry.l2Coverage < st.geometry.l1Size →
      effByte inflate under st' sg disk' x = entryByte st.geometry.clusterSize inflate under disk'
        (effTab st sg disk (x / st.geometry.l2Coverage)
          (x / st.geometry.clusterSize % st.geometry.entriesPerL2)) x := by
    intro x hx
    unfold effByte
    rw [hbase.geometry, hsame.tab_eq, htab _ hx _ (hwf.entry_lt x)]
  refine ⟨⟨held, hst'.same hsame (hbase.fit hst.fit) fun w hw => by rwa [hslots] at hw, hok _⟩,
    fun w hw hvw _ => ?_, progressed_window hwf hlt hbase.geometry hbefore hafter
      (fun k hk hsize => ?_) (fun x hx hne => ?_) fun i hi j hj _ => ?_⟩
  · rw [hsame.linked rfl]
    refine h.linked_all hun (hsame.config ▸ hw) ?_
    rwa [hsame.valid] at hvw
  · have hcluster : (prog.cur - prog.inOff st.geometry + k) / st.geometry.clusterSize
        = prog.cur / st.geometry.clusterSize := base_add_div hwf hk
    have hne : hostOf (effTab st sg disk (prog.l1Idx st.geometry)
        (prog.l2Idx st.geometry)) ≠ 0 := by
      rw [hhost]
      exact hsole.ne
    have hread : ∀ d : ByteMap, entryByte st.geometry.clusterSize inflate under d
        (effTab st sg disk (prog.l1Idx st.geometry) (prog.l2Idx st.geometry))
        (prog.cur - prog.inOff st.geometry + k) = d (host + k) := by
      intro d
      rw [entryByte_host hplain hzero hne, hhost, base_add_mod_eq hwf hk]
    rw [heff _ (by rw [hwf.table_eq hcluster]; exact hidx), effByte,
      hwf.table_eq hcluster, hcluster]
    refine (hread disk').trans ?_
    rw [show (if prog.inWindow st.geometry k then _ else _)
      = if prog.inWindow st.geometry k then prog.newByte st.geometry callerData k
      else disk (host + k) from by congr 1; exact hread disk, hdisk]
    by_cases hwin : prog.inWindow st.geometry k
    · obtain ⟨m, rfl⟩ : ∃ m, k = prog.inOff st.geometry + m :=
        ⟨k - prog.inOff st.geometry, by unfold inWindow at hwin; omega⟩
      rw [if_pos hwin, ← add_assoc, splice_inside, hsrc]
      unfold inWindow at hwin
      omega
    · rw [if_neg hwin, splice_outside]
      unfold inWindow at hwin
      omega
  · have hjx := hwf.entry_lt x
    have hname := halone _ (entry_mem hx hjx) fun heq =>
      hne (hwf.cluster_of (congrArg Prod.fst heq) (congrArg Prod.snd heq))
    rw [refNames_entry hjx, h.bits] at hname
    rw [heff x hx]
    refine entryByte_frame hwf.size_pos (hst.ledger.entryOk _ hx _ hjx) fun b hb => houtside b ?_
    intro heq
    rw [heq] at hb
    exact hb hname
  · rw [hsame.tab_eq, htab i hi j hj]

end

end Instar.Write
