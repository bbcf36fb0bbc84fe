import Instar.Write.Serve
import Instar.Write.View

/-!
# What a write does to the image

`effByte` is the virtual disk that a system stands for.  A write changes it in one place only: when
the cluster it works on becomes visible, either because its L2 entry is patched or because its data
is written in place.  `WriteOk` is the invariant of a write in progress: the references are counted,
and the cluster under construction holds what the stages before have put there.
-/

namespace Instar.Write

open Instar.Qcow2 WriteProgress

/-- The contents of the device the image lives on. -/
def Sys.disk (sys : Sys) : ByteMap := sys.devices.disk sys.state.config.device

section

variable {bits : Nat} (inflate : Inflate bits) (under : Nat → UInt8)

section

variable (st : WriteState) (sg : StagedRegions) (disk : ByteMap)

/-- The virtual disk at `x`. -/
def effByte (x : Nat) : UInt8 :=
  entryByte st.geometry.clusterSize inflate under disk
      (effTab st sg disk (x / st.geometry.l2Coverage)
      (x / st.geometry.clusterSize % st.geometry.entriesPerL2)) x

/-- Two ways of storing the same image. -/
structure SameImage (st' : WriteState)
    (sg' : StagedRegions) (disk' : ByteMap) : Prop where
  geometry : st'.geometry = st.geometry
  tab : ∀ i < st.geometry.l1Size, ∀ j < st.geometry.entriesPerL2,
    effTab st' sg' disk' i j = effTab st sg disk i j
  byte : ∀ x, x / st.geometry.l2Coverage < st.geometry.l1Size →
    effByte inflate under st' sg' disk' x = effByte inflate under st sg disk x

end

/-! ## The cluster under construction -/

/-- The request's bytes in the current cluster. -/
def WriteProgress.inWindow (geo : Geometry) (prog : WriteProgress) (k : Nat) : Prop :=
  prog.inOff geo ≤ k ∧ k < prog.inOff geo + prog.winLen geo

instance (geo : Geometry) (prog : WriteProgress) (k : Nat) : Decidable (prog.inWindow geo k) :=
  inferInstanceAs (Decidable (_ ∧ _))

/-- Byte `k` of the current cluster as the request has it. -/
def WriteProgress.newByte (geo : Geometry) (callerData : Buffer) (prog : WriteProgress) (k : Nat) :
    UInt8 :=
  prog.data.byteAt callerData (prog.consumed + (k - prog.inOff geo))

/-- What the stages of a cluster rely on: its L2 entry, where the L1 and the slot say its table
lives, and the bytes the image shows in it. -/
structure Scene where
  geo : Geometry
  blocks : Buffer
  l1Host : Nat
  slotHost : Nat
  entry : Nat
  old : Nat → UInt8
  disk : ByteMap
  bounce : Buffer
  callerData : Buffer

/-- The scene of a write in progress. -/
def sceneOf (st : WriteState) (sg : StagedRegions) (disk : ByteMap) (bounce callerData : Buffer)
    (prog : WriteProgress) : Scene where
  geo := st.geometry
  blocks := sg.refblocks
  l1Host := hostOf (readStagedL1Entry sg (prog.l1Idx st.geometry))
  slotHost := (st.l2Slots prog.slot).hostOffset
  entry := effTab st sg disk (prog.l1Idx st.geometry) (prog.l2Idx st.geometry)
  old k := if k < st.geometry.clusterSize then
    effByte inflate under st sg disk (prog.cur - prog.inOff st.geometry + k) else 0
  disk
  bounce
  callerData

end

section

variable (sc : Scene) (held : Nat → Nat) (prog : WriteProgress)

/-- A data cluster that is being filled from its start; outside the request it is blank, and so is
what the image shows there. -/
structure Filling (upTo : Nat) : Prop where
  sole : SoleHost sc.geo sc.blocks prog.dataHost
  plain : sc.entry &&& oflagCompressed = 0
  entry : hostOf sc.entry = 0 ∧ held = oneRef sc.geo prog.dataHost ∨
    hostOf sc.entry = prog.dataHost ∧ sc.entry &&& qcowOflagZero ≠ 0 ∧ held = fun _ => 0
  blank : ∀ k < sc.geo.clusterSize, ¬ prog.inWindow sc.geo k →
    prog.cur - prog.inOff sc.geo + k < sc.geo.virtualSize → sc.old k = 0
  filled : ∀ k < upTo, sc.disk (prog.dataHost + k)
    = if prog.inWindow sc.geo k then prog.newByte sc.geo sc.callerData k else 0

/-- A data cluster that is being copied from the one the entry names. -/
structure Copying : Prop where
  sole : SoleHost sc.geo sc.blocks prog.dataHost
  plain : sc.entry &&& oflagCompressed = 0
  source : hostOf sc.entry = prog.cowSrc
  source_ne : prog.cowSrc ≠ 0
  zero : prog.cowZeroPreimage = decide (sc.entry &&& qcowOflagZero ≠ 0)
  held_eq : held = oneRef sc.geo prog.dataHost

end

variable {prog : WriteProgress} {sc : Scene} {held : Nat → Nat} {callerData : Buffer}

theorem Filling.at_stage {upTo : Nat} (h : Filling sc held prog upTo)
    (stage : ClusterStage) : Filling sc held { prog with stage } upTo :=
  ⟨h.sole, h.plain, h.entry, h.blank, h.filled⟩

theorem Copying.at_stage (h : Copying sc held prog) (stage : ClusterStage) :
    Copying sc held { prog with stage } :=
  ⟨h.sole, h.plain, h.source, h.source_ne, h.zero, h.held_eq⟩

theorem Copying.on_disk (h : Copying sc held prog) (disk : ByteMap)
    (stage : ClusterStage) : Copying { sc with disk } held { prog with stage } :=
  ⟨h.sole, h.plain, h.source, h.source_ne, h.zero, h.held_eq⟩

/-- Outside the request the new cluster holds what the image shows. -/
def Copied (sc : Scene) (prog : WriteProgress) : Prop :=
  ∀ k < sc.geo.clusterSize, ¬ prog.inWindow sc.geo k → sc.disk (prog.dataHost + k) = sc.old k

/-- Inside the request the new cluster holds the request's bytes. -/
def Bodied (sc : Scene) (prog : WriteProgress) : Prop :=
  ∀ k, prog.inWindow sc.geo k → sc.disk (prog.dataHost + k) = prog.newByte sc.geo sc.callerData k

/-- What holds at each stage of a cluster. -/
def StageOk (sc : Scene) (held : Nat → Nat) (prog : WriteProgress) : Prop :=
  match prog.stage with
  | .enter | .slotFree | .slotReady => held = fun _ => 0
  | .freshAlloc =>
    held = oneRef sc.geo prog.l2Host ∧ SoleHost sc.geo sc.blocks prog.l2Host ∧ sc.l1Host = 0
  | .freshZeroed => (held = fun _ => 0) ∧ sc.slotHost = prog.l2Host
  | .cowL2Load => held = oneRef sc.geo prog.l2Host ∧ SoleHost sc.geo sc.blocks prog.l2Host ∧
      sc.l1Host = prog.cowSrc ∧ prog.cowSrc ≠ 0
  | .cowL2Repoint => held = oneRef sc.geo prog.cowSrc ∧ sc.slotHost = prog.l2Host
  | .cowL2Decrement | .cowDataDecrement => held = oneRef sc.geo prog.cowSrc
  | .dataAlloc => Filling sc held prog 0
  | .headDone => Filling sc held prog (prog.inOff sc.geo)
  | .bodyDone => Filling sc held prog (prog.inOff sc.geo + prog.winLen sc.geo)
  | .tailDone => Filling sc held prog sc.geo.clusterSize
  | .cowDataEnter => Copying sc held prog
  | .cowDataCopy => Copying sc held prog ∧ prog.cowZeroPreimage = false ∧
      ∀ k < sc.geo.clusterSize, sc.bounce.bytes k = sc.disk (prog.cowSrc + k)
  | .cowDataBody => Copying sc held prog ∧ Copied sc prog
  | .cowDataPatch => Copying sc held prog ∧ Copied sc prog ∧ Bodied sc prog

/-- The stages between bringing a new table into the window and naming it in the L1. -/
def ClusterStage.unlinked : ClusterStage → Bool
  | .freshZeroed | .cowL2Repoint => true
  | _ => false

/-- A write in progress over an image whose references are counted. -/
structure WriteOk {bits : Nat} (inflate : Inflate bits) (under : Nat → UInt8) (fixed : Nat → Nat)
    (st : WriteState) (sg : StagedRegions) (disk : ByteMap)
    (bounce callerData : Buffer) (prog : WriteProgress) : Prop where
  keep : WriteKeep st prog
  bits : st.geometry.clusterBits = bits
  root : fixed 0 ≠ 0
  backing : st.hasBacking = false → ∀ x, under x = 0
  inside : prog.voff + prog.len ≤ st.geometry.virtualSize ∧
    (prog.voff + prog.len - 1) / st.geometry.l2Coverage < st.geometry.l1Size
  store : ∃ held, Store fixed held st sg disk ∧
    StageOk (sceneOf inflate under st sg disk bounce callerData prog) held prog
  linked : ∀ v < st.config.l2Slots, (st.l2Slots v).valid = true →
    (prog.stage.unlinked = true → v ≠ prog.slot) → Linked st sg v

/-- How much of the request is visible in the image. -/
def WriteProgress.visible (geo : Geometry) (prog : WriteProgress) : Nat :=
  if prog.stage = .cowDataDecrement then prog.consumed + prog.winLen geo else prog.consumed

/-! ## Coordinates -/

section

variable {geo : Geometry} {x y k : Nat} {prog : WriteProgress}

theorem Geometry.Wf.table_eq (hgeo : geo.Wf) (h : x / geo.clusterSize = y / geo.clusterSize) :
    x / geo.l2Coverage = y / geo.l2Coverage := by
  rw [hgeo.coverage, ← Nat.div_div_eq_div_mul, ← Nat.div_div_eq_div_mul, h]

theorem Geometry.Wf.cluster_of (hgeo : geo.Wf) (htable : x / geo.l2Coverage = y / geo.l2Coverage)
    (hentry : x / geo.clusterSize % geo.entriesPerL2 = y / geo.clusterSize % geo.entriesPerL2) :
    x / geo.clusterSize = y / geo.clusterSize := by
  rw [← hgeo.cluster_eq x, ← hgeo.cluster_eq y, htable, hentry]

namespace WriteProgress

theorem inOff_lt (hgeo : geo.Wf) (prog : WriteProgress) : prog.inOff geo < geo.clusterSize :=
  Nat.mod_lt _ hgeo.size_pos

theorem inOff_le_cur (geo : Geometry) (prog : WriteProgress) : prog.inOff geo ≤ prog.cur :=
  Nat.mod_le _ _

/-- The request's part of a cluster ends with the cluster. -/
theorem window_le (hgeo : geo.Wf) (prog : WriteProgress) :
    prog.inOff geo + prog.winLen geo ≤ geo.clusterSize := by
  have := prog.inOff_lt hgeo
  unfold winLen
  omega

variable (h : x / geo.clusterSize = prog.cur / geo.clusterSize)

include h in
/-- An offset in the current cluster, from the start of the cluster. -/
theorem base_add_mod : prog.cur - prog.inOff geo + x % geo.clusterSize = x := by
  have hx := Nat.div_add_mod x geo.clusterSize
  have hcur := Nat.div_add_mod prog.cur geo.clusterSize
  unfold inOff
  rw [h] at hx
  omega

theorem base_add_div (hgeo : geo.Wf) (hk : k < geo.clusterSize) :
    (prog.cur - prog.inOff geo + k) / geo.clusterSize = prog.cur / geo.clusterSize := by
  have hcur := Nat.div_add_mod prog.cur geo.clusterSize
  have hbase : prog.cur - prog.inOff geo = geo.clusterSize * (prog.cur / geo.clusterSize) := by
    unfold inOff
    omega
  rw [hbase, Nat.mul_add_div hgeo.size_pos, Nat.div_eq_of_lt hk, add_zero]

include h in
/-- The request's part of the current cluster, as virtual offsets. -/
theorem inWindow_iff : prog.inWindow geo (x % geo.clusterSize) ↔
    prog.cur ≤ x ∧ x < prog.cur + prog.winLen geo := by
  have hbase := base_add_mod h
  have hle := prog.inOff_le_cur geo
  unfold inWindow
  omega

/-- Everything between the write position and the end of the window is in the current cluster. -/
theorem cluster_of_window (hgeo : geo.Wf) (hlo : prog.cur ≤ x)
    (hhi : x < prog.cur + prog.winLen geo) : x / geo.clusterSize = prog.cur / geo.clusterSize := by
  have hend := prog.window_le hgeo
  have heq : x = prog.cur - prog.inOff geo + (x - (prog.cur - prog.inOff geo)) := by omega
  rw [heq]
  exact base_add_div hgeo (by omega)

include h in
/-- The new byte at a virtual offset is the request's. -/
theorem newByte_eq (hlo : prog.cur ≤ x) :
    prog.newByte geo callerData (x % geo.clusterSize) =
    prog.data.byteAt callerData (x - prog.voff) := by
  have hbase := base_add_mod h
  have hle := prog.inOff_le_cur geo
  unfold newByte
  congr 1
  unfold cur at hlo hbase hle
  omega

end WriteProgress

end

/-! ## The same image, stored differently -/

section

variable {bits : Nat} {inflate : Inflate bits} {under : Nat → UInt8} {fixed held : Nat → Nat}
  {st st' st'' : WriteState} {sg sg' sg'' : StagedRegions} {disk disk' disk'' : ByteMap}
  {prog : WriteProgress}

theorem SameImage.refl (st : WriteState) (sg : StagedRegions) (disk : ByteMap) :
    SameImage inflate under st sg disk st sg disk :=
  ⟨rfl, fun _ _ _ _ => rfl, fun _ _ => rfl⟩

theorem SameImage.trans (h : SameImage inflate under st sg disk st' sg' disk')
    (h' : SameImage inflate under st' sg' disk' st'' sg'' disk'') :
    SameImage inflate under st sg disk st'' sg'' disk'' := by
  refine ⟨h'.geometry.trans h.geometry, fun i hi j hj => ?_, fun x hx => ?_⟩
  · rw [h'.tab i (h.geometry ▸ hi) j (h.geometry ▸ hj), h.tab i hi j hj]
  · rw [h'.byte x (h.geometry ▸ hx), h.byte x hx]

theorem Geometry.Wf.entry_lt {geo : Geometry} (hgeo : geo.Wf) (x : Nat) :
    x / geo.clusterSize % geo.entriesPerL2 < geo.entriesPerL2 :=
  Nat.mod_lt _ hgeo.entries_pos

theorem sameImage_of_tab (hwf : st.geometry.Wf) (hgeo : st'.geometry = st.geometry)
    (htab : ∀ i < st.geometry.l1Size, ∀ j < st.geometry.entriesPerL2,
      effTab st' sg' disk i j = effTab st sg disk i j) :
      SameImage inflate under st sg disk st' sg' disk := by
  refine ⟨hgeo, htab, fun x hx => ?_⟩
  unfold effByte
  rw [hgeo, htab _ hx _ (hwf.entry_lt x)]

theorem SameTables.image (h : SameTables st st') (hwf : st.geometry.Wf) (hl1 : sg'.l1 = sg.l1)
    (hwindow : sg'.l2Window = sg.l2Window) : SameImage inflate under st sg disk st' sg' disk := by
  refine sameImage_of_tab hwf h.geometry fun i _ j _ => ?_
  rw [h.tab_eq]
  unfold effTab readStagedL1Entry
  rw [hl1, hwindow]

/-- A plain entry with the zero flag reads as zeroes. -/
theorem entryByte_zero {cs entry x : Nat} (hplain : entry &&& oflagCompressed = 0)
    (hzero : entry &&& qcowOflagZero ≠ 0) : entryByte cs inflate under disk entry x = 0 := by
  simp [entryByte, hplain, hzero]

/-- A plain entry without the zero flag reads its cluster. -/
theorem entryByte_host {cs entry x : Nat} (hplain : entry &&& oflagCompressed = 0)
    (hzero : entry &&& qcowOflagZero = 0) (hne : hostOf entry ≠ 0) :
    entryByte cs inflate under disk entry x = disk (hostOf entry + x % cs) := by
  simp [entryByte, hplain, hzero, hne]

theorem SameTables.scene_eq (h : SameTables st st') (bounce callerData : Buffer)
    (prog : WriteProgress) : sceneOf inflate under st' sg disk bounce callerData prog
      = sceneOf inflate under st sg disk bounce callerData prog := by
  unfold sceneOf effByte
  rw [h.geometry, h.hostOffset, h.tab_eq]

/-- The write position is inside the L1. -/
theorem WriteOk.l1Idx_lt {bounce : Buffer}
    (h : WriteOk inflate under fixed st sg disk bounce callerData prog)
    (hlt : prog.consumed < prog.len) : prog.l1Idx st.geometry < st.geometry.l1Size := by
  refine lt_of_le_of_lt ?_ h.inside.2
  refine Nat.div_le_div_right ?_
  unfold cur
  omega

theorem SameImage.scene_eq (h : SameImage inflate under st sg disk st' sg' disk')
    (hwf : st.geometry.Wf) (hidx : prog.l1Idx st.geometry < st.geometry.l1Size)
    (bounce callerData : Buffer) : sceneOf inflate under st' sg' disk' bounce callerData prog
      = { sceneOf inflate under st sg disk bounce callerData prog with
          blocks := sg'.refblocks
          l1Host := hostOf (readStagedL1Entry sg' (prog.l1Idx st.geometry))
          slotHost := (st'.l2Slots prog.slot).hostOffset
          disk := disk' } := by
  have hold : ∀ k < st.geometry.clusterSize,
      effByte inflate under st' sg' disk' (prog.cur - prog.inOff st.geometry + k)
        = effByte inflate under st sg disk (prog.cur - prog.inOff st.geometry + k) := by
    intro k hk
    refine h.byte _ ?_
    rw [hwf.table_eq (base_add_div hwf hk)]
    exact hidx
  have hentry : effTab st' sg' disk' (prog.l1Idx st.geometry) (prog.l2Idx st.geometry)
      = effTab st sg disk (prog.l1Idx st.geometry) (prog.l2Idx st.geometry) :=
    h.tab _ hidx _ (hwf.entry_lt _)
  simp only [sceneOf, h.geometry, hentry]
  congr 1
  funext k
  split
  · exact hold k ‹_›
  · rfl

variable (hst : Store fixed held st sg disk)

include hst

variable (hbits : st.geometry.clusterBits = bits)

include hbits

variable (htab : ∀ i < st.geometry.l1Size, ∀ j < st.geometry.entriesPerL2, effTab st sg disk' i j =
  effTab st sg disk i j)

include htab

theorem Store.image_of_write (hkeep : ∀ i < st.geometry.l1Size, ∀ j < st.geometry.entriesPerL2,
      effTab st sg disk i j &&& oflagCompressed = 0 ∧ effTab st sg disk i j &&& qcowOflagZero ≠ 0 ∨
      ∀ b, entryRefs st.geometry.clusterBits st.geometry.clusterSize (effTab st sg disk i j)
      (b / st.geometry.clusterSize) ≠ 0 → disk' b = disk b) :
      SameImage inflate under st sg disk st sg disk' := by
  refine ⟨rfl, htab, fun x hx => ?_⟩
  have hj := hst.fit.geo.entry_lt x
  unfold effByte
  rw [htab _ hx _ hj]
  rcases hkeep _ hx _ hj with ⟨hplain, hzero⟩ | hdisk
  · rw [entryByte_zero hplain hzero, entryByte_zero hplain hzero]
  · rw [hbits] at hdisk
    exact entryByte_frame hst.fit.geo.size_pos (hst.ledger.entryOk _ hx _ hj) hdisk

theorem Store.image_of_cluster {H : Nat} (hdisk : ∀ b, b / st.geometry.clusterSize ≠ H →
    disk' b = disk b) (hfree : ∀ i < st.geometry.l1Size, ∀ j < st.geometry.entriesPerL2,
      entryRefs st.geometry.clusterBits st.geometry.clusterSize (effTab st sg disk i j) H = 0 ∨
      effTab st sg disk i j &&& oflagCompressed = 0 ∧ effTab st sg disk i j &&& qcowOflagZero ≠ 0) :
    SameImage inflate under st sg disk st sg disk' := by
  refine hst.image_of_write hbits htab fun i hi j hj => ?_
  rcases hfree i hi j hj with hrefs | hzero
  · refine .inr fun b hb => hdisk b ?_
    rintro rfl
    exact hb hrefs
  · exact .inl hzero

omit htab

/-- Writing a dirty slot's table to its cluster: the cluster belongs to the table alone, so no entry
shows it. -/
theorem Store.writeback_image {v : Nat} (hv : v < st.config.l2Slots)
    (hvalid : (st.l2Slots v).valid = true) (hd : (st.l2Slots v).dirty = true)
    (hdisk : disk' = disk.splice (st.l2Slots v).hostOffset st.geometry.clusterSize
      (sg.l2Window.bytes.drop (v * st.geometry.clusterSize))) :
      SameImage inflate under st sg disk st sg disk' := by
  obtain ⟨-, htab, -⟩ := hst.writeback hv hvalid hd hdisk
  refine hst.image_of_cluster hbits htab
    (H := (st.l2Slots v).hostOffset / st.geometry.clusterSize) (fun b hb => ?_) fun i hi j hj =>
    .inl ?_
  · rw [hdisk]
    show (disk.splice ((st.l2Slots v).hostOffset + 0) st.geometry.clusterSize _) b = disk b
    exact splice_cluster_outside hst.fit.geo.size_pos (hst.slot v hv hvalid).2.ok.aligned
      (by omega) hb
  · have halone := (hst.slot_alone hv hvalid).2.2 (i, j) (entry_mem hi hj) (by
      intro heq
      have := congrArg Prod.snd heq
      omega)
    rwa [refNames_entry hj] at halone

end

end Instar.Write
