import Instar.Qcow2.Layout
import Instar.Write.Requests

/-!
# Writes refine the virtual disk

The virtual disk of a consistent image is what its L1 and L2 tables on disk say.  A new planner
state over staged copies of the metadata is settled, and after a completed flush the disk by itself
holds the image again.  Hence runs of requests that end in a flush write through to the disk what
was asked for, leave every snapshot alone and keep the refcounts equal to the references.
-/

namespace Instar.Write

open Instar.Qcow2 Instar.RefCount ByteMap Layout

/-- The layout of the image of a planner state. -/
def Geometry.layout (geo : Geometry) (snapshots others : List (Nat × Nat)) : Layout where
  clusterBits := geo.clusterBits
  clusterSize := geo.clusterSize
  l1TableOffset := geo.l1TableOffset
  l1Size := geo.l1Size
  refcountTableOffset := geo.refcountTableOffset
  refcountTableClusters := geo.refcountTableClusters
  snapshots
  others

/-- The staged regions hold what the disk holds; a refblock that is not there is staged as
zeroes. -/
structure StagedFrom (L : Layout) (sg : StagedRegions) (disk : ByteMap) : Prop where
  l1 : ∀ k < L.l1Size * 8, sg.l1.bytes k = disk (L.l1TableOffset + k)
  reach : sg.refblocks.len / L.clusterSize ≤ L.refblocks
  table : ∀ k < sg.refblocks.len / L.clusterSize * 8,
    sg.refcountTable.bytes k = disk (L.refcountTableOffset + k)
  blocks : ∀ i < sg.refblocks.len / L.clusterSize, ∀ k < L.clusterSize,
    sg.refblocks.bytes (i * L.clusterSize + k)
      = if L.blockHost disk i = 0 then 0 else disk (L.blockHost disk i + k)

/-- The references to cluster `c` that do not come from the active L1, as the staged refcounts have
them. -/
def outsideRefs (geo : Geometry) (rb : Buffer) (L : Layout) (disk : ByteMap) (c : Nat) : Nat :=
  if c < counted geo rb then rcAt rb.bytes c - L.activeRefs disk c else 0

section

variable {fixed host : Nat → Nat} {n i j c : Nat} {st : WriteState} {sg : StagedRegions}
variable {disk : ByteMap} {geo : Geometry} {snaps rest : List (Nat × Nat)}

/-! ## The layout and the planner's numbers -/

variable {rb : Buffer} {disk' : ByteMap} {L : Layout}

section

variable (h : geo.Wf) (hL : L = geo.layout snaps rest)

include h hL

theorem Geometry.Wf.layout_entries : L.entriesPerL2 = geo.entriesPerL2 := by
  subst hL
  show geo.clusterSize / 8 = geo.entriesPerL2
  have := h.entries
  omega

theorem Geometry.Wf.layout_coverage : L.l2Coverage = geo.l2Coverage := by
  rw [Layout.l2Coverage, h.layout_entries hL, h.coverage, hL]
  rfl

theorem Geometry.Wf.layout_perBlock : L.entriesPerRefblock = geo.entriesPerRefblock := by
  subst hL
  show geo.clusterSize / 2 = geo.entriesPerRefblock
  have := h.perBlock
  omega

theorem Geometry.Wf.layout_activeRefs {tab : Nat → Nat → Nat}
    (hhost : ∀ i < geo.l1Size, host i = hostOf (diskL1 disk geo.l1TableOffset i))
    (htab : ∀ i < geo.l1Size, ∀ j < geo.entriesPerL2, tab i j = L.entry disk i j) :
    refTotal geo host tab c = L.activeRefs disk c := by
  unfold activeRefs Layout.chainRefs l1Refs
  rw [h.layout_entries hL]
  subst hL
  exact chainRefs_congr hhost htab c

theorem Geometry.Wf.layout_refcount (hc : c < counted geo rb)
    (hreach : rb.len / geo.clusterSize ≤ L.refblocks)
    (hblocks : ∀ i < rb.len / geo.clusterSize, ∀ k < geo.clusterSize,
      rb.bytes (i * geo.clusterSize + k)
        = if L.blockHost disk i = 0 then 0
          else disk (L.blockHost disk i + k)) :
    rcAt rb.bytes c = L.refcount disk c := by
  have hper := h.perBlock
  have hmod := Nat.mod_lt c h.perBlock_pos
  have hblock : c / geo.entriesPerRefblock < rb.len / geo.clusterSize :=
    (Nat.div_lt_iff_lt_mul h.perBlock_pos).mpr hc
  have hoff : c / geo.entriesPerRefblock * geo.clusterSize + c % geo.entriesPerRefblock * 2 =
      2 * c :=
    entry_offset (by omega) c
  unfold refcount
  rw [h.layout_perBlock hL]
  by_cases hhost : L.blockHost disk (c / geo.entriesPerRefblock) = 0
  · rw [if_neg fun hand => hand.2 hhost, ← be_zeros (2 * c) 2]
    refine be_congr fun k hk => ?_
    have hbyte := hblocks _ hblock (c % geo.entriesPerRefblock * 2 + k) (by omega)
    rw [if_pos hhost, ← add_assoc, hoff] at hbyte
    exact hbyte
  · rw [if_pos ⟨lt_of_lt_of_le hblock hreach, hhost⟩]
    refine be_congr fun k hk => ?_
    have hbyte := hblocks _ hblock (c % geo.entriesPerRefblock * 2 + k) (by omega)
    rw [if_neg hhost, ← add_assoc, hoff] at hbyte
    rw [hbyte]
    congr 1
    omega

end

/-! ## An image with nothing dirty is on the disk -/

section

theorem Resting.host_on_disk (h : Resting fixed n host st sg disk) (hl1 : st.l1Dirty = false)
    (hi : i < st.geometry.l1Size) :
    effHost st sg i = hostOf (diskL1 disk st.geometry.l1TableOffset i) := by
  have hentry : readStagedL1Entry sg i = diskL1 disk st.geometry.l1TableOffset i :=
    be_congr fun k hk => by rw [h.synced.l1 hl1 _ (by omega), add_assoc]
  rw [← hentry]
  cases hslot : st.findSlot i with
  | none => exact effHost_none hslot
  | some v =>
    obtain ⟨hv, hvalid, hidx⟩ := WriteState.findSlot_some hslot
    rw [effHost_some hslot, ← hidx]
    exact (h.linked v hv hvalid).symm

variable (hL : L = st.geometry.layout snaps rest)

include hL

theorem Resting.tab_on_disk (h : Resting fixed n host st sg disk) (hslots : SlotsClean st)
    (hl1 : st.l1Dirty = false) (hi : i < st.geometry.l1Size) (hj : j < st.geometry.entriesPerL2) :
    effTab st sg disk i j = L.entry disk i j := by
  have hhost := h.host_on_disk hl1 hi
  subst hL
  show _ = diskTab disk (hostOf (diskL1 disk st.geometry.l1TableOffset i)) j
  rw [← hhost]
  cases hslot : st.findSlot i with
  | none => exact effTab_none hslot
  | some v =>
    obtain ⟨hv, hvalid, hidx⟩ := WriteState.findSlot_some hslot
    have hclean : (st.l2Slots v).dirty = false := by
      have hnot := hslots v hv
      simpa [hvalid] using hnot
    have hentry := h.store.fit.geo.entry_le hj
    rw [effTab_some hslot, effHost_some hslot, diskTab, if_neg (h.store.slot v hv hvalid).2.ne]
    refine be_congr fun k hk => ?_
    rw [add_assoc, add_assoc]
    exact h.store.clean v hv hvalid hclean (j * 8 + k) (by omega)

theorem Resting.byte_on_disk {bits : Nat} {inflate : Inflate bits} {under : Nat → UInt8} {x : Nat}
    (h : Resting fixed n host st sg disk) (hslots : SlotsClean st)
    (hl1 : st.l1Dirty = false) (hx : x / st.geometry.l2Coverage < st.geometry.l1Size) :
    effByte inflate under st sg disk x = L.byte disk inflate under x := by
  have hwf := h.store.fit.geo
  have htab : effTab st sg disk (x / st.geometry.l2Coverage)
      (x / st.geometry.clusterSize % st.geometry.entriesPerL2)
      = L.entry disk (x / st.geometry.l2Coverage)
      (x / st.geometry.clusterSize % st.geometry.entriesPerL2) :=
    h.tab_on_disk hL hslots hl1 hx (hwf.entry_lt x)
  unfold effByte Layout.byte
  rw [htab, hwf.layout_coverage hL, hwf.layout_entries hL]
  subst hL
  exact (if_pos hx).symm

end

/-! ## A consistent image -/

section

variable (h : Consistent L disk (counted geo rb))
  (hrc : ∀ c < counted geo rb, rcAt rb.bytes c = L.refcount disk c)

include h hrc

/-- The references from outside the active L1 are those of the metadata and of the snapshots. -/
theorem outsideRefs_eq (hne : L.refs disk c ≠ 0) :
    outsideRefs geo rb L disk c = L.tableRefs disk c + L.plainRefs c + L.snapshotRefs disk c := by
  obtain ⟨hlt, -⟩ := h.counted c hne
  rw [outsideRefs, if_pos hlt, hrc c hlt, h.outside hne]

theorem outsideRefs_ne (hne : L.tableRefs disk c + L.plainRefs c + L.snapshotRefs disk c ≠ 0) :
    outsideRefs geo rb L disk c ≠ 0 := by
  rwa [outsideRefs_eq h hrc]
  unfold refs
  omega

variable (hL : L = geo.layout snaps rest)

include hL

omit h hrc in
theorem tableRefs_of_flushed (hreach : n ≤ L.refblocks) (hc : Flushed geo n (L.blockHost disk) c) :
    L.tableRefs disk c ≠ 0 := by
  subst hL
  rcases hc with ⟨k, hk, rfl⟩ | ⟨i, hi, hne, rfl⟩
  · exact tableRefs_l1 hk
  · exact tableRefs_block (lt_of_lt_of_le hi hreach) hne

theorem home_of_consistent (hreach : n ≤ L.refblocks) :
    Home geo (outsideRefs geo rb L disk) n (L.blockHost disk) := by
  subst hL
  refine ⟨fun c hc => ?_, fun i hi => h.block_aligned i (by omega),
    fun i hi j hj hne hne' heq => ?_, fun i hi hne k hk heq => ?_⟩
  · have htable := tableRefs_of_flushed rfl hreach hc
    exact outsideRefs_ne h hrc (by omega)
  · exact h.block_inj (by omega) (by omega) hne hne' heq
  · exact h.block_apart (by omega) hne hk heq

theorem untouched_of_fixed {b : Nat} (hreach : n ≤ L.refblocks) (hb : L.Fixed disk b) :
    Untouched geo (outsideRefs geo rb L disk) n (L.blockHost disk) b := by
  subst hL
  have hne : plainRefs _ (b / geo.clusterSize) + snapshotRefs _ disk (b / geo.clusterSize) ≠ 0 := hb
  refine ⟨outsideRefs_ne h hrc (by omega), fun hflushed => ?_⟩
  obtain ⟨-, hplain, hsnap, -⟩ := h.table_alone (tableRefs_of_flushed rfl hreach hflushed)
  omega

/-- So are the refblocks that are not staged. -/
theorem untouched_block {b k : Nat} (hk : k < L.refblocks) (hkn : n ≤ k)
    (hne : L.blockHost disk k ≠ 0)
    (hb : b / geo.clusterSize = L.blockHost disk k / geo.clusterSize) :
    Untouched geo (outsideRefs geo rb L disk) n (L.blockHost disk) b := by
  subst hL
  have htable : tableRefs _ disk (b / geo.clusterSize) ≠ 0 := hb ▸ tableRefs_block hk hne
  refine ⟨outsideRefs_ne h hrc (by omega), fun hflushed => ?_⟩
  rw [hb] at hflushed
  rcases hflushed with ⟨m, hm, heq⟩ | ⟨i, hi, hne', heq⟩
  · exact h.block_apart hk hne hm heq
  · have := h.block_inj (by omega) hk hne' hne heq
    omega

/-- The counts of clusters beyond the staged refblocks stay as they are. -/
theorem refcount_beyond (hwf : geo.Wf) (hreach : rb.len / geo.clusterSize ≤ L.refblocks)
    (hdisk : ∀ b, Untouched geo (outsideRefs geo rb L disk) (rb.len / geo.clusterSize)
      (L.blockHost disk) b →
      disk' b = disk b) (hc : counted geo rb ≤ c) : L.refcount disk' c = L.refcount disk c := by
  have hblock : rb.len / geo.clusterSize ≤ c / geo.entriesPerRefblock :=
    (Nat.le_div_iff_mul_le hwf.perBlock_pos).mpr hc
  have hper := hwf.perBlock
  have hmod := Nat.mod_lt c hwf.perBlock_pos
  have hhost : ∀ k < L.refblocks, L.blockHost disk' k = L.blockHost disk k :=
    fun k hk => blockHost_congr (fun b hb => hdisk b (untouched_of_fixed h hrc hL hreach hb)) hk
  unfold refcount
  rw [hwf.layout_perBlock hL]
  by_cases hk : c / geo.entriesPerRefblock < L.refblocks
  · rw [hhost _ hk]
    by_cases hne : L.blockHost disk (c / geo.entriesPerRefblock) = 0
    · rw [if_neg fun hand => hand.2 hne, if_neg fun hand => hand.2 hne]
    · rw [if_pos ⟨hk, hne⟩, if_pos ⟨hk, hne⟩]
      refine be_congr fun m hm => hdisk _ (untouched_block h hrc hL hk hblock hne ?_)
      subst hL
      rw [add_assoc]
      exact div_of_aligned hwf.size_pos (h.block_aligned _ hk) (by omega)
  · rw [if_neg fun hand => hk hand.1, if_neg fun hand => hk hand.1]

end

variable (hL : L = st.geometry.layout snaps rest)

/-- A state in which nothing has been written yet. -/
structure Fresh (st : WriteState) : Prop where
  geo : st.geometry.Wf
  slots : ∀ v, (st.l2Slots v).valid = false
  l1 : st.l1Dirty = false
  blocks : ∀ i, st.refblockDirty i = false

theorem Fresh.new (hgeo : st.geometry.Wf) (hnew : newStateImpl hdr cfg cow = .ok st) :
    Fresh st := by
  obtain ⟨-, -, -, rfl⟩ := newStateImpl_ok hnew
  exact ⟨hgeo, fun _ => rfl, rfl, fun _ => rfl⟩

theorem Fresh.clean (h : Fresh st) : SlotsClean st := by
  intro v _ hdirty
  rw [h.slots v] at hdirty
  cases hdirty.1

include hL

/-- The staged copy of a consistent image is at rest. -/
theorem Fresh.resting (hfresh : Fresh st) (hfit : BlocksFit st sg.refblocks)
    (hcons : Consistent L disk (counted st.geometry sg.refblocks))
    (hstaged : StagedFrom L sg disk) :
    Resting (outsideRefs st.geometry sg.refblocks L disk)
    (sg.refblocks.len / st.geometry.clusterSize)
      (L.blockHost disk) st sg disk := by
  have hwf := hfresh.geo
  have hinvalid : ∀ {v : Nat} {P : Prop}, (st.l2Slots v).valid = true → P := by
    intro v P hvalid
    rw [hfresh.slots v] at hvalid
    cases hvalid
  have hnone : ∀ i, st.findSlot i = none := by
    intro i
    rw [WriteState.findSlot_eq_none]
    exact fun v _ hvalid => hinvalid hvalid
  have hrc : ∀ c < counted st.geometry sg.refblocks, rcAt sg.refblocks.bytes c =
      L.refcount disk c :=
    fun c hc => hwf.layout_refcount hL hc (hL ▸ hstaged.reach) (hL ▸ hstaged.blocks)
  have hl1 : ∀ i < st.geometry.l1Size, readStagedL1Entry sg i =
      diskL1 disk st.geometry.l1TableOffset i := by
    intro i hi
    refine be_congr fun k hk => ?_
    have hlt : i * 8 + k < st.geometry.l1Size * 8 := by omega
    subst hL
    rw [add_assoc]
    exact hstaged.l1 _ hlt
  have hhost : ∀ i < st.geometry.l1Size,
      effHost st sg i = hostOf (diskL1 disk st.geometry.l1TableOffset i) := by
    intro i hi
    rw [effHost_none (hnone i), hl1 i hi]
  have htab : ∀ i < st.geometry.l1Size, ∀ j < st.geometry.entriesPerL2,
      effTab st sg disk i j = L.entry disk i j := by
    intro i hi j hj
    rw [effTab_none (hnone i), hhost i hi, hL]
    rfl
  have htotal : ∀ c, refTotal st.geometry (effHost st sg) (effTab st sg disk) c =
      L.activeRefs disk c :=
    fun c => hwf.layout_activeRefs hL hhost htab
  have hrefs : ∀ c, L.activeRefs disk c ≠ 0 → L.refs disk c ≠ 0 := by
    intro c hc
    unfold refs
    omega
  subst hL
  refine ⟨⟨hfit, fun _ _ _ _ hvalid => hinvalid hvalid, fun _ _ => hinvalid, fun _ _ => hinvalid,
    fun i hi => ?_, fun i hi j hj => ?_, fun c hc => ?_, fun c hc => ?_⟩, fun _ _ => hinvalid,
    rfl, fun i hi => ?_, fun _ k hk => hstaged.l1 k hk, fun i hi _ k hk => hstaged.blocks i hi k hk,
    fun c hc => ?_⟩
  · rw [hhost i hi]
    exact hostOk_hostOf (hcons.l1_aligned i hi)
  · rw [htab i hi j hj]
    exact hcons.l2_aligned i hi j (by rwa [hwf.layout_entries rfl])
  · rw [htotal, outsideRefs, if_pos hc, hrc c hc]
    by_cases hzero : (st.geometry.layout snaps rest).activeRefs disk c = 0
    · omega
    · have hle := (hcons.counted c (hrefs c hzero)).2
      unfold refs at hle
      omega
  · rw [htotal]
    by_contra hne
    have := (hcons.counted c (hrefs c hne)).1
    omega
  · refine congrArg hostOf (be_congr fun k hk => ?_)
    have hlt : i * 8 + k < sg.refblocks.len / st.geometry.clusterSize * 8 := by omega
    rw [add_assoc]
    exact hstaged.table _ hlt
  · have hone := hcons.tables c (tableRefs_of_flushed rfl hstaged.reach hc)
    obtain ⟨hlt, hcount⟩ := hcons.counted c (by omega)
    exact ⟨hlt, by rw [hrc c hlt, hcount, hone]⟩

/-- A new planner state over a consistent image is settled. -/
theorem settled_new {header : Buffer} (hparse : QcowHeader.parse header = some hdr)
    (hnew : newStateImpl hdr cfg cow = .ok st) (hcluster : regions.clusterSize = hdr.clusterSize)
    (hvalid : validateStaged st regions.staged 1 = .ok ())
    (hbacking : st.hasBacking = false → ∀ x, under x = 0)
    (hcons : Consistent L (devices.disk cfg.device) (counted st.geometry regions.staged.refblocks))
    (hstaged : StagedFrom L regions.staged (devices.disk cfg.device)) :
    Settled st.geometry.clusterBits under
      (outsideRefs st.geometry regions.staged.refblocks L (devices.disk cfg.device))
      (regions.staged.refblocks.len / st.geometry.clusterSize)
      (L.blockHost (devices.disk cfg.device))
      ⟨st, regions, devices⟩ := by
  have hready : Ready ⟨st, regions, devices⟩ := Ready.new hparse hnew hcluster
  obtain ⟨-, -, hlimit, hst⟩ := newStateImpl_ok hnew
  have hfresh : Fresh st := .new hready.geo hnew
  have hconfig : st.config = cfg := by rw [hst]
  have hfit : BlocksFit st regions.staged.refblocks := by
    refine CursorFit.blocks ⟨hconfig ▸ hlimit, ?_⟩ hready.geo hvalid
    rw [hst]
    simp
  have hrc : ∀ c < counted st.geometry regions.staged.refblocks,
      rcAt regions.staged.refblocks.bytes c = L.refcount (devices.disk cfg.device) c :=
    fun c hc => hready.geo.layout_refcount hL hc (hL ▸ hstaged.reach) (hL ▸ hstaged.blocks)
  refine ⟨hready, by rw [hst]; rfl, rfl, ?_, hbacking, home_of_consistent hcons hrc hL (hL
    ▸ hstaged.reach), ?_⟩
  · -- the header holds cluster 0
    have hheader : extentRefs st.geometry.clusterSize (0, st.geometry.clusterSize)
        (0 / st.geometry.clusterSize) = 1 :=
      extentRefs_of_mem le_rfl (by simpa using hready.geo.size_pos)
    rw [Nat.zero_div] at hheader
    have hplain : L.plainRefs 0 ≠ 0 := by
      subst hL
      show extentRefs st.geometry.clusterSize (0, st.geometry.clusterSize) 0 + _ + _ + _ ≠ 0
      omega
    exact outsideRefs_ne hcons hrc (by omega)
  · show Resting _ _ _ st regions.staged (devices.disk st.config.device)
    rw [hconfig]
    exact hfresh.resting hL hfit hcons hstaged

/-- Where nothing is dirty, and a run has kept what it has to keep, the counts on disk are right. -/
theorem Resting.refcount_eq (h : Resting (outsideRefs st.geometry rb L disk)
      (rb.len / st.geometry.clusterSize) (L.blockHost disk)
      st sg disk') (hpast : FlushProgress.Past st ⟨.endBarrier, 0⟩)
    (hcons : Consistent L disk (counted st.geometry rb))
    (hreach : rb.len / st.geometry.clusterSize ≤ L.refblocks)
    (hrc : ∀ c < counted st.geometry rb, rcAt rb.bytes c = L.refcount disk c)
    (hcounts : ∀ c, L.refcount disk c = L.refs disk c) (hkept : ∀ b, Untouched st.geometry
      (outsideRefs st.geometry rb L disk)
      (rb.len / st.geometry.clusterSize) (L.blockHost disk) b →
      disk' b = disk b) (c : Nat) : L.refcount disk' c
      = L.refs disk' c := by
  obtain ⟨hclean, hl1, hblocks⟩ := hpast
  have hwf := h.store.fit.geo
  have hpos : 0 < L.clusterSize := hL ▸ hwf.size_pos
  have hfixed : ∀ b, L.Fixed disk b → disk' b = disk b :=
    fun b hb => hkept b (untouched_of_fixed hcons hrc hL hreach hb)
  have hlen : sg.refblocks.len / st.geometry.clusterSize = rb.len / st.geometry.clusterSize :=
    h.synced.count
  have hcounted : counted st.geometry sg.refblocks = counted st.geometry rb := by
    rw [counted, hlen, counted]
  -- the references of the final image, in terms of those before
  have hactive : refTotal st.geometry (effHost st sg) (effTab st sg disk') c =
      L.activeRefs disk' c :=
    hwf.layout_activeRefs hL (fun i hi => h.host_on_disk hl1 hi)
      fun i hi j hj => h.tab_on_disk hL hclean hl1 hi hj
  have hrefs : L.refs disk' c = L.tableRefs disk c + L.plainRefs c + L.snapshotRefs disk c
        + refTotal st.geometry (effHost st sg) (effTab st sg disk') c := by
    rw [refs, tableRefs_congr hfixed, hactive,
      snapshotRefs_congr hpos hcons.snapshot_aligned hfixed]
  by_cases hc : c < counted st.geometry rb
  · have hstaged : rcAt sg.refblocks.bytes c = L.refcount disk' c := by
      refine hwf.layout_refcount hL (hcounted ▸ hc) (hlen ▸ hreach) fun i hi k hk => ?_
      rw [hlen] at hi
      have hdirty : st.refblockDirty i = false :=
        hblocks i (lt_of_lt_of_le (hlen ▸ hi) h.store.fit.count)
      rw [blockHost_congr hfixed (lt_of_lt_of_le hi hreach)]
      exact h.synced.blocks i hi hdirty k hk
    have hcount := h.store.ledger.count c (hcounted ▸ hc)
    have houtside : outsideRefs st.geometry rb L disk c = L.tableRefs disk c + L.plainRefs c
          + L.snapshotRefs disk c := by
      by_cases hzero : L.refs disk c = 0
      · have := hcounts c
        rw [outsideRefs, if_pos hc, hrc c hc]
        unfold refs at hzero this
        omega
      · exact outsideRefs_eq hcons hrc hzero
    rw [← hstaged, hcount, houtside, hrefs]
    omega
  · have hzero : L.refs disk c = 0 := by
      by_contra hne
      exact hc (hcons.counted c hne).1
    have hcovered := h.store.ledger.covered c (by omega)
    rw [refcount_beyond hcons hrc hL hwf hreach hkept (by omega), hcounts c, hzero, hrefs, hcovered]
    unfold refs at hzero
    omega

/-! ## Runs -/

variable {header : Buffer} {hdr : QcowHeader} {cfg : StagingConfig} {cow : Bool} {regions : Regions}
  {devices : Devices} {capacity : Nat} {reqs : List Request} {sys' : Sys} {replies : List Reply}

/-- A run that ends with a flush, from a new state over a consistent image. -/
theorem run_closed (hparse : QcowHeader.parse header = some hdr)
    (hnew : newStateImpl hdr cfg cow = .ok st)
    (hcluster : regions.clusterSize = hdr.clusterSize) (hbacking : st.hasBacking = false →
      ∀ x, under x = 0)
    (hcons : Consistent L (devices.disk cfg.device) (counted st.geometry regions.staged.refblocks))
    (hstaged : StagedFrom L regions.staged (devices.disk cfg.device)) (hcap : 1 ≤ capacity)
    (hrun : runRequests capacity (reqs ++ [.flush]) ⟨st, regions, devices⟩ = .done sys' replies)
    (hok : ∀ reply ∈ replies, reply.result = .ok ()) (inflate : Inflate st.geometry.clusterBits) :
    ∃ sys1, sys1.devices = sys'.devices ∧ sys1.disk = sys'.disk ∧
        Settled st.geometry.clusterBits under
        (outsideRefs st.geometry regions.staged.refblocks L (devices.disk cfg.device))
        (regions.staged.refblocks.len / st.geometry.clusterSize)
        (L.blockHost (devices.disk cfg.device))
        ⟨st, regions, devices⟩ ∧
      Answered inflate under (outsideRefs st.geometry regions.staged.refblocks L
        (devices.disk cfg.device)) (regions.staged.refblocks.len / st.geometry.clusterSize)
        (L.blockHost (devices.disk cfg.device)) (lastByte reqs)
        ⟨st, regions, devices⟩ sys1 ∧
      FlushProgress.Past sys1.state ⟨.endBarrier, 0⟩ := by
  have hready : Ready ⟨st, regions, devices⟩ := Ready.new hparse hnew hcluster
  have hclear : st.pendingZeroClearAll = st := by
    obtain ⟨-, -, -, rfl⟩ := newStateImpl_ok hnew
    rfl
  obtain ⟨sys1, hrun1, hsettle⟩ := runEager_of_runRequests hcap hready hclear hrun
  have hvalid : validateStaged st regions.staged 1 = .ok () := by
    cases reqs with
    | nil | cons req reqs => exact validateStaged_of_runEager hrun1 hok
  have hsettled := settled_new hL hparse hnew hcluster hvalid hbacking hcons hstaged
  obtain ⟨hanswered, hpast⟩ := hsettled.run_flush hrun1 hok
  have hdevs : sys1.settle.devices = sys'.settle.devices := by rw [hsettle]
  have hdisk : sys1.settle.disk = sys'.settle.disk := by rw [hsettle]
  exact ⟨sys1, hdevs, hdisk, hsettled, hanswered, hpast⟩

omit hL

/-- Reading the disk through its L1 and L2 tables after a run gives the byte of the last request
that covers an offset, and elsewhere what was there before; entries of untouched clusters are
unchanged. -/
theorem runRequests_refines (hparse : QcowHeader.parse header = some hdr)
    (hnew : newStateImpl hdr cfg cow = .ok st) (hcluster : regions.clusterSize = hdr.clusterSize)
    (hbacking : st.hasBacking = false → ∀ x, under x = 0)
    (hcons : Consistent (st.geometry.layout snaps rest) (devices.disk cfg.device)
      (counted st.geometry regions.staged.refblocks))
    (hstaged : StagedFrom (st.geometry.layout snaps rest) regions.staged
      (devices.disk cfg.device)) (hcap : 1 ≤ capacity)
    (hrun : runRequests capacity (reqs ++ [.flush]) ⟨st, regions, devices⟩ = .done sys' replies)
    (hok : ∀ reply ∈ replies, reply.result = .ok ()) (inflate : Inflate st.geometry.clusterBits) :
    (∀ x < st.geometry.virtualSize, (st.geometry.layout snaps rest).byte sys'.disk inflate under x
        = (lastByte reqs x).getD
          ((st.geometry.layout snaps rest).byte (devices.disk cfg.device) inflate under x)) ∧
    ∀ i < st.geometry.l1Size, ∀ j < st.geometry.entriesPerL2, (∀ x, x / st.geometry.l2Coverage = i →
        x / st.geometry.clusterSize % st.geometry.entriesPerL2 = j → lastByte reqs x = none) →
      (st.geometry.layout snaps rest).entry sys'.disk i j
        = (st.geometry.layout snaps rest).entry (devices.disk cfg.device) i j := by
  obtain ⟨sys1, -, hdisk, hstart, hanswered, hclean, hl1, -⟩ :=
    run_closed rfl hparse hnew hcluster hbacking hcons hstaged hcap hrun hok inflate
  have hwf := hstart.ready.geo
  have hfresh : Fresh st := .new hwf hnew
  have hconfig : st.config = cfg := by
    obtain ⟨-, -, -, rfl⟩ := newStateImpl_ok hnew
    rfl
  have hgeo : sys1.state.geometry = st.geometry := hanswered.setup.geometry
  have hrest := hstart.resting
  have hrest1 := hanswered.settled.resting
  rw [← hdisk, ← hconfig]
  constructor
  · intro x hsize
    by_cases hx : x / st.geometry.l2Coverage < st.geometry.l1Size
    · have hafter : sys1.byte inflate under x
          = (sys1.state.geometry.layout snaps rest).byte sys1.disk inflate under x :=
        hrest1.byte_on_disk rfl hclean hl1 (hgeo ▸ hx)
      have hbefore : Sys.byte inflate under ⟨st, regions, devices⟩ x
          = (st.geometry.layout snaps rest).byte (devices.disk st.config.device) inflate
            under x := hrest.byte_on_disk rfl hfresh.clean hfresh.l1 hx
      rw [hgeo] at hafter
      rw [← hafter, ← hbefore]
      exact hanswered.byte x hx hsize
    · -- nothing beyond the L1 can be written
      have hnone : lastByte reqs x = none := by
        by_contra hne
        exact hx (hanswered.inside x hne)
      have hout : ¬ x / (st.geometry.layout snaps rest).l2Coverage
          < (st.geometry.layout snaps rest).l1Size := by
        rw [hwf.layout_coverage rfl]
        exact hx
      rw [hnone, byte, if_neg hout, byte, if_neg hout]
      rfl
  · intro i hi j hj hout
    have hafter : sys1.entry i j = (sys1.state.geometry.layout snaps rest).entry sys1.disk i j :=
      hrest1.tab_on_disk rfl hclean hl1 (hgeo ▸ hi) (hgeo ▸ hj)
    have hbefore : Sys.entry ⟨st, regions, devices⟩ i j
        = (st.geometry.layout snaps rest).entry (devices.disk st.config.device) i j :=
      hrest.tab_on_disk rfl hfresh.clean hfresh.l1 hi hj
    rw [hgeo] at hafter
    rw [← hafter, ← hbefore]
    exact hanswered.entry i hi j hj hout

/-- Copy-on-write leaves every cluster of a snapshot alone, at every step, and after a flush the
refcounts on disk equal the references again. -/
theorem runRequests_cow_conserves (hparse : QcowHeader.parse header = some hdr)
    (hnew : newStateCow hdr cfg = .ok st) (hcluster : regions.clusterSize = hdr.clusterSize)
    (hcons : Consistent (st.geometry.layout snaps rest) (devices.disk cfg.device)
      (counted st.geometry regions.staged.refblocks))
    (hcounts : ∀ c, (st.geometry.layout snaps rest).refcount (devices.disk cfg.device) c
      = (st.geometry.layout snaps rest).refs (devices.disk cfg.device) c)
    (hstaged : StagedFrom (st.geometry.layout snaps rest) regions.staged
      (devices.disk cfg.device)) (hcap : 1 ≤ capacity)
    (hrun : runRequests capacity (reqs ++ [.flush]) ⟨st, regions, devices⟩ = .done sys' replies)
    (hok : ∀ reply ∈ replies, reply.result = .ok ()) : (∀ s ∈ snaps, ∀ c,
      (st.geometry.layout snaps rest).chainRefs (devices.disk cfg.device) s.1 s.2 c ≠ 0 ∨
        extentRefs st.geometry.clusterSize (s.1, s.2 * 8) c ≠ 0 →
      (devices.get cfg.device).Spares (fun b => b / st.geometry.clusterSize = c)
        (sys'.devices.get cfg.device)) ∧
    ∀ c, (st.geometry.layout snaps rest).refcount sys'.disk c
      = (st.geometry.layout snaps rest).refs sys'.disk c := by
  obtain ⟨sys1, hdevs, hdisk, hstart, hanswered, hclean, hl1, hblocks⟩ :=
    run_closed rfl hparse hnew hcluster
      (fun _ _ => rfl : st.hasBacking = false → ∀ x : Nat, (0 : UInt8) = 0)
      hcons hstaged hcap hrun hok (Inflate.blank _)
  have hwf := hstart.ready.geo
  have hconfig : st.config = cfg := by
    obtain ⟨-, -, -, rfl⟩ := newStateImpl_ok hnew
    rfl
  have hgeo : sys1.state.geometry = st.geometry := hanswered.setup.geometry
  have hrc : ∀ c < counted st.geometry regions.staged.refblocks,
      rcAt regions.staged.refblocks.bytes c
      = (st.geometry.layout snaps rest).refcount (devices.disk cfg.device) c :=
    fun c hc => hwf.layout_refcount rfl hc hstaged.reach hstaged.blocks
  have hspares : devices.Spares cfg.device _ sys1.devices := hconfig ▸ hanswered.spares
  have hdisk1 : sys1.disk = sys1.devices.disk cfg.device := by
    show sys1.devices.disk sys1.state.config.device = _
    rw [hanswered.setup.config]
    exact congrArg (fun config : StagingConfig => sys1.devices.disk config.device) hconfig
  constructor
  · intro s hs c hc
    rw [← hdevs]
    refine hspares.own.mono fun b hb => untouched_of_fixed hcons hrc rfl hstaged.reach ?_
    subst hb
    rcases hc with hc | hc
    · exact snapshotRefs_chain hs hc
    · exact plainRefs_snapshot hs hc
  · intro c
    have hrest := hanswered.settled.resting
    have hkept := fun b hb => hspares.bytes (b := b) hb
    rw [← hdisk1] at hkept
    rw [← hgeo] at hcons hstaged hcounts hrc hrest hkept ⊢
    rw [← hdisk]
    exact hrest.refcount_eq rfl ⟨hclean, hl1, hblocks⟩ hcons hstaged.reach hrc hcounts hkept c

/-- An image with one snapshot. Both L1s, in clusters 3 and 4, name the L2 table in cluster 5, which
names the data in 6; cluster 7 holds the snapshot table. -/
def sharedHeader : Buffer :=
  ⟨105, fun i => match i with
    | 63 => 1 | 70 => 14 | i => tinyHeader.bytes i⟩

def sharedHdr : QcowHeader := { tinyHdr with nbSnapshots := 1, snapshotsOffset := 3584 }

def sharedDisk : ByteMap := fun i =>
  if i < 105 then sharedHeader.bytes i
  else match i with
    | 518 => 4 | 1025 => 1 | 1027 => 1 | 1029 => 1 | 1031 => 1 | 1033 => 1 | 1035 => 2 | 1037 => 2
    | 1039 => 1 | 1542 => 10 | 2054 => 10 | 2566 => 12 | _ => 0

/-- Its staged regions. -/
def sharedRegions : Regions :=
  { tinyRegions with
    staged := ⟨⟨24, sharedDisk.drop 1536⟩, ⟨512, fun _ => 0⟩, ⟨512, sharedDisk.drop 512⟩,
      ⟨512, sharedDisk.drop 1024⟩⟩ }

def sharedDevices : Devices :=
  let dev : Device := ⟨512, sharedDisk, fun _ => true, fun _ => true, some true, []⟩
  ⟨dev, dev⟩

/-- Its planner, with copy-on-write. -/
def sharedState : WriteState :=
  { tinyState with geometry := Geometry.fromHeader sharedHdr, cowEnabled := true }

theorem sharedState_new : newStateCow sharedHdr ⟨1, 1, .output⟩ = .ok sharedState := rfl

/-- The layout of the image with one snapshot. -/
def sharedLayout : Layout := sharedState.geometry.layout [(2048, 3)] [(3584, 40)]

theorem sharedDisk_counts : sharedLayout.Bounded (sharedDevices.disk .output) 8 ∧ ∀ c,
    sharedLayout.refcount (sharedDevices.disk .output) c
      = sharedLayout.refs (sharedDevices.disk .output) c := by
  have hbounded : sharedLayout.Bounded (sharedDevices.disk .output) 8 := by decide +kernel
  have hused : ∀ c < 8, sharedLayout.refcount (sharedDevices.disk .output) c
      = sharedLayout.refs (sharedDevices.disk .output) c := by decide +kernel
  have hfree : ∀ c < 256, 8 ≤ c → sharedLayout.refcount (sharedDevices.disk .output) c = 0 := by
    decide +kernel
  have hblocks : ∀ k < sharedLayout.refblocks, k ≠ 0 →
      sharedLayout.blockHost (sharedDevices.disk .output) k = 0 := by decide +kernel
  refine ⟨hbounded, fun c => ?_⟩
  by_cases hc : c < 8
  · exact hused c hc
  rw [hbounded.refs_eq_zero (by decide) (by omega)]
  by_cases hcovered : c < 256
  · exact hfree c hcovered (by omega)
  · refine if_neg fun ⟨hlt, hne⟩ => hne (hblocks _ hlt ?_)
    show c / 256 ≠ 0
    omega

/-- A write to a cluster of the snapshot copies it and the L2 table. -/
theorem runRequests_cow_conserves_shared :
    ∃ sys replies, runRequests 1 [.write 5 7 (.fill 9) ⟨0, fun _ => 0⟩, .flush]
        ⟨sharedState, sharedRegions, sharedDevices⟩ = .done sys replies ∧
      (sharedDevices.get .output).Spares (fun b => b / 512 = 6) (sys.devices.get .output) ∧
      ∀ c, sharedLayout.refcount sys.disk c = sharedLayout.refs sys.disk c := by
  obtain ⟨sys, replies, hrun, hok⟩ := Run.allOk_iff.mp (by decide +kernel :
    (runRequests 1 ([.write 5 7 (.fill 9) ⟨0, fun _ => 0⟩] ++ [.flush])
      ⟨sharedState, sharedRegions, sharedDevices⟩).allOk = true)
  obtain ⟨hspares, hcounts⟩ := runRequests_cow_conserves
    (by decide +kernel : QcowHeader.parse sharedHeader = some sharedHdr) sharedState_new rfl
    (consistent_of_check (by decide) sharedDisk_counts.1 (by decide +kernel) (by decide +kernel))
    sharedDisk_counts.2
    ⟨fun _ _ => rfl, by decide +kernel, fun _ _ => rfl, by decide +kernel⟩ le_rfl hrun hok
  exact ⟨sys, replies, hrun, hspares (2048, 3) List.mem_cons_self 6 (.inl (by decide +kernel)),
    hcounts⟩

/-- Two writes to the empty image: the second evicts the table of the first. -/
theorem runRequests_refines_tiny : ∃ sys replies, runRequests 1 (tinyRequests.take 2 ++ [.flush])
        ⟨tinyState, tinyRegions, tinyDevices⟩ = .done sys replies ∧
      (tinyState.geometry.layout [] []).byte sys.disk (Inflate.blank 9) (fun _ => 0) 40003 = 2 := by
  obtain ⟨sys, replies, hrun, hok⟩ := Run.allOk_iff.mp (by decide +kernel :
    (runRequests 1 (tinyRequests.take 2 ++ [.flush]) ⟨tinyState, tinyRegions, tinyDevices⟩).allOk =
    true)
  exact ⟨sys, replies, hrun,
    (runRequests_refines tinyHeader_parse tinyState_new rfl (fun _ _ => rfl)
    (consistent_of_check (B := 4) (by decide +kernel) (by decide +kernel) (by decide +kernel)
      (by decide +kernel))
    ⟨fun _ _ => rfl, by decide +kernel, fun _ _ => rfl, by decide +kernel⟩ le_rfl hrun hok
    (Inflate.blank 9)).1 40003 (by decide)⟩

end

end Instar.Write
