import Instar.Write.Refinement
import Instar.Read.Flat
import Instar.Read.Shown

/-!
# Sessions of the writer, and reading back

An image is opened, written, flushed and closed any number of times.  `Resting.sound` says that a
closed image is as sound as it was, so that it can be opened again; `Session.carried` is about one
session and `Sessions.carried` about all.  The writer's view of the virtual disk and that of the
chain reader are defined apart; `byte_eq_readOver` and `Tops.content_eq` connect them.
-/

namespace Instar.Write

open Instar.Qcow2 Instar.Read Instar.RefCount ByteMap Layout Qcow2State
open QcowHeader (parse_parsed inputOf)

/-- A consistent image with exact counts, all of them in the first `n` refblocks. -/
structure Sound (L : Layout) (n : Nat) (disk : ByteMap) : Prop where
  consistent : Consistent L disk (n * L.entriesPerRefblock)
  exact : ∀ c, L.refcount disk c = L.refs disk c
  blocks : ∀ k < L.refblocks, L.blockHost disk k ≠ 0 → k < n

/-- A session: a new planner over a staged copy of the image serves the requests and a flush. -/
inductive Session (st : WriteState) (L : Layout) (n : Nat) (devices : Devices)
    (reqs : List Request) : Devices → Prop where
  | served {regions capacity sys' replies} (hcluster : regions.clusterSize = L.clusterSize)
      (hblocks : regions.staged.refblocks.len / L.clusterSize = n)
      (hstaged : StagedFrom L regions.staged (devices.disk st.config.device)) (hcap : 1 ≤ capacity)
      (hrun : runRequests capacity (reqs ++ [.flush]) ⟨st, regions, devices⟩ = .done sys' replies)
      (hok : ∀ reply ∈ replies, reply.result = .ok ()) : Session st L n devices reqs sys'.devices

/-- Any number of sessions, and the requests of them all. -/
inductive Sessions (st : WriteState) (L : Layout) (n : Nat) (devices : Devices) :
    List Request → Devices → Prop where
  | opened : Sessions st L n devices [] devices
  | closed {reqs more devices' devices''} (before : Sessions st L n devices reqs devices')
      (last : Session st L n devices' more devices'') :
      Sessions st L n devices (reqs ++ more) devices''

/-- What sessions that served `reqs` make of a sound image: a sound image, with what its snapshots
use left alone, and on its virtual disk the last byte written. -/
structure Carried {bits : Nat} (L : Layout) (n size : Nat) (inflate : Inflate bits)
    (under : Nat → UInt8) (reqs : List Request) (disk disk' : ByteMap) : Prop where
  sound : Sound L n disk'
  fixed : ∀ b, L.Fixed disk b → disk' b = disk b
  bytes : ∀ x < size, L.byte disk' inflate under x =
    (lastByte reqs x).getD (L.byte disk inflate under x)

theorem Carried.trans {L : Layout} {bits n size : Nat} {inflate : Inflate bits}
    {under : Nat → UInt8}
    {reqs more : List Request} {disk disk' disk'' : ByteMap}
    (h : Carried L n size inflate under reqs disk disk')
    (h' : Carried L n size inflate under more disk' disk'') (hcs : 0 < L.clusterSize)
    (hsound : Sound L n disk) : Carried L n size inflate under (reqs ++ more) disk disk'' := by
  refine ⟨h'.sound, fun b hb => (h'.fixed b ?_).trans (h.fixed b hb), fun x hx => ?_⟩
  · -- the snapshots still use the same clusters
    rwa [Fixed, snapshotRefs_congr hcs hsound.consistent.snapshot_aligned h.fixed]
  · have hlast : lastByte (reqs ++ more) x = (lastByte more x).or (lastByte reqs x) := by
      simp [lastByte, List.findSome?_append]
    rw [h'.bytes x hx, h.bytes x hx, hlast]
    cases lastByte more x <;> rfl

/-! ## Closing an image -/

section

variable {st : WriteState} {sg : StagedRegions} {disk disk' : ByteMap} {L : Layout} {rb : Buffer}
  {snaps rest : List (Nat × Nat)} {n c : Nat} (hL : L = st.geometry.layout snaps rest)

include hL

/-- Where every refblock is staged, the clusters of the tables are those that a flush rewrites. -/
theorem Flushed.of_tableRefs (hcs : 0 < L.clusterSize)
    (hblocks : ∀ k < L.refblocks, L.blockHost disk k ≠ 0 → k < n) (hc : L.tableRefs disk c ≠ 0) :
    Flushed st.geometry n (L.blockHost disk) c := by
  by_cases hl1 : extentRefs L.clusterSize (L.l1TableOffset, L.l1Size * 8) c = 0
  · rw [tableRefs, hl1, zero_add] at hc
    obtain ⟨k, hk, hne⟩ := Finset.exists_ne_zero_of_sum_ne_zero hc
    have hat := (ite_ne_right_iff.mp hne).1
    subst hL
    exact .inr ⟨k, hblocks k (Finset.mem_range.mp hk) hat.1, hat⟩
  · obtain ⟨hlen, hlo, hhi⟩ := (ite_ne_right_iff.mp hl1).1
    rw [Nat.le_div_iff_mul_le hcs] at hhi
    dsimp only at hlen hlo hhi
    have hk : ∃ k < L.l1Size * 8, (L.l1TableOffset + k) / L.clusterSize = c := by
      by_cases hstart : L.l1TableOffset / L.clusterSize = c
      · exact ⟨0, by omega, hstart⟩
      · have hbelow := (Nat.div_lt_iff_lt_mul hcs).mp (lt_of_le_of_ne hlo hstart)
        exact ⟨c * L.clusterSize - L.l1TableOffset, by omega,
          by rw [Nat.add_sub_cancel' hbelow.le, Nat.mul_div_cancel _ hcs]⟩
    subst hL
    exact .inl hk

/-- A run that has been flushed leaves a sound image sound, and what the snapshots use alone. -/
theorem Resting.sound (h : Resting (outsideRefs st.geometry rb L disk) n (L.blockHost disk)
    st sg disk') (hpast : FlushProgress.Past st ⟨.endBarrier, 0⟩) (hsound : Sound L n disk)
    (hn : rb.len / st.geometry.clusterSize = n) (hreach : n ≤ L.refblocks)
    (hrc : ∀ c < counted st.geometry rb, rcAt rb.bytes c = L.refcount disk c)
    (hkept : ∀ b, Untouched st.geometry (outsideRefs st.geometry rb L disk) n (L.blockHost disk) b →
      disk' b = disk b) : Sound L n disk' ∧ ∀ b, L.Fixed disk b → disk' b = disk b := by
  obtain ⟨hcons, hexact, hstaged⟩ := hsound
  have hwf := h.store.fit.geo
  have hledger := h.store.ledger
  have hpos : 0 < L.clusterSize := hL ▸ hwf.size_pos
  have hlimit : n * L.entriesPerRefblock = counted st.geometry rb := by
    rw [counted, hn, hwf.layout_perBlock hL]
  have hlimit' : counted st.geometry sg.refblocks = counted st.geometry rb := by
    rw [counted, h.synced.count, ← hn, counted]
  rw [hlimit] at hcons
  have hfixed : ∀ b, L.Fixed disk b → disk' b = disk b :=
    fun b hb => hkept b (untouched_of_fixed hcons hrc hL hreach hb)
  have hexact' : ∀ c, L.refcount disk' c = L.refs disk' c := by
    subst hn
    exact h.refcount_eq hL hpast hcons hreach hrc hexact hkept
  obtain ⟨hclean, hl1, -⟩ := hpast
  have hhost : ∀ k < L.refblocks, L.blockHost disk' k = L.blockHost disk k :=
    fun k hk => blockHost_congr hfixed hk
  -- only the references through the active L1 change
  have hrefs : ∀ c, L.refs disk' c + L.activeRefs disk c
      = L.refs disk c + refTotal st.geometry (effHost st sg) (effTab st sg disk') c := by
    intro c
    rw [hwf.layout_activeRefs hL (fun i hi => h.host_on_disk hl1 hi)
      fun i hi j hj => h.tab_on_disk hL hclean hl1 hi hj, refs, refs, tableRefs_congr hfixed,
      snapshotRefs_congr hpos hcons.snapshot_aligned hfixed]
    omega
  refine ⟨⟨hlimit ▸ ⟨fun c hc => ⟨?_, hexact' c⟩, fun c hc => ?_, fun i hi => ?_,
    fun i hi j hj => ?_,
    fun k hk => ?_, fun s hs i hi => ?_⟩, hexact', fun k hk hne => hstaged k hk (hhost k hk ▸ hne)⟩,
    hfixed⟩
  · by_contra hge
    have hzero := hledger.covered c (by omega)
    have hnone : L.refs disk c = 0 := by
      by_contra hne
      exact hge (hcons.counted c hne).1
    have := hrefs c
    omega
  · rw [tableRefs_congr hfixed] at hc
    obtain ⟨hlt, hone⟩ := h.synced.sole c (.of_tableRefs hL hpos hstaged hc)
    have hcount := hledger.count c hlt
    have houtside := outsideRefs_ne hcons hrc (c := c) (by omega)
    have := hcons.tables c hc
    have := hcons.table_alone hc
    have := hrefs c
    omega
  · subst hL
    have haligned := (hledger.hostOk i hi).aligned
    rwa [h.host_on_disk hl1 hi] at haligned
  · rw [hwf.layout_entries hL] at hj
    subst hL
    rw [← h.tab_on_disk rfl hclean hl1 hi hj]
    exact hledger.entryOk i hi j hj
  · rw [hhost k hk]
    exact hcons.block_aligned k hk
  · rw [diskL1_snapshot hs hfixed hi]
    exact hcons.snapshot_aligned s hs i hi

/-! ## Sessions -/

variable {header : Buffer} {hdr : QcowHeader} {cfg : StagingConfig} {cow : Bool}
  {devices devices' : Devices}
  {under : Nat → UInt8} {reqs : List Request} (hparse : QcowHeader.parse header = some hdr)
  (hnew : newStateImpl hdr cfg cow = .ok st) (hbacking : st.hasBacking = false → ∀ x, under x = 0)
  (hsound : Sound L n (devices.disk cfg.device)) (inflate : Inflate st.geometry.clusterBits)

include hparse hnew hbacking hsound

/-- What a session hands on to the next. -/
theorem Session.carried (h : Session st L n devices reqs devices') :
    Carried L n st.geometry.virtualSize inflate
    under reqs (devices.disk cfg.device) (devices'.disk cfg.device) := by
  obtain @⟨regions, capacity, sys', replies, hcluster, hblocks, hstaged, hcap, hrun, hok⟩ := h
  obtain ⟨-, -, -, hst⟩ := newStateImpl_ok hnew
  have hconfig : st.config = cfg := by rw [hst]
  have hcs : L.clusterSize = st.geometry.clusterSize := congrArg Layout.clusterSize hL
  rw [hconfig] at hstaged
  rw [hcs] at hblocks hcluster
  have hheader : regions.clusterSize = hdr.clusterSize := by rw [hcluster, hst]; rfl
  have hready : Ready ⟨st, regions, devices⟩ := .new hparse hnew hheader
  have hwf := hready.geo
  have hcons : Consistent L (devices.disk cfg.device)
      (counted st.geometry regions.staged.refblocks) := by
    rw [counted, hblocks, ← hwf.layout_perBlock hL]
    exact hsound.consistent
  obtain ⟨sys1, hdevs, -, hstart, hanswered, hpast⟩ :=
    run_closed hL hparse hnew hheader hbacking hcons
    hstaged hcap hrun hok inflate
  have hgeo : sys1.state.geometry = st.geometry := hanswered.setup.geometry
  have hL' : L = sys1.state.geometry.layout snaps rest := by rw [hgeo, hL]
  have hdisk : sys1.disk = sys'.devices.disk cfg.device := by
    rw [← hdevs, ← hconfig, ← show sys1.state.config = st.config from hanswered.setup.config]
    rfl
  have hrest := hanswered.settled.resting
  rw [← hdisk]
  have hspares : devices.Spares cfg.device _ sys1.devices := hconfig ▸ hanswered.spares
  have hrest' := hrest
  rw [hblocks, ← hgeo] at hrest' hspares
  obtain ⟨hsound', hfixed⟩ :=
    hrest'.sound hL' hpast hsound (hgeo ▸ hblocks) (hblocks ▸ hcs ▸ hstaged.reach)
    (by rw [hgeo]; exact fun c hc =>
      hwf.layout_refcount hL hc (hL ▸ hstaged.reach) (hL ▸ hstaged.blocks))
    fun b hb => by rw [hdisk, ← hdevs]; exact hspares.bytes hb
  refine ⟨hsound', hfixed, fun x hx => ?_⟩
  by_cases hin : x / st.geometry.l2Coverage < st.geometry.l1Size
  · have hfresh : Fresh st := .new hwf hnew
    have hbefore : Sys.byte inflate under ⟨st, regions, devices⟩ x
        = L.byte (devices.disk st.config.device) inflate under x :=
      hstart.resting.byte_on_disk hL hfresh.clean hfresh.l1 hin
    rw [← hrest.byte_on_disk hL' hpast.1 hpast.2.1 (hgeo ▸ hin), ← hconfig, ← hbefore]
    exact hanswered.byte x hin hx
  · -- nothing beyond the L1 can be written
    have hnone : lastByte reqs x = none := by
      by_contra hne
      exact hin (hanswered.inside x hne)
    rw [← hwf.layout_coverage hL, show st.geometry.l1Size = L.l1Size by rw [hL]; rfl] at hin
    rw [hnone, byte, if_neg hin, byte, if_neg hin]
    rfl

theorem Sessions.carried (h : Sessions st L n devices reqs devices') :
    Carried L n st.geometry.virtualSize inflate
    under reqs (devices.disk cfg.device) (devices'.disk cfg.device) := by
  obtain ⟨-, -, -, hst⟩ := newStateImpl_ok hnew
  have hcs : 0 < L.clusterSize := by
    rw [hL, hst]
    exact (parse_parsed hparse).size_pos
  induction h with
  | opened => exact ⟨hsound, fun _ _ => rfl, fun _ _ => rfl⟩
  | closed _ last ih => exact ih.trans (last.carried hL hparse hnew
    hbacking ih.sound inflate) hcs hsound

end

/-! ## Reading back -/

/-- The chain of a reader starts with the image at device `d`, above the layers `below`. -/
structure Tops (cx : ChainReader) (hdr : QcowHeader) (hp : hdr.Parsed) (m d : Nat)
    (below : List Nat) (disk : ByteMap) : Prop where
  layers : cx.layers m d = d :: below
  format : (cx.config.devices d).format = .qcow2
  state : cx.states d = .qcow2 (hdr.reader hp)
  bytes : (cx.inp.device d).bytes = disk

/-- The decompressor of a reader, with `failed` for a cluster that does not inflate. -/
def inflateOf (codec : Codec) (hdr : QcowHeader) (hp : hdr.Parsed) (failed : UInt8) :
    Inflate hdr.clusterBits where
  byteAt disk entry k := ((hdr.reader hp).inflated codec disk entry).elim failed (· k)
  reads_extent m m' entry h k := by
    unfold inflated
    cases (hdr.reader hp).method with
    | none => rfl
    | some method =>
      cases hextent : parseCompressedL2Entry entry (hdr.reader hp).clusterBits with
      | none => rfl
      | some extent =>
        dsimp only
        rw [window_congr fun i hi => h extent hextent (extent.1 + i) (by omega) (by omega)]

/-- What a reader of the image finds at virtual offset `x`, above the layers `lower`. -/
def readOver (codec : Codec) (hdr : QcowHeader) (hp : hdr.Parsed)
    (lower : List (Nat → Contribution)) (disk : ByteMap) : Nat → Option UInt8 :=
  layered ((hdr.reader hp).held codec (inputOf disk) 0 0 :: lower)

section

variable {hdr : QcowHeader} {hp : hdr.Parsed} (codec : Codec) {lower : List (Nat → Contribution)}
  {under : Nat → UInt8} {snaps rest : List (Nat × Nat)}
  (hunder : ∀ x, layered lower x = some (under x))
  (hext : hdr.extendedL2 = false) (hdata : (hdr.reader hp).hasDataFile = false) (disk : ByteMap)
  (failed : UInt8) (x : Nat)

include hunder hext hdata

/-- Writer and reader agree on an L2 entry; where the reader fails, the writer shows `failed`. -/
theorem entryByte_eq_held (entry : Nat) :
    entryByte hdr.clusterSize (inflateOf codec hdr hp failed) under disk entry x
      = (layered ((hdr.reader hp).heldBy codec (inputOf disk) 0 0 entry 0 :: lower) x).getD
      failed := by
  have hcs : (hdr.reader hp).clusterSize = hdr.clusterSize := QcowHeader.reader_clusterSize hp
  have hread : (hdr.reader hp).extendedL2 = false := hext
  have hsub : x % hdr.clusterSize / hdr.clusterSize = 0 :=
    Nat.div_eq_of_lt (Nat.mod_lt _ hp.size_pos)
  have hdisk : ((inputOf disk).device 0).bytes = disk := rfl
  simp only [layered, heldBy, dataFileEntryViolation, hdata, hread, subclusterType, subclusterSize,
    subclustersPerCluster, hcs, clusterType, entryByte]
  by_cases hcomp : entry &&& oflagCompressed = 0
  · by_cases hzero : entry &&& qcowOflagZero = 0
    · by_cases hhost : hostOf entry = 0 <;>
        simp [hsub, hcomp, hzero, hhost, hdata, hunder, hdisk, hcs, heldAs, dataReadDevice]
    · by_cases hhost : hostOf entry = 0 <;> simp [hsub, hcomp, hzero, hhost, heldAs]
  · cases hinflate : (hdr.reader hp).inflated codec disk entry <;>
      simp [hsub, hcomp, hdisk, hcs, hinflate, inflateOf, heldAs]

/-- The two virtual disks agree. -/
theorem byte_eq_readOver :
    ((Geometry.fromHeader hdr).layout snaps rest).byte disk (inflateOf codec hdr hp failed) under x
      = (readOver codec hdr hp lower disk x).getD failed := by
  have hlookup : (hdr.reader hp).entryAt ((inputOf disk).device 0).bytes x = _ :=
    QcowHeader.reader_entryAt hp disk x
  have hsize : hdr.l2Size = 8 := by simp [QcowHeader.l2Size, hext]
  unfold QcowHeader.l1Index QcowHeader.l2Index QcowHeader.l2Entries at hlookup
  rw [hsize, hext] at hlookup
  simp only [readOver, layered, held, hlookup]
  unfold byte
  by_cases hl1 : x / (hdr.clusterSize * (hdr.clusterSize / 8)) < hdr.l1Size
  · refine (if_pos hl1).trans ?_
    rw [if_neg (not_le.mpr hl1)]
    by_cases hhost : hostOf (hdr.l1At disk (x / (hdr.clusterSize * (hdr.clusterSize / 8)))) = 0
    · rw [if_pos hhost, hunder]
      refine (congrArg (entryByte _ _ under disk · x) (if_pos hhost)).trans ?_
      simp [entryByte, hostOf]
    · rw [if_neg hhost]
      exact (congrArg (entryByte _ _ under disk · x) (if_neg hhost)).trans
        (entryByte_eq_held codec hunder hext hdata disk failed x _)
  · refine (if_neg hl1).trans ?_
    rw [if_pos (not_lt.mp hl1), hunder]
    rfl

end

section

variable {header : Buffer} {hdr : QcowHeader} {cfg : StagingConfig} {cow : Bool} {st : WriteState}

/-- The writer takes no image with extended L2 entries or an external data file. -/
theorem plain_of_new (hparse : QcowHeader.parse header = some hdr)
    (hnew : newStateImpl hdr cfg cow = .ok st) :
    hdr.extendedL2 = false ∧ (hdr.reader (parse_parsed hparse)).hasDataFile = false := by
  obtain ⟨henv, -⟩ := newStateImpl_ok hnew
  refine ⟨(checkEnvelopeWith_ok henv).2.1, ?_⟩
  have hfield : hdr.hasExternalData =
      decide (hdr.incompatibleFeatures &&& incompatExternalData ≠ 0) := by
    obtain ⟨-, rfl⟩ := QcowHeader.parse_eq_some.mp hparse
    rfl
  simp only [checkEnvelopeWith, ite_error_eq_ok, hfield] at henv
  obtain ⟨-, -, -, -, hdata, -⟩ := henv
  exact Bool.eq_false_iff.mpr hdata

/-- The content of the chain is what is read over the layers below. -/
theorem Tops.content_eq {cx : ChainReader} {hp : hdr.Parsed} {m d : Nat} {below : List Nat}
    {disk : ByteMap}
    (h : Tops cx hdr hp m d below disk) (hdata : (hdr.reader hp).hasDataFile = false) :
    cx.content m d = readOver cx.codec hdr hp (below.map cx.held) disk := by
  obtain ⟨hlayers, hformat, hstate, rfl⟩ := h
  have hheld : cx.held d = (hdr.reader hp).held cx.codec (inputOf (cx.inp.device d).bytes) 0 0 := by
    funext x
    simp [ChainReader.held, hformat, hstate, held, heldBy, heldAs, dataReadDevice, hdata, inputOf]
  rw [ChainReader.content, ChainReader.contentOf, hlayers, List.map_cons, hheld]
  rfl

theorem eq_of_getD_eq {a b : Option UInt8} (h : ∀ d, a.getD d = b.getD d) : a = b := by
  have hne : (0 : UInt8) ≠ 1 := by decide
  have hzero := h 0
  have hone := h 1
  cases a <;> cases b <;> grind

theorem sharedHeader_parse : QcowHeader.parse sharedHeader = some sharedHdr := by decide +kernel

theorem sharedDisk_sound : Sound sharedLayout 1 (sharedDevices.disk .output) :=
  ⟨consistent_of_check (by decide) sharedDisk_counts.1 (by decide +kernel) (by decide +kernel),
    sharedDisk_counts.2, by decide +kernel⟩

def sharedWrite : Request := .write 5 7 (.fill 9) ⟨0, fun _ => 0⟩

/-- What a session that writes to the image with a snapshot leaves. -/
def SharedSession (devices : Devices) : Prop :=
  Sessions sharedState sharedLayout 1 sharedDevices [sharedWrite] devices

theorem sharedSession : ∃ devices, SharedSession devices := by
  obtain ⟨sys, replies, hrun, hok⟩ := Run.allOk_iff.mp (by decide +kernel :
    (runRequests 1 ([sharedWrite] ++ [.flush]) ⟨sharedState, sharedRegions, sharedDevices⟩).allOk =
    true)
  exact ⟨sys.devices, .closed .opened (.served rfl rfl
    ⟨fun _ _ => rfl, by decide +kernel, fun _ _ => rfl, by decide +kernel⟩ le_rfl hrun hok)⟩

/-- A reader of the image with a snapshot. -/
def sharedReader (disk : ByteMap) : ChainReader :=
  ⟨copyCodec, inputOf disk, ⟨1, fun _ => ⟨.qcow2, false, 0, 0, 512, 0⟩, [⟨0, 1⟩]⟩,
    fun _ => .qcow2 (sharedHdr.reader (parse_parsed sharedHeader_parse))⟩

theorem sharedReader_tops (disk : ByteMap) :
    Tops (sharedReader disk) sharedHdr (parse_parsed sharedHeader_parse) 1 0 [] disk :=
  ⟨rfl, rfl, rfl, rfl⟩

variable {snaps rest : List (Nat × Nat)} {L : Layout} {n : Nat} {devices devices' : Devices}
  {reqs : List Request}
  (hL : L = (Geometry.fromHeader hdr).layout snaps rest)
  (hparse : QcowHeader.parse header = some hdr)
  (hnew : newStateImpl hdr cfg cow = .ok st) (h : Sessions st L n devices reqs devices')
  (hsound : Sound L n (devices.disk cfg.device))

include hL hparse hnew h hsound

/-- After any number of sessions a sound image is sound. -/
theorem sessions_keep_sound : Sound L n (devices'.disk cfg.device) := by
  obtain ⟨-, -, -, rfl⟩ := newStateImpl_ok hnew
  exact (h.carried hL hparse hnew (fun _ _ => rfl : _ →
    ∀ x : Nat, (0 : UInt8) = 0) hsound (.blank _)).sound

omit hL hparse hnew h hsound in
/-- Over the image with one snapshot. -/
theorem sessions_keep_sound_shared :
    ∃ devices, SharedSession devices ∧ Sound sharedLayout 1 (devices.disk .output) := by
  obtain ⟨devices, h⟩ := sharedSession
  exact ⟨devices, h, sessions_keep_sound rfl sharedHeader_parse sharedState_new h sharedDisk_sound⟩

/-- And every snapshot of it shows what it showed before. -/
theorem sessions_keep_snapshots {s : Nat × Nat} (hs : s ∈ L.snapshots)
    (hentries : ∀ i < s.2, ∀ j < L.entriesPerL2,
      EntryAligned L.clusterSize ((L.ofSnapshot s).entry (devices.disk cfg.device) i j))
    (inflate : Inflate L.clusterBits) (under : Nat → UInt8) (x : Nat) :
    (L.ofSnapshot s).byte (devices'.disk cfg.device) inflate under x
      = (L.ofSnapshot s).byte (devices.disk cfg.device) inflate under x := by
  obtain ⟨henv, -, -, rfl⟩ := newStateImpl_ok hnew
  have hwf := Geometry.fromHeader_wf (parse_parsed hparse) (checkEnvelopeWith_ok henv).1
  have hcarried := h.carried hL hparse hnew (fun _ _ => rfl : _ →
    ∀ x : Nat, (0 : UInt8) = 0) hsound (.blank _)
  exact byte_snapshot hs hcarried.fixed (hL ▸ hwf.size_pos)
    (hsound.consistent.snapshot_aligned s hs)
    (hwf.layout_entries hL ▸ hwf.entries_pos) hentries inflate under x

omit hL hparse hnew h hsound in
/-- Over the image with one snapshot. -/
theorem sessions_keep_snapshots_shared : ∃ devices, SharedSession devices ∧
    (sharedLayout.ofSnapshot (2048, 3)).byte (devices.disk .output) (.blank 9) (fun _ =>
      1) 6 = 0 := by
  obtain ⟨devices, h⟩ := sharedSession
  exact ⟨devices, h, (sessions_keep_snapshots rfl sharedHeader_parse sharedState_new
    h sharedDisk_sound
    List.mem_cons_self (by decide +kernel) (.blank 9) (fun _ => 1) 6).trans (by decide +kernel)⟩

/-- A reader that opens the image after the sessions, over whatever backing chain it has, finds at
each offset the last byte written, or else what a reader found before. -/
theorem sessions_read_back {cx cx' : ChainReader} {m d : Nat} {below : List Nat}
    (hcx : Tops cx hdr (parse_parsed hparse) m d below (devices.disk cfg.device))
    (hcx' : Tops cx' hdr (parse_parsed hparse) m d below (devices'.disk cfg.device))
    (hcodec : cx'.codec = cx.codec) (hbelow : below.map cx'.held = below.map cx.held)
    (hlower : ∀ x, (cx.contentOf below x).isSome)
    (hbacking : hdr.backingFileOffset = 0 → below = [])
    {x : Nat} (hx : x < hdr.virtualSize) :
    cx'.content m d x = (lastByte reqs x).or (cx.content m d x) := by
  obtain ⟨hext, hdata⟩ := plain_of_new hparse hnew
  rw [hcx.content_eq hdata, hcx'.content_eq hdata, hcodec, hbelow]
  generalize hlayers : below.map cx.held = lower
  have hunder : ∀ x, layered lower x = some ((layered lower x).getD 0) := by
    intro x
    obtain ⟨b, hb⟩ := Option.isSome_iff_exists.mp (hlower x)
    rw [← hlayers, show layered (below.map cx.held) x = some b from hb]
    rfl
  obtain ⟨-, -, -, rfl⟩ := newStateImpl_ok hnew
  have hzero : decide (hdr.backingFileOffset ≠ 0) = false → ∀ x, (layered lower x).getD 0 = 0 := by
    intro hnone x
    rw [← hlayers, hbacking (by simpa using hnone)]
    rfl
  refine eq_of_getD_eq fun failed => ?_
  have hbyte :=
    (h.carried hL hparse hnew hzero hsound (inflateOf cx.codec hdr (parse_parsed hparse)
      failed)).bytes
  subst hL
  refine ((byte_eq_readOver cx.codec hunder hext hdata _ failed x).symm.trans (hbyte x hx)).trans ?_
  cases lastByte reqs x with
  | none => exact byte_eq_readOver cx.codec hunder hext hdata _ failed x
  | some b => rfl

omit hL hparse hnew h hsound in
/-- Over the image with one snapshot. -/
theorem sessions_read_back_shared :
    ∃ devices, SharedSession devices ∧
    (sharedReader (devices.disk .output)).content 1 0 6 = some 9 := by
  obtain ⟨devices, h⟩ := sharedSession
  exact ⟨devices, h, sessions_read_back rfl sharedHeader_parse sharedState_new h sharedDisk_sound
    (sharedReader_tops _) (sharedReader_tops _) rfl (by simp) (fun _ => rfl) (fun _ =>
      rfl) (by decide)⟩

end

end Instar.Write
