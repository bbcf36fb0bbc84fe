import Instar.Qcow2.Audit
import Instar.Resize.Balance

/-!
# Growing a qcow2 image

What a grow does to an image, finished or cut short.  A finished grow of a sound image gives a sound
image of the new size with the old bytes below the old size and zeroes above it, and a cut at any
patch leaves an image that can be read and whose counts do not fall short.  Both hold under
conditions on the image that the code does not check, and the theorems say exactly which.
-/

namespace Instar.Resize

open Instar.Qcow2 Instar.RefCount Instar.Read QcowHeader List Option

variable {hdr : QcowHeader} {disk m : ByteMap} {fileSize newSize sector : Nat} {others : Nat → Nat}
  {a : Append} {p : Pieces} {d d' : Device} {config : ResizeConfig} {fuel : Nat} {plan : ResizePlan}
  {ws : List (Nat × Buffer)}

/-- What a finished grow promises of the file `m`. -/
def Grown (codec : Codec) (hdr : QcowHeader) (hp : hdr.Parsed) (disk : ByteMap)
    (newSize fileSizeAfter sector : Nat) (m : ByteMap) : Prop :=
  ∃ (g : QcowHeader) (hgp : g.Parsed), parse ⟨sector, m⟩ = some g ∧
    g.virtualSize = newSize ∧ g.cryptMethod = hdr.cryptMethod ∧
    g.Sound m fileSizeAfter (fun _ => 0) ∧
    (∀ x < hdr.virtualSize, g.shown codec hgp m x = hdr.shown codec hp disk x) ∧
    ∀ x, hdr.virtualSize ≤ x → x < newSize → g.shown codec hgp m x = some 0

/-- The references of the structures besides its own tables that a header names: the new header
names none of those of the old one. -/
def namedBy (hdr : QcowHeader) (others : Nat → Nat) (g : QcowHeader) : Nat → Nat :=
  if g = hdr then others else fun _ => 0

theorem namedBy_self (hdr : QcowHeader) (others : Nat → Nat) : namedBy hdr others hdr = others :=
  if_pos rfl

theorem namedBy_of_ne {g : QcowHeader} (h : g ≠ hdr) : namedBy hdr others g = fun _ => 0 := if_neg h

/-- What a grow promises of the file `m` at any moment: its header can be read, the bytes below the
size in it are the old ones or zero, and no count falls short. -/
def Harmless (codec : Codec) (hdr : QcowHeader) (hp : hdr.Parsed) (disk : ByteMap)
    (others : Nat → Nat) (sector : Nat) (m : ByteMap) : Prop :=
  ∃ (g : QcowHeader) (hgp : g.Parsed), parse ⟨sector, m⟩ = some g ∧
    g.cryptMethod = hdr.cryptMethod ∧
    (∀ x < g.virtualSize, x < hdr.virtualSize → g.shown codec hgp m x = hdr.shown codec hp disk x) ∧
    (∀ x < g.virtualSize, hdr.virtualSize ≤ x → g.shown codec hgp m x = some 0) ∧
    Covered g m (namedBy hdr others g)

/-! ## A grow of the header alone -/

/-- The header a grow within the L1 writes. -/
def sizedHeader (hdr : QcowHeader) (newSize : Nat) : QcowHeader :=
  rewritten hdr newSize hdr.l1Size hdr.l1TableOffset hdr.refcountTableOffset
    hdr.refcountTableClusters

theorem sizedHeader_view (hp : hdr.Parsed) (hb : Bounded hdr)
    (hgates : validateIncompat hdr.incompatibleFeatures = .ok ()) :
    QcowHeader.SameView hdr (sizedHeader hdr newSize) := by
  have hfeatures : (sizedHeader hdr newSize).incompatibleFeatures = hdr.incompatibleFeatures :=
    rewritten_features hb hgates
  have hnone : hdr.incompatibleFeatures &&& incompatCompression = 0 ∧
      hdr.incompatibleFeatures &&& incompatExternalData = 0 := by
    rcases features_of_validated hb.features_lt hgates with h | h <;> rw [h] <;> decide
  refine ⟨rfl, hp.size_eq.symm, rfl, hfeatures, hnone.2, ?_⟩
  unfold compression
  rw [hfeatures, if_neg (not_not.mpr hnone.1), if_neg (not_not.mpr hnone.1)]

/-- A grow within the L1 of a sound image. -/
structure Resizing (hdr : QcowHeader) (disk : ByteMap) (fileSize : Nat) (others : Nat → Nat)
    (newSize : Nat) (patches : List (Nat × Buffer)) : Prop where
  parsed : hdr.Parsed
  bounded : Bounded hdr
  width : LegalWidth hdr.refcountBits
  gates : validateIncompat hdr.incompatibleFeatures = .ok ()
  sound : hdr.Sound disk fileSize others
  room : divCeil newSize (l2Coverage hdr.clusterSize hdr.extendedL2) ≤ hdr.l1Size
  patches_eq : HeaderOnly hdr newSize patches

namespace Resizing

variable {patches : List (Nat × Buffer)} (hz : Resizing hdr disk fileSize others newSize patches)
  {b : Nat}
include hz

theorem header_bytes (hb : b < hdr.clusterSize) :
    applyAll patches m b = headerBytes (headerLayout hdr hdr.clusterBits newSize hdr.l1Size
      hdr.l1TableOffset hdr.refcountTableOffset hdr.refcountTableClusters) hdr.lazyRefcounts b := by
  rw [hz.patches_eq]
  exact (applyAll_first ⟨Nat.zero_le _, by dsimp only; omega⟩ (by simp)).trans
    (by rw [Nat.sub_zero])

theorem other_bytes (hb : b / hdr.clusterSize ≠ 0) : applyAll patches m b = m b := by
  rw [hz.patches_eq]
  refine applyAll_outside fun w hw hcov => hb ?_
  rw [mem_singleton.mp hw] at hcov
  exact Nat.div_eq_of_lt (by have := hcov.2; dsimp only at this; omega)

theorem parse_after (hsector : 105 ≤ sector) :
    parse ⟨sector, applyAll patches disk⟩ = some (sizedHeader hdr newSize) :=
  rewritten_parse hz.parsed hz.width hsector (hz.room.trans hz.parsed.l1_le) hz.parsed.l1_le
    hz.parsed.l1Offset_lt hz.bounded.tableOffset_lt hz.bounded.tableClusters_lt
    fun _ hi => hz.header_bytes hi

theorem same_after : QcowHeader.SameData hdr disk (sizedHeader hdr newSize)
    (applyAll patches disk) := by
  have hcs := hz.parsed.size_pos
  have hview : QcowHeader.SameView hdr (sizedHeader hdr newSize) :=
    sizedHeader_view hz.parsed hz.bounded hz.gates
  obtain ⟨hbits, hsize, hext, hfeatures, hexternal, hcomp⟩ := hview
  refine ⟨hbits, hsize, hext, hfeatures, hexternal, hcomp, le_refl _, fun i hi => ?_,
    fun b hb => hz.other_bytes fun h => hb (by rw [h]; exact hz.sound.zero_alone.2.2.2)⟩
  have hi' : i < hdr.l1Size := hi
  rw [if_pos hi']
  refine ByteMap.be_congr fun n hn => hz.other_bytes fun h => ?_
  have hin := l1_cluster hcs hz.sound.l1 (show i * 8 + n < hdr.l1Size * 8 by omega)
  rw [← add_assoc, show (hdr.l1TableOffset + i * 8 + n) / hdr.clusterSize = 0 from h] at hin
  exact hin hz.sound.zero_alone.1

theorem blockAt_after (k : Nat) :
    (sizedHeader hdr newSize).blockAt (applyAll patches disk) k = hdr.blockAt disk k := by
  have hcs := hz.parsed.size_pos
  have hentries : (sizedHeader hdr newSize).tableEntries = hdr.tableEntries := by
    unfold tableEntries
    rw [show (sizedHeader hdr newSize).clusterSize = hdr.clusterSize from hz.parsed.size_eq.symm]
    rfl
  unfold blockAt
  rw [hentries]
  split
  next hk =>
    refine ByteMap.be_congr fun n hn => hz.other_bytes fun h => ?_
    unfold tableEntries at hk
    have hin := table_cluster hcs hz.sound.table
      (show k * 8 + n < hdr.refcountTableClusters * hdr.clusterSize by omega)
    rw [← add_assoc, show (hdr.refcountTableOffset + k * 8 + n) / hdr.clusterSize = 0 from h] at hin
    exact hin hz.sound.zero_alone.2.1
  · rfl

theorem refs_after (c : Nat) :
      (sizedHeader hdr newSize).own (applyAll patches disk) c = hdr.own disk c ∧
      (sizedHeader hdr newSize).refs (applyAll patches disk) c = hdr.refs disk c := by
  have hsize : (sizedHeader hdr newSize).clusterSize = hdr.clusterSize := hz.parsed.size_eq.symm
  have hblocks : (sizedHeader hdr newSize).blockRefs (applyAll patches disk) c =
      hdr.blockRefs disk c := by
    unfold blockRefs tableEntries
    rw [hsize]
    exact total_congr fun k _ => by
      rw [blockName, blockName, hz.blockAt_after, hsize]
  have hown : (sizedHeader hdr newSize).own (applyAll patches disk) c = hdr.own disk c := by
    unfold own QcowHeader.l1Refs tableRefs
    rw [hblocks, hsize]
    rfl
  refine ⟨hown, ?_⟩
  unfold refs
  rw [hown, hz.same_after.chain_eq hz.parsed.size_pos hz.sound.toAligned]

theorem refcount_after (c : Nat) :
    (sizedHeader hdr newSize).refcount (applyAll patches disk) c = hdr.refcount disk c := by
  have hsize : (sizedHeader hdr newSize).clusterSize = hdr.clusterSize := hz.parsed.size_eq.symm
  have hper : (sizedHeader hdr newSize).perBlock = hdr.perBlock := by
    unfold perBlock
    rw [hsize]
    rfl
  unfold refcount
  rw [hper, hz.blockAt_after]
  dsimp only
  split
  · rfl
  next hk =>
    refine refcountIn_congr hsize fun i hi => hz.other_bytes ?_
    have hi' : i < hdr.clusterSize := by
      rw [← hsize]
      exact hi
    rw [div_of_aligned hz.parsed.size_pos (hz.sound.block _) hi']
    exact (hz.sound.block_alone hk).1

theorem sound_after : (sizedHeader hdr newSize).Sound (applyAll patches disk) fileSize others := by
  have hsize : (sizedHeader hdr newSize).clusterSize = hdr.clusterSize := hz.parsed.size_eq.symm
  have hd := hz.same_after
  refine ⟨⟨?_, ?_, fun k => ?_, fun i hi => ?_, fun i hi j hj => ?_⟩, fun c => ?_,
    fun c => ?_, fun c => ?_⟩
  · rw [hsize]
    exact hz.sound.l1
  · rw [hsize]
    exact hz.sound.table
  · rw [hz.blockAt_after, hsize]
    exact hz.sound.block k
  · rw [hd.l1At_eq hi, hsize]
    exact hz.sound.l2 i hi
  · rw [hd.l2Entries_eq] at hj
    rw [hd.l1At_eq hi, hd.l2At_eq hz.parsed.size_pos hz.sound.toAligned hi hj, hsize]
    exact hz.sound.entry i hi j hj
  · rw [hz.refcount_after, (hz.refs_after c).2]
    exact hz.sound.counted c
  · rw [(hz.refs_after c).2, hsize]
    exact hz.sound.inside c
  · rw [(hz.refs_after c).1, (hz.refs_after c).2]
    exact hz.sound.alone c

end Resizing

/-! ## The plan of a run -/

theorem planFor_cases (hsec : 0 < d.sectorSize) (hparse : parse ⟨d.sectorSize, d.bytes⟩ = some hdr)
    (hs : hdr.Sound d.bytes config.currentFileSize others)
    (hcur : config.currentVirtualSize = hdr.virtualSize)
    (hgrow : hdr.virtualSize < config.newVirtualSize)
    (hfile : config.currentFileSize < 2 ^ 63) (h : planFor d config hdr fuel = .ok plan) :
    (appendOf hdr d.bytes config.currentFileSize config.newVirtualSize fuel = none ∧
      Resizing hdr d.bytes config.currentFileSize others config.newVirtualSize plan.patches ∧
      plan.totalFileSize = config.currentFileSize) ∨
    ∃ a p, appendOf hdr d.bytes config.currentFileSize config.newVirtualSize fuel = some a ∧
      Growing hdr d.bytes config.currentFileSize others config.newVirtualSize a p ∧
      plan.patches = p.patches hdr d.bytes a ∧
      plan.totalFileSize = a.total hdr * hdr.clusterSize := by
  have hp := parse_parsed hparse
  have hb := parse_bounded hparse
  obtain ⟨l1, table, blocks, l2, hf, hplan, -⟩ := planFor_ok hsec h
  obtain ⟨hw, hgates, hcases⟩ := planGrow_cases hf hp hs hb.tableClusters_lt hfile
    (show config.currentVirtualSize < config.newVirtualSize by omega) hplan
  rcases hcases with ⟨hnone, hroom, hpatches, htotal⟩ | ⟨a, p, hsome, hlt, ha, htotal⟩
  · exact .inl ⟨hnone, ⟨hp, hb, hw, hgates, hs, hroom, hpatches⟩, htotal⟩
  · exact .inr ⟨a, p, hsome, ⟨hp, hb, hw, hgates, hs, hlt, ha.pre_eq, ha.count_eq,
      ha.l1_eq, ha.l1_le, ha.sized, ha.planned⟩, ha.patches_eq, htotal⟩

namespace Growing

variable (hg : Growing hdr disk fileSize others newSize a p)
include hg

/-- The new header is read back. -/
theorem parse_after {t : List (Nat × Buffer)} (ht : t <+: place hdr disk p.fins)
    (hsector : 105 ≤ sector) :
    parse ⟨sector, applyAll (p.prepare hdr disk a ++ (0, p.header) :: t) disk⟩ =
      some (a.header hdr newSize) := by
  obtain ⟨h1, h2, h3⟩ := a.bounds hdr
  have hsize := hg.planned.size_lt
  have hpre : a.pre * hdr.clusterSize ≤ a.total hdr * hdr.clusterSize :=
    Nat.mul_le_mul_right _ (by omega)
  have htable : a.tableCluster hdr * hdr.clusterSize ≤ a.total hdr * hdr.clusterSize :=
    Nat.mul_le_mul_right _ (by omega)
  refine rewritten_parse hg.parsed hg.width hsector (hg.l1_eq ▸ hg.l1_le) hg.l1_le (by omega) ?_
    hg.planned.table_lt fun i hi => ?_
  · split
    · omega
    · exact hg.bounded.tableOffset_lt
  · rw [hg.header_new ht hi, hg.planned.header_eq]
    rfl

/-- The old header is read until the new one is written. -/
theorem parse_before (h : ws <+: p.prepare hdr disk a) :
    parse ⟨sector, applyAll ws disk⟩ = parse ⟨sector, disk⟩ := by
  have h512 : 512 ≤ hdr.clusterSize := Nat.le_of_dvd hg.cs_pos hg.parsed.size_dvd
  exact parse_congr Iff.rfl fun i hi => hg.header_old h (by omega)

end Growing

section Promises

variable {codec : Codec} {hp : hdr.Parsed} {g : QcowHeader} {m : ByteMap} {sector : Nat}
  (hparse : parse ⟨sector, m⟩ = some g) (hd : QcowHeader.SameData hdr disk g m)
  (haligned : hdr.Aligned disk) (hsize : g.virtualSize = newSize) (hplain : g.cryptMethod = 0)
include hparse hd haligned hsize hplain

/-- Under a header of the new size that shows the old data, the promise is about what the image
shows above its size and about the counts. -/
theorem grown_iff : Grown codec hdr hp disk newSize fileSize sector m ↔ hdr.cryptMethod = 0 ∧
    (∀ x, hdr.virtualSize ≤ x → x < newSize → hdr.shown codec hp disk x = some 0) ∧
    g.Sound m fileSize fun _ => 0 := by
  have hgp := parse_parsed hparse
  have hshown := hd.shown_eq hp hgp haligned codec
  constructor
  · rintro ⟨g', hgp', hg', -, hcrypt, hsound, -, hzero⟩
    obtain rfl : g = g' := some.inj (hparse.symm.trans hg')
    exact ⟨hcrypt.symm.trans hplain, fun x hlo hhi => (hshown x).symm.trans (hzero x hlo hhi),
      hsound⟩
  · rintro ⟨hcrypt, hzero, hsound⟩
    exact ⟨g, hgp, hparse, hsize, hplain.trans hcrypt.symm, hsound, fun x _ => hshown x,
      fun x hlo hhi => (hshown x).trans (hzero x hlo hhi)⟩

theorem harmless_iff (hgrow : hdr.virtualSize < newSize) :
    Harmless codec hdr hp disk others sector m ↔ hdr.cryptMethod = 0 ∧
      (∀ x, hdr.virtualSize ≤ x → x < newSize → hdr.shown codec hp disk x = some 0) ∧
      Covered g m fun _ => 0 := by
  have hgp := parse_parsed hparse
  have hshown := hd.shown_eq hp hgp haligned codec
  have hne : g ≠ hdr := fun h => by
    rw [h] at hsize
    omega
  constructor
  · rintro ⟨g', hgp', hg', hcrypt, -, hzero, hcov⟩
    obtain rfl : g = g' := some.inj (hparse.symm.trans hg')
    rw [namedBy_of_ne hne] at hcov
    exact ⟨hcrypt.symm.trans hplain, fun x hlo hhi =>
      (hshown x).symm.trans (hzero x (hsize ▸ hhi) hlo), hcov⟩
  · rintro ⟨hcrypt, hzero, hcov⟩
    exact ⟨g, hgp, hparse, hplain.trans hcrypt.symm, fun x _ _ => hshown x,
      fun x hlt hle => (hshown x).trans (hzero x hle (hsize ▸ hlt)),
      (namedBy_of_ne hne).symm ▸ hcov⟩

end Promises

/-- A finished grow gives a sound image of the new size with the old bytes below the old size and
zeroes above it, exactly if the image is not encrypted, already shows zeroes up to the new size, and
the append, if there is one, is exact. -/
theorem runQcow2_grow_iff (codec : Codec) {result : ResizeResult} (hsec : 0 < d.sectorSize)
    (hparse : parse ⟨d.sectorSize, d.bytes⟩ = some hdr)
    (hs : hdr.Sound d.bytes config.currentFileSize fun _ => 0)
    (hcur : config.currentVirtualSize = hdr.virtualSize)
    (hgrow : hdr.virtualSize < config.newVirtualSize) (hfile : config.currentFileSize < 2 ^ 63)
    (hrun : runQcow2 d config fuel = (some result, d')) (hok : result.error = none) :
    Grown codec hdr (parse_parsed hparse) d.bytes config.newVirtualSize result.fileSizeAfter
        d'.sectorSize d'.bytes ↔
      hdr.cryptMethod = 0 ∧
      (∀ x, hdr.virtualSize ≤ x → x < config.newVirtualSize →
        hdr.shown codec (parse_parsed hparse) d.bytes x = some 0) ∧
      ∀ a, appendOf hdr d.bytes config.currentFileSize config.newVirtualSize fuel = some a →
        a.Exact hdr d.bytes := by
  have hsector : 105 ≤ d.sectorSize := parse_len hparse
  obtain ⟨hdr', plan, hparse', hplan, hsize', hbytes', hafter⟩ := runQcow2_ok hsec hrun hok
  obtain rfl : hdr = hdr' := some.inj (hparse.symm.trans hparse')
  rw [hsize', hbytes', hafter]
  rcases planFor_cases hsec hparse hs hcur hgrow hfile hplan with
    ⟨hnone, hz, htotal⟩ | ⟨a, p, hsome, hg, hpatches, htotal⟩
  · refine (grown_iff (hz.parse_after hsector) hz.same_after hs.toAligned rfl rfl).trans ?_
    refine and_congr_right fun _ => and_congr_right fun _ => ⟨fun _ a ha => ?_, fun _ => ?_⟩
    · rw [hnone] at ha
      cases ha
    · rw [htotal]
      exact hz.sound_after
  · have hd := hg.same_after (prefix_refl _)
    have hsound := hg.sound_after_iff (hg.repointed_after (prefix_refl _)) hd fun k hk => by
      rcases hg.counts_after (prefix_refl _) hk with ⟨-, hne⟩ | hall
      · exact absurd rfl hne
      · exact hall
    rw [hpatches, htotal]
    refine (grown_iff (hg.parse_after (prefix_refl _) hsector) hd hs.toAligned rfl rfl).trans ?_
    refine and_congr_right fun _ => and_congr_right fun _ => hsound.trans ⟨fun hexact a' ha' => ?_,
      fun h => ?_⟩
    · rw [hsome] at ha'
      cases ha'
      exact hexact
    · exact h a hsome

/-! ## Two small images -/

/-- A codec that inflates nothing. -/
def noCodec : Codec := ⟨fun _ _ _ => none, fun _ _ _ m => m⟩

/-- A request to grow. -/
def growTo (currentVirtualSize currentFileSize newVirtualSize : Nat) : ResizeConfig :=
  { currentVirtualSize, newVirtualSize, currentFileSize, preallocation := .off,
    allowShrink := false }

/-- An empty image of 100 virtual bytes with 512-byte clusters: the refcount table in cluster 1, its
block in cluster 2, an L1 of one entry in cluster 3. -/
def smallImage (i : Nat) : UInt8 :=
  match i with
  | 0 => 0x51 | 1 => 0x46 | 2 => 0x49 | 3 => 0xfb | 7 => 3 | 23 => 9 | 31 => 100 | 39 => 1 | 46 => 6
  | 54 => 2 | 59 => 1 | 99 => 4 | 103 => 104 | 518 => 4 | 1025 => 1 | 1027 => 1 | 1029 => 1
  | 1031 => 1
  | _ => 0

/-- The same image with an L2 table in cluster 4 and a data cluster in which byte 200, past the end
of the virtual disk, is not zero. -/
def staleImage (i : Nat) : UInt8 :=
  match i with
  | 1033 => 1 | 1035 => 1 | 1536 => 0x80 | 1542 => 8 | 2048 => 0x80 | 2054 => 0x0a | 2760 => 7
  | _ => smallImage i

/-- The header of both. -/
def smallHdr : QcowHeader := { tinyHdr with virtualSize := 100, l1Size := 1 }

theorem smallImages : (parse ⟨512, smallImage⟩ = some smallHdr ∧
      parse ⟨512, staleImage⟩ = some smallHdr ∧
      appendOf smallHdr smallImage 2048 65536 4 = some ⟨4, 2, 1, 1, 1⟩) ∧
    smallHdr.Audit smallImage 2048 4 ∧ smallHdr.Audit staleImage 3072 6 := by
  refine ⟨by decide +kernel, ?_, ?_⟩ <;> constructor <;> decide +kernel

theorem smallImage_parse : parse ⟨512, smallImage⟩ = some smallHdr := smallImages.1.1

theorem staleImage_parse : parse ⟨512, staleImage⟩ = some smallHdr := smallImages.1.2.1

theorem smallImage_sound : smallHdr.Sound smallImage 2048 fun _ => 0 := smallImages.2.1.sound

theorem staleImage_sound : smallHdr.Sound staleImage 3072 fun _ => 0 := smallImages.2.2.sound

/-- The small image has no data at all. -/
theorem smallImage_zero (hp : smallHdr.Parsed) (x : Nat) :
    smallHdr.shown noCodec hp smallImage x = some 0 := by
  have hentry : (smallHdr.reader hp).entryAt smallImage x = none := by
    rw [reader_entryAt]
    split
    · rfl
    next hi =>
      have hindex : smallHdr.l1Index x = 0 := by
        have hone : ¬ 1 ≤ smallHdr.l1Index x := hi
        omega
      rw [hindex, if_pos (by decide)]
  have hheld : (smallHdr.reader hp).held noCodec (inputOf smallImage) 0 0 x = .absent := by
    unfold Qcow2State.held
    rw [show Qcow2State.entryAt _ ((inputOf smallImage).device 0).bytes x = _ from hentry]
  exact layered_absent hheld

theorem smallImage_appendOf (a : Append) (h : appendOf smallHdr smallImage 2048 65536 4 = some a) :
    a = ⟨4, 2, 1, 1, 1⟩ := by
  exact (some.inj h).symm

/-- A run that evaluates to success. -/
theorem run_of_eval (d : Device) (config : ResizeConfig) (fuel : Nat)
    (h : ((runQcow2 d config fuel).1.map fun r => r.error) = some none) :
    ∃ result, runQcow2 d config fuel = (some result, (runQcow2 d config fuel).2) ∧
    result.error = none := by
  obtain ⟨result, hresult, hok⟩ := map_eq_some_iff.mp h
  exact ⟨result, Prod.ext hresult rfl, hok⟩

/-- Growing the small image to two L1 entries works. -/
theorem runQcow2_grow_small :
    ∃ result d', runQcow2 (deviceOf smallImage) (growTo 100 2048 65536) 4 = (some result, d') ∧
      result.error = none ∧
      Grown noCodec smallHdr (parse_parsed smallImage_parse) smallImage 65536
        result.fileSizeAfter d'.sectorSize d'.bytes := by
  obtain ⟨result, hrun, hok⟩ :=
    run_of_eval (deviceOf smallImage) (growTo 100 2048 65536) 4 (by decide +kernel)
  have hs : smallHdr.Sound (deviceOf smallImage).bytes (growTo 100 2048 65536).currentFileSize
      fun _ => 0 := smallImage_sound
  refine ⟨result, _, hrun, hok, ?_⟩
  refine (runQcow2_grow_iff noCodec (d := deviceOf smallImage) (by decide) smallImage_parse hs
    rfl (by decide) (by decide) hrun hok).mpr ⟨rfl, fun x _ _ => smallImage_zero _ x,
      fun a ha => ?_⟩
  obtain rfl := smallImage_appendOf a ha
  refine ⟨fun c _ htaken => ?_, fun c hdrop => ?_, fun hempty => by cases hempty⟩
  · have hlo : 1 ≤ c / smallHdr.perBlock := htaken.1
    have hhi : c / smallHdr.perBlock < 1 := htaken.2
    omega
  · simp [Append.dropped, RefCount.total] at hdrop

theorem staleImage_grown_parse :
    parse ⟨512, (runQcow2 (deviceOf staleImage) (growTo 100 3072 512) 4).2.bytes⟩ =
      some (sizedHeader smallHdr 512) := by decide +kernel

/-- Growing the stale image within its last cluster shows the stale byte. -/
theorem runQcow2_grow_stale :
    ∃ result d', runQcow2 (deviceOf staleImage) (growTo 100 3072 512) 4 = (some result, d') ∧
      result.error = none ∧ smallHdr.Sound staleImage 3072 (fun _ => 0) ∧
      ¬ Grown noCodec smallHdr (parse_parsed staleImage_parse) staleImage 512
        result.fileSizeAfter d'.sectorSize d'.bytes := by
  obtain ⟨result, hrun, hok⟩ :=
    run_of_eval (deviceOf staleImage) (growTo 100 3072 512) 4 (by decide +kernel)
  refine ⟨result, _, hrun, hok, staleImage_sound, ?_⟩
  rintro ⟨g, hgp, hparse, -, -, -, -, hzero⟩
  have hsector : (runQcow2 (deviceOf staleImage) (growTo 100 3072 512) 4).2.sectorSize = 512 := by
    decide +kernel
  rw [hsector, staleImage_grown_parse] at hparse
  obtain rfl : sizedHeader smallHdr 512 = g := some.inj hparse
  have hbyte : (sizedHeader smallHdr 512).shown noCodec (parse_parsed staleImage_grown_parse)
      (runQcow2 (deviceOf staleImage) (growTo 100 3072 512) 4).2.bytes 200 =
      some 7 := by decide +kernel
  have hzero' := hzero 200 (by decide) (by decide)
  rw [hbyte] at hzero'
  cases hzero'

/-! ## A grow cut short -/

/-- When no count falls short at any moment: the append is safe and, if the table is rewritten
while the old header is in force, the old clusters that fall to the new blocks have one reference
at most. -/
structure Append.SafeThroughout (hdr : QcowHeader) (disk : ByteMap) (others : Nat → Nat)
    (a : Append) : Prop extends a.Safe hdr disk where
  inPlace : a.relocates hdr = false → ∀ c < a.pre, a.Taken hdr c → hdr.refs disk c + others c ≤ 1

namespace Growing

variable (hg : Growing hdr disk fileSize others newSize a p)
include hg

/-- No old cluster falls to a new block if there is none. -/
theorem not_taken (h : a.newBlocks = 0) {c : Nat} : ¬ a.Taken hdr c := by
  rintro ⟨hlo, hhi⟩
  have := hg.sized.blockCount_eq
  omega

/-- The old table, while it is in force. -/
theorem blockAt_old (hws : ∀ w ∈ ws, w ∈ p.appended hdr a ∨ w ∈ place hdr disk p.incs) (k : Nat) :
    hdr.blockAt (applyAll ws disk) k = hdr.blockAt disk k := by
  unfold blockAt
  split
  next hk =>
    refine ByteMap.be_congr fun n hn => hg.old_table (fun w hw => ?_) ?_
    · rcases hws w hw with hw | hw
      · exact .inl hw
      · exact .inr (.inl hw)
    · rw [add_assoc]
      refine table_cluster hg.cs_pos hg.sound.table ?_
      unfold tableEntries at hk
      omega
  · rfl

/-- Before the header patch no count falls short of the old header's references. -/
theorem covered_before (hsafe : a.SafeThroughout hdr disk others) (h : ws <+: p.appended hdr a ∨
      ∃ t, t <+: place hdr disk p.incs ∧ ws = p.appended hdr a ++ (p.inPlace hdr a ++ t)) :
    Covered hdr (applyAll ws disk) others := by
  have hprepare : ws <+: p.prepare hdr disk a := by
    rw [Pieces.prepare_eq]
    rcases h with h | ⟨t, ht, rfl⟩
    · exact h.trans (prefix_append _ _)
    · exact (prefix_append_right_inj _).mpr ((prefix_append_right_inj _).mpr ht)
  have hd := hg.same_before hprepare
  rcases h with h | ⟨t, ht, rfl⟩
  · exact hg.covered_old hd (hg.blockAt_old fun w hw => .inl (h.subset hw)) fun k hk =>
      .inl fun j _ => hg.block_bytes_old (fun w hw => .inl (h.subset hw)) hk j
  · have hcounts : ∀ k, hdr.blockAt disk k ≠ 0 → _ := fun k hk =>
      (hg.counts_before ht hk).imp And.left id
    by_cases hin : a.relocates hdr = false ∧ 0 < a.newBlocks
    · exact (hg.covered_before_iff (hg.repointed_before hin.1 hin.2 ht) hd hin.1 hin.2 hcounts).mpr
        (hsafe.inPlace hin.1)
    · have hempty : p.inPlace hdr a = [] := if_neg hin
      refine hg.covered_old hd (hg.blockAt_old fun w hw => ?_) hcounts
      rw [hempty, nil_append, mem_append] at hw
      exact hw.imp_right fun hw => ht.subset hw

end Growing

/-- A grow cut at any patch leaves an image that can be read and whose counts do not fall short,
exactly if the image is not encrypted, already shows zeroes up to the new size, and the append, if
there is one, is safe throughout. -/
theorem planFor_prefix_harmless_iff (codec : Codec) (hsec : 0 < d.sectorSize)
    (hparse : parse ⟨d.sectorSize, d.bytes⟩ = some hdr)
    (hs : hdr.Sound d.bytes config.currentFileSize others)
    (hcur : config.currentVirtualSize = hdr.virtualSize)
    (hgrow : hdr.virtualSize < config.newVirtualSize)
    (hfile : config.currentFileSize < 2 ^ 63) (hplan : planFor d config hdr fuel = .ok plan) :
    (∀ ws, ws <+: plan.patches → Harmless codec hdr (parse_parsed hparse) d.bytes others
        d.sectorSize (applyAll ws d.bytes)) ↔
      hdr.cryptMethod = 0 ∧
      (∀ x, hdr.virtualSize ≤ x → x < config.newVirtualSize →
        hdr.shown codec (parse_parsed hparse) d.bytes x = some 0) ∧
      ∀ a, appendOf hdr d.bytes config.currentFileSize config.newVirtualSize fuel = some a →
        a.SafeThroughout hdr d.bytes others := by
  have hp := parse_parsed hparse
  have hsector : 105 ≤ d.sectorSize := parse_len hparse
  rcases planFor_cases hsec hparse hs hcur hgrow hfile hplan with
    ⟨hnone, hz, -⟩ | ⟨a, p, hsome, hg, hpatches, -⟩
  · have hiff := @harmless_iff hdr d.bytes config.newVirtualSize others codec hp _ _ _
      (hz.parse_after hsector) hz.same_after hs.toAligned rfl rfl hgrow
    constructor
    · intro hall
      obtain ⟨hcrypt, hzero, -⟩ := hiff.mp (hall _ (prefix_refl _))
      refine ⟨hcrypt, hzero, fun a ha => ?_⟩
      rw [hnone] at ha
      cases ha
    · rintro ⟨hcrypt, hzero, -⟩ ws hws
      have hsplit : ws = [] ∨ ws = plan.patches := by
        have hsingle := hz.patches_eq
        rw [hsingle] at hws ⊢
        rcases prefix_cons_iff.mp hws with rfl | ⟨t, rfl, ht⟩
        · exact .inl rfl
        · rw [prefix_nil.mp ht]
          exact .inr rfl
      rcases hsplit with rfl | rfl
      · refine ⟨hdr, hp, hparse, rfl, fun x _ _ => rfl, fun x hlt hle =>
          absurd hle (not_le.mpr hlt), fun c => ?_⟩
        rw [namedBy_self]
        exact (hs.counted c).ge
      · refine hiff.mpr ⟨hcrypt, hzero, fun c => ?_⟩
        rw [(hz.refs_after c).2, hz.refcount_after, hs.counted c]
        dsimp only
        omega
  · rw [hpatches]
    have hafter : ∀ {t}, t <+: place hdr d.bytes p.fins → _ := fun {t} ht =>
      @harmless_iff hdr d.bytes config.newVirtualSize others codec
        hp _ _ _ (hg.parse_after ht hsector) (hg.same_after ht) hs.toAligned rfl rfl hgrow
    constructor
    · intro hall
      -- the whole sequence decides all but the table in place
      obtain ⟨hcrypt, hzero, hcov⟩ := (hafter (prefix_refl _)).mp (hall _ (prefix_refl _))
      have hsafe : a.Safe hdr d.bytes := by
        refine hg.safe_of_covered (hg.repointed_after (prefix_refl _))
          (hg.same_after (prefix_refl _)) (fun k hk => ?_) hcov
        rcases hg.counts_after (prefix_refl _) hk with ⟨-, hne⟩ | hall
        · exact absurd rfl hne
        · exact hall
      refine ⟨hcrypt, hzero, fun a' ha' => ?_⟩
      · rw [hsome] at ha'
        cases ha'
        refine ⟨hsafe, fun hrel c hc htaken => ?_⟩
        have hnew : 0 < a.newBlocks := pos_of_ne_zero fun h => hg.not_taken h htaken
        have hcut : p.appended hdr a ++ (p.inPlace hdr a ++ []) <+: p.prepare hdr d.bytes a := by
          rw [Pieces.prepare_eq]
          exact (prefix_append_right_inj _).mpr ((prefix_append_right_inj _).mpr nil_prefix)
        obtain ⟨g, -, hg'', -, -, -, hcov'⟩ := hall _ (hcut.trans (prefix_append _ _))
        rw [hg.parse_before hcut, hparse] at hg''
        obtain rfl : hdr = g := some.inj hg''
        have hiff := hg.covered_before_iff (hg.repointed_before hrel hnew nil_prefix)
          (hg.same_before hcut) hrel hnew fun k hk =>
            (hg.counts_before nil_prefix hk).imp And.left id
        rw [namedBy_self] at hcov'
        exact hiff.mp hcov' c hc htaken
    · rintro ⟨hcrypt, hzero, hsafe⟩ ws hws
      have hbefore : ws <+: p.prepare hdr d.bytes a → Covered hdr (applyAll ws d.bytes) others →
          Harmless codec hdr hp d.bytes others d.sectorSize (applyAll ws d.bytes) := by
        intro hcut hcov
        refine ⟨hdr, hp, (hg.parse_before hcut).trans hparse, rfl, fun x _ _ => ?_,
          fun x hlt hle => absurd hle (not_le.mpr hlt), ?_⟩
        · exact (hg.same_before hcut).shown_eq hp hp hs.toAligned codec x
        · rwa [namedBy_self]
      rcases prefix_cases hws with h | ⟨t, ht, rfl⟩ | ⟨t, ht, rfl⟩
      · refine hbefore ?_ (hg.covered_before (hsafe a hsome) (.inl h))
        rw [Pieces.prepare_eq]
        exact h.trans (prefix_append _ _)
      · refine hbefore ?_ (hg.covered_before (hsafe a hsome) (.inr ⟨t, ht, rfl⟩))
        rw [Pieces.prepare_eq]
        exact (prefix_append_right_inj _).mpr ((prefix_append_right_inj _).mpr ht)
      · refine (hafter ht).mpr ⟨hcrypt, hzero, ?_⟩
        exact hg.covered_after (hg.repointed_after ht) (hg.same_after ht) (hsafe a hsome).toSafe
          fun k hk => (hg.counts_after ht hk).imp And.left id

/-- The plan for the small image does no harm at any patch. -/
theorem planFor_prefix_harmless_small :
    ∃ plan, planFor (deviceOf smallImage) (growTo 100 2048 65536) smallHdr 4 = .ok plan ∧
      ∀ ws, ws <+: plan.patches → Harmless noCodec smallHdr (parse_parsed smallImage_parse)
        smallImage (fun _ => 0) 512 (applyAll ws smallImage) := by
  have heval : (planFor (deviceOf smallImage) (growTo 100 2048 65536) smallHdr 4).isOk = true := by
    decide +kernel
  cases hplan : planFor (deviceOf smallImage) (growTo 100 2048 65536) smallHdr 4 with
  | error e =>
    rw [hplan] at heval
    cases heval
  | ok plan =>
    have hs : smallHdr.Sound (deviceOf smallImage).bytes (growTo 100 2048 65536).currentFileSize
        fun _ => 0 := smallImage_sound
    refine ⟨plan, rfl, (planFor_prefix_harmless_iff noCodec (d := deviceOf smallImage) (by decide)
      smallImage_parse hs rfl (by decide) (by decide) hplan).mpr
        ⟨rfl, fun x _ _ => smallImage_zero _ x, fun a ha => ?_⟩⟩
    obtain rfl := smallImage_appendOf a ha
    have hnone : ∀ c, ¬ Append.Taken smallHdr ⟨4, 2, 1, 1, 1⟩ c := by
      rintro c ⟨hlo, hhi⟩
      dsimp only at hlo hhi
      omega
    exact ⟨⟨fun c _ htaken => absurd htaken (hnone c), fun hempty => by cases hempty⟩,
      fun _ c _ htaken => absurd htaken (hnone c)⟩

/-- An image of no virtual bytes: it has an L1 of no entries, at offset zero. -/
def emptyImage (i : Nat) : UInt8 :=
  match i with
  | 31 => 0 | 39 => 0 | 46 => 0 | 1031 => 0
  | _ => smallImage i

/-- Its header. -/
def emptyHdr : QcowHeader := { smallHdr with virtualSize := 0, l1Size := 0, l1TableOffset := 0 }

theorem emptyImage_audit : parse ⟨512, emptyImage⟩ = some emptyHdr ∧
    emptyHdr.Audit emptyImage 1536 3 := by
  refine ⟨by decide +kernel, ?_⟩
  constructor <;> decide +kernel

theorem emptyImage_parse : parse ⟨512, emptyImage⟩ = some emptyHdr := emptyImage_audit.1

theorem emptyImage_sound : emptyHdr.Sound emptyImage 1536 fun _ => 0 := emptyImage_audit.2.sound

/-- The last patch of a grow of the empty image clears the count of the header's cluster. -/
theorem planFor_prefix_harmful :
    ∃ plan, planFor (deviceOf emptyImage) (growTo 0 1536 512) emptyHdr 4 = .ok plan ∧
      emptyHdr.Sound emptyImage 1536 (fun _ => 0) ∧
      ¬ ∀ ws, ws <+: plan.patches → Harmless noCodec emptyHdr (parse_parsed emptyImage_parse)
        emptyImage (fun _ => 0) 512 (applyAll ws emptyImage) := by
  have heval : (match planFor (deviceOf emptyImage) (growTo 0 1536 512) emptyHdr 4 with
      | .ok plan => (parse ⟨512, applyAll plan.patches emptyImage⟩).map fun g =>
        (g.refcount (applyAll plan.patches emptyImage) 0,
          g.refs (applyAll plan.patches emptyImage) 0)
      | .error _ => none) = some (0, 1) := by decide +kernel
  cases hplan : planFor (deviceOf emptyImage) (growTo 0 1536 512) emptyHdr 4 with
  | error e =>
    rw [hplan] at heval
    cases heval
  | ok plan =>
    rw [hplan] at heval
    refine ⟨plan, rfl, emptyImage_sound, fun hall => ?_⟩
    obtain ⟨g, -, hparse, -, -, -, hcov⟩ := hall _ (prefix_refl _)
    dsimp only at heval
    rw [hparse, map_some, some.injEq, Prod.mk.injEq] at heval
    have hle := hcov 0
    omega

end Instar.Resize
