import Instar.Qcow2.Extensions
import Instar.Resize.Grow

/-!
# What a resize leaves of the header

Every plan that changes the size writes a header built from a handful of the image's parameters over
the first cluster, and nothing after it touches that cluster.  So the rest of the header is kept
exactly if it is what `build_header` writes for those parameters.
-/

namespace Instar.Resize

open Instar.Qcow2

variable {hdr : QcowHeader} {disk m : ByteMap} {opts : Qcow2ResizeOpts} {plan : ResizePlan}
  {fuel k : Nat} {d d' : Device} {config : ResizeConfig}

/-! ## The fields besides the sizes and the places of the tables -/

/-- Offset and width of the fields of a header, without the virtual size at 24, the L1 at 36 and 40
and the refcount table at 48 and 56. -/
def keptFields : List (Nat × Nat) :=
  [(0, 4), (4, 4),      -- magic, version
    (8, 8), (16, 4),    -- backing file
    (20, 4), (32, 4),   -- cluster bits, crypt method
    (60, 4), (64, 8),   -- snapshots
    (72, 8), (80, 8),   -- incompatible and compatible features
    (88, 8), (96, 4),   -- autoclear features, refcount order
    (100, 4), (104, 1)] -- header length, compression type

/-- The rest of the header is as it was. -/
structure HeaderKept (clusterSize : Nat) (before after : ByteMap) : Prop where
  fields : ∀ f ∈ keptFields, after.be f.1 f.2 = before.be f.1 f.2
  extensions : headerExtensions ⟨clusterSize, after⟩ = headerExtensions ⟨clusterSize, before⟩

/-- The header has nothing that `build_header` does not write. -/
structure PlainHeader (hdr : QcowHeader) (disk : ByteMap) : Prop where
  version : hdr.version = 3
  length : hdr.headerLength = qcow2HeaderLengthV3
  crypt : hdr.cryptMethod = 0
  snapshots : hdr.nbSnapshots = 0
  snapshotsOffset : hdr.snapshotsOffset = 0
  compatible : hdr.compatibleFeatures ≤ compatLazyRefcounts
  autoclear : disk.be autoclearFeaturesOffset 8 = 0
  order : disk.be 96 4 ≤ 6
  compression : hdr.compressionType = 0
  extensions : headerExtensions ⟨hdr.clusterSize, disk⟩ = []

theorem legalWidth_order {order : Nat} (h : order ≤ 6) :
    LegalWidth (2 ^ order) ∧ trailingZeros (2 ^ order) = order := by
  have hall : ∀ o < 7, LegalWidth (2 ^ o) ∧ trailingZeros (2 ^ o) = o := by decide
  exact hall order (by omega)

/-- The parser takes a width only as a power of two. -/
theorem legalWidth_fieldsOf (header : Buffer) : LegalWidth (fieldsOf header).refcountBits := by
  show LegalWidth (if 3 ≤ header.be 4 4 then (if header.be 96 4 ≤ 6 then _ else _) else _)
  split
  · split
    next ho => exact (legalWidth_order ho).1
    · decide
  · decide

/-! ## The header is written once and last over its cluster -/

/-- The patches rewrite the header, and those after it are refcount blocks. -/
def RewritesHeader (hdr : QcowHeader) (disk : ByteMap) (patches : List (Nat × Buffer)) : Prop :=
  ∃ before blocks size l1Entries l1Offset tableOffset tableClusters,
    patches = before ++ (0, ⟨hdr.clusterSize,
      headerBytes (headerLayout hdr hdr.clusterBits size l1Entries
      l1Offset tableOffset tableClusters) hdr.lazyRefcounts⟩) :: place hdr disk blocks ∧
    ∀ s ∈ blocks, hdr.blockAt disk s.1 ≠ 0

variable (hf : FromImage hdr disk opts)

include hf

variable (hp : hdr.Parsed) {target : Qcow2Layout} {header : Buffer}

include hp

theorem rewritesHeader_of_last {plan' : ResizePlan}
    {size l1Entries l1Offset tableOffset tableClusters : Nat}
    (hheader : headerFor opts size l1Entries l1Offset tableOffset tableClusters = .ok header)
    (hpush : plan.push 0 header = .ok plan') : RewritesHeader hdr disk plan'.patches := by
  refine ⟨plan.patches, [], size, l1Entries, l1Offset, tableOffset, tableClusters, ?_, by simp⟩
  rw [(push_ok hpush).2, headerFor_ok hf hp hheader]
  rfl

theorem rewritesHeader_of_push {plan' plan'' : ResizePlan}
    {size l1Entries l1Offset tableOffset tableClusters : Nat} {blocks : List (Nat × Buffer)}
    (hheader : headerFor opts size l1Entries l1Offset tableOffset tableClusters = .ok header)
    (hpush : plan.push 0 header = .ok plan')
    (hblocks : pushBlocks opts.existingRefcountTable blocks plan' = .ok plan'') :
    RewritesHeader hdr disk plan''.patches := by
  obtain ⟨-, hpatches, hall⟩ := pushBlocks_ok hblocks
  obtain ⟨hplace, hne⟩ := hf.place_eq hall
  refine ⟨plan.patches, blocks, size, l1Entries, l1Offset, tableOffset, tableClusters, ?_, hne⟩
  rw [hpatches, hplace, (push_ok hpush).2, headerFor_ok hf hp hheader, List.append_assoc,
    List.singleton_append]

theorem planHeaderOnly_rewrites (h : planHeaderOnly opts = .ok plan) :
    RewritesHeader hdr disk plan.patches := by
  obtain ⟨-, h⟩ := ok_of_check h
  obtain ⟨header, hheader, h⟩ := ok_of_bind h
  exact rewritesHeader_of_last hf hp hheader h

theorem planL1Grow_rewrites (h : planL1Grow opts target = .ok plan) :
    RewritesHeader hdr disk plan.patches := by
  unfold planL1Grow at h
  simp only [bind_eq_ok, failIf_eq_ok, exists_const] at h
  obtain ⟨-, _, -, _, -, header, hheader, _, -, _, -, _, hpush, h⟩ := h
  exact rewritesHeader_of_push hf hp hheader hpush h

theorem planL1AndRefcountGrow_rewrites {count : Nat}
    (h : planL1AndRefcountGrow opts fuel target count = .ok plan) :
    RewritesHeader hdr disk plan.patches := by
  unfold planL1AndRefcountGrow at h
  simp only [bind_eq_ok, failIf_eq_ok, exists_const] at h
  obtain ⟨_, -, -, -, -, _, -, header, hheader, h⟩ := h
  -- the overlap and the cleanup are staged, then four patches and the overlap blocks are pushed
  obtain ⟨_, -, _, -, _, -, _, -, _, -, _, -, _, -, _, -, _, hpush, h⟩ := h
  exact rewritesHeader_of_push hf hp hheader hpush h

theorem planShrink_rewrites (h : planShrink opts = .ok plan) :
    RewritesHeader hdr disk plan.patches := by
  unfold planShrink at h
  simp only [bind_eq_ok, failIf_eq_ok, exists_const] at h
  obtain ⟨_, -, -, -, _, -, _, -, header, hheader, _, -, _, -, _, -, h⟩ := h
  exact rewritesHeader_of_last hf hp hheader h

/-- Whatever the request, the plan is empty or rewrites the header. -/
theorem planGrow_rewrites (h : planGrow opts fuel = .ok plan) :
    validateIncompat hdr.incompatibleFeatures = .ok () ∧
      (opts.newVirtualSize = opts.currentVirtualSize → plan.patches = []) ∧
      (opts.newVirtualSize ≠ opts.currentVirtualSize → RewritesHeader hdr disk plan.patches) := by
  obtain ⟨-, h⟩ := ok_of_check h
  obtain ⟨_, hgates, h⟩ := ok_of_bind h
  obtain ⟨_, -, h⟩ := ok_of_bind h
  refine ⟨hf.features ▸ hgates, ?_⟩
  split at h
  · refine ⟨fun heq => absurd heq (by omega), fun _ => ?_⟩
    split at h
    · exact planShrink_rewrites hf hp h
    · cases h
  · split at h
    next heq =>
      cases h
      exact ⟨fun _ => rfl, fun hne => absurd heq hne⟩
    next hne =>
      refine ⟨fun heq => absurd heq hne, fun _ => ?_⟩
      simp only [bind_eq_ok, failIf_eq_ok, exists_const] at h
      obtain ⟨-, -, _, -, _, -, _, -, _, -, h⟩ := h
      split at h
      · exact planHeaderOnly_rewrites hf hp h
      · exact planL1Grow_rewrites (hf.withFileSize _) hp h
      · exact planL1AndRefcountGrow_rewrites (hf.withFileSize _) hp h

omit hp hf

theorem RewritesHeader.fixed {patches : List (Nat × Buffer)} (h : RewritesHeader hdr disk patches)
    (hp : hdr.Parsed) (hw : LegalWidth hdr.refcountBits)
    (hblocks : ∀ k, hdr.blockAt disk k ≠ 0 → hdr.clusterSize ≤ hdr.blockAt disk k) :
    ∃ size l1Entries l1Offset tableOffset tableClusters, Fixed (applyAll patches disk)
      (headerLayout hdr hdr.clusterBits size l1Entries l1Offset tableOffset tableClusters)
      hdr.lazyRefcounts := by
  obtain ⟨before, blocks, size, l1Entries, l1Offset, tableOffset, tableClusters, rfl, hne⟩ := h
  have hfixed : ∀ layout : Qcow2Layout, layout.clusterBits = hdr.clusterBits →
      layout.refcountBits = hdr.refcountBits →
      Fixed (headerBytes layout hdr.lazyRefcounts) layout hdr.lazyRefcounts :=
      fun layout hbits hwidth =>
    headerBytes_fixed (hbits ▸ hp.bits_le) (hwidth ▸ hw) _
  refine ⟨size, l1Entries, l1Offset, tableOffset, tableClusters,
    (hfixed _ rfl rfl).congr fun i hi => ?_⟩
  have h512 : 512 ≤ hdr.clusterSize := Nat.le_of_dvd hp.size_pos hp.size_dvd
  refine applyAll_last ⟨Nat.zero_le _, show i < 0 + hdr.clusterSize by omega⟩ fun v hv hcov => ?_
  obtain ⟨s, hs, rfl⟩ := List.mem_map.mp hv
  have hle := hblocks s.1 (hne s hs)
  have hlo : hdr.blockAt disk s.1 ≤ i := hcov.1
  omega

/-- The rest of a rewritten header is the old one exactly if the old one is plain. -/
theorem headerKept_iff {layout : Qcow2Layout} {sector : Nat}
    (hx : Fixed m layout hdr.lazyRefcounts)
    (hlayout : layout.clusterBits = hdr.clusterBits ∧ layout.refcountBits = hdr.refcountBits ∧
      layout.extendedL2 = hdr.extendedL2) (hr : hdr = fieldsOf ⟨sector, disk⟩) (hb : Bounded hdr)
    (hacc : accepts disk hdr) (hgates : validateIncompat hdr.incompatibleFeatures = .ok ()) :
    HeaderKept hdr.clusterSize disk m ↔ PlainHeader hdr disk := by
  obtain ⟨hmagic, hbo, hbs⟩ := hacc
  obtain ⟨hbits, hwidth, hext⟩ := hlayout
  have hnone : headerExtensions ⟨hdr.clusterSize, m⟩ = [] := by
    unfold headerExtensions
    split
    · rfl
    · split
      · rfl
      · exact extensionsFrom_end ((congrArg (fun off => m.be off 4) hx.length).trans hx.rest)
  have hcomp : m.be 104 1 = 0 := be_take_zero (n := 3) hx.rest
  have hfeatures := rewritten_features hb hgates
  subst hr
  -- what the parser takes from a version 3 header
  have hv3 : ∀ {a b : Nat}, disk.be 4 4 = 3 → (if 3 ≤ disk.be 4 4 then a else b) = a :=
    fun hver => if_pos hver.ge
  constructor
  · rintro ⟨hfields, hexts⟩
    have hver : disk.be 4 4 = 3 := (hfields (4, 4) (by decide)).symm.trans hx.version
    refine ⟨hver, ?_, ?_, ?_, ?_, ?_, ?_, ?_, ?_, hexts.symm.trans hnone⟩
    · exact (hv3 hver).trans ((hfields (100, 4) (by decide)).symm.trans hx.length)
    · exact (hfields (32, 4) (by decide)).symm.trans hx.crypt
    · exact (hfields (60, 4) (by decide)).symm.trans hx.snapshots
    · exact (hfields (64, 8) (by decide)).symm.trans hx.snapshotsOffset
    · refine ((hv3 hver).trans ((hfields (80, 8) (by decide)).symm.trans hx.compatible)).le.trans ?_
      split <;> decide
    · exact (hfields (88, 8) (by decide)).symm.trans hx.autoclear
    · have heq := (hfields (96, 4) (by decide)).symm.trans hx.order
      rw [heq, hwidth]
      exact (order_of_width (legalWidth_fieldsOf _)).1
    · exact (hv3 hver).trans ((hfields (104, 1) (by decide)).symm.trans hcomp)
  · intro hplain
    have hver : disk.be 4 4 = 3 := hplain.version
    have hcompat : (if (fieldsOf ⟨sector, disk⟩).lazyRefcounts then compatLazyRefcounts else 0) =
        disk.be 80 8 := by
      refine Eq.trans ?_ (hv3 hver : (fieldsOf ⟨sector, disk⟩).compatibleFeatures = _)
      have hall : ∀ f ≤ compatLazyRefcounts,
          (if decide (f &&& compatLazyRefcounts ≠ 0) = true then compatLazyRefcounts
            else 0) = f := by
        decide
      exact hall _ hplain.compatible
    have horder : trailingZeros layout.refcountBits = disk.be 96 4 := by
      have hbits : (fieldsOf ⟨sector, disk⟩).refcountBits = 2 ^ disk.be 96 4 :=
        (hv3 hver).trans (if_pos hplain.order)
      rw [hwidth, hbits]
      exact (legalWidth_order hplain.order).2
    refine ⟨fun f hf => ?_, hnone.trans hplain.extensions.symm⟩
    simp only [keptFields, List.mem_cons, List.not_mem_nil, or_false] at hf
    rcases hf with rfl | rfl | rfl | rfl | rfl | rfl | rfl | rfl | rfl | rfl | rfl | rfl | rfl | rfl
    · exact hx.magic.trans hmagic.symm
    · exact hx.version.trans hver.symm
    · exact hx.backingOffset.trans hbo.symm
    · exact hx.backingSize.trans hbs.symm
    · exact hx.bits.trans hbits
    · exact hx.crypt.trans hplain.crypt.symm
    · exact hx.snapshots.trans hplain.snapshots.symm
    · exact hx.snapshotsOffset.trans hplain.snapshotsOffset.symm
    · exact hx.features.trans (hext ▸ hfeatures.trans (hv3 hver))
    · exact hx.compatible.trans hcompat
    · exact hx.autoclear.trans hplain.autoclear.symm
    · exact hx.order.trans horder
    · exact hx.length.trans (hplain.length.symm.trans (hv3 hver))
    · exact hcomp.trans (hplain.compression.symm.trans (hv3 hver))

/-- A resize that reports success keeps the rest of the header exactly if it changes nothing or the
header was plain. -/
theorem runQcow2_header_iff {result : ResizeResult} (hsec : 0 < d.sectorSize)
    (hparse : QcowHeader.parse ⟨d.sectorSize, d.bytes⟩ = some hdr) (hacc : accepts d.bytes hdr)
    (hblocks : ∀ k, hdr.blockAt d.bytes k ≠ 0 → hdr.clusterSize ≤ hdr.blockAt d.bytes k)
    (hrun : runQcow2 d config fuel = (some result, d')) (hok : result.error = none) :
    HeaderKept hdr.clusterSize d.bytes d'.bytes ↔
      config.newVirtualSize = config.currentVirtualSize ∨ PlainHeader hdr d.bytes := by
  have hp := QcowHeader.parse_parsed hparse
  obtain ⟨-, hr⟩ := QcowHeader.parse_eq_some.mp hparse
  obtain ⟨hdr', plan, hparse', hplan, -, hbytes', -⟩ := runQcow2_ok hsec hrun hok
  obtain rfl : hdr = hdr' := Option.some.inj (hparse.symm.trans hparse')
  obtain ⟨l1, table, blocks, l2, hf, hgrow, -⟩ := planFor_ok hsec hplan
  obtain ⟨hgates, hsame, hshape⟩ := planGrow_rewrites hf hp hgrow
  rw [hbytes']
  by_cases heq : config.newVirtualSize = config.currentVirtualSize
  · rw [hsame heq]
    exact iff_of_true ⟨fun _ _ => rfl, rfl⟩ (.inl heq)
  · obtain ⟨size, l1Entries, l1Offset, tableOffset, tableClusters, hx⟩ :=
      (hshape heq).fixed hp (hr ▸ legalWidth_fieldsOf _) hblocks
    rw [headerKept_iff hx ⟨rfl, rfl, rfl⟩ hr (parse_bounded hparse) hacc hgates, or_iff_right heq]

theorem smallImage_block (h : smallHdr.blockAt smallImage k ≠ 0) :
    smallHdr.clusterSize ≤ smallHdr.blockAt smallImage k := by
  have hall : ∀ k < 64, smallHdr.blockAt smallImage k = 0 ∨
      512 ≤ smallHdr.blockAt smallImage k := by
    decide +kernel
  have hk : k < 64 := by
    by_contra hge
    exact h (if_neg hge)
  exact (hall k hk).resolve_left h

/-- Growing the small image keeps its header. -/
theorem runQcow2_header_small :
    ∃ result d', runQcow2 (deviceOf smallImage) (growTo 100 2048 65536) 4 = (some result, d') ∧
      result.error = none ∧ HeaderKept 512 smallImage d'.bytes := by
  obtain ⟨result, hrun, hok⟩ :=
    run_of_eval (deviceOf smallImage) (growTo 100 2048 65536) 4 (by decide +kernel)
  have hplain : PlainHeader smallHdr smallImage :=
    ⟨rfl, rfl, rfl, rfl,
      rfl, by decide, by decide +kernel, by decide +kernel, rfl, by decide +kernel⟩
  exact ⟨result, _, hrun, hok, (runQcow2_header_iff (d := deviceOf smallImage) (by decide)
    smallImage_parse ⟨by decide +kernel, rfl,
      rfl⟩ (fun _ => smallImage_block) hrun hok).mpr (.inr hplain)⟩

/-- The small image with one snapshot, whose table is in cluster 4. -/
def savedImage (i : Nat) : UInt8 :=
  match i with
  | 63 => 1 | 70 => 8 | 1033 => 1
  | _ => smallImage i

/-- The header of the image with a snapshot. -/
def savedHdr : QcowHeader := { smallHdr with nbSnapshots := 1, snapshotsOffset := 2048 }

/-- Growing it within its last cluster drops the snapshot from the header. -/
theorem runQcow2_header_lost :
    QcowHeader.parse ⟨512, savedImage⟩ = some savedHdr ∧ accepts savedImage savedHdr ∧
      ∃ result d', runQcow2 (deviceOf savedImage) (growTo 100 2560 512) 4 = (some result, d') ∧
        result.error = none ∧ ¬ HeaderKept 512 savedImage d'.bytes := by
  obtain ⟨result, hrun, hok⟩ :=
    run_of_eval (deviceOf savedImage) (growTo 100 2560 512) 4 (by decide +kernel)
  refine ⟨by decide +kernel, ⟨by decide +kernel, rfl, rfl⟩, result, _, hrun, hok, ?_⟩
  intro hkept
  have hsame := hkept.fields (60, 4) (by decide)
  revert hsame
  decide +kernel

end Instar.Resize
