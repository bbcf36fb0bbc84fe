import Instar.Bitmap.Effect

/-!
# What a run has read and what it leaves on disk

`Staged` is what is known when the actions start: the header, the directory and the refcount blocks
are those of the disk.  `writeBack_ok` says what a write-back that succeeds leaves: the autoclear
bit cleared, the clusters patched, the extension patched, and the bit set again if there are bitmaps
left.
-/

namespace Instar.Bitmap

open Qcow2 Attempt ByteMap QcowHeader List

variable {d d' : Device} {config : BitmapConfig} {sg : Staging} {scratch m : ByteMap}
  {hdr : QcowHeader} {f : Nat → Nat} {header : Buffer} {j : Nat}

/-! ## Staging -/

/-- The header cluster of an image. -/
def headerOf (m : ByteMap) : Buffer := ⟨2 ^ m.be 20 4, m⟩

/-- The refcount block that entry `k` of the refcount table names. -/
def refblockAt (hdr : QcowHeader) (m : ByteMap) (k : Nat) : Nat :=
  m.be (hdr.refcountTableOffset + k * 8) 8 &&& l1OffsetMask

/-- What staging has found out and read. -/
structure Staged (d : Device) (config : BitmapConfig) (sg : Staging) : Prop where
  sector : 0 < d.sectorSize
  parse : parse (headerOf d.bytes) = some sg.hdr
  len : sg.header.len = sg.hdr.clusterSize
  bytes : ∀ i < sg.hdr.clusterSize, sg.header.bytes i = d.bytes i
  version : 3 ≤ sg.hdr.version
  ext : sg.ext = bitmapsExtension sg.header
  gate : sg.ext.isSome = true → ¬ bitmapsConsistent sg.header → AllRemove config.actions
  dir : ∀ i < sg.dirSize, sg.dir i = d.bytes (sg.dirOffset + i)
  actions : config.actions.length ≤ maxBitmapActions
  populated : 0 < sg.refblocks.offsets.length
  count : sg.refblocks.offsets.length ≤ maxRefblocks
  blocks : sg.refblocks.blocks.len = sg.refblocks.offsets.length * sg.hdr.clusterSize
  block : ∀ k off, sg.refblocks.offsets[k]? = some off →
    k < sg.hdr.refcountTableClusters * sg.hdr.clusterSize / 8 ∧ off = refblockAt sg.hdr d.bytes k ∧
    off ≠ 0 ∧
    ∀ i < sg.hdr.clusterSize, sg.refblocks.blocks.bytes (k * sg.hdr.clusterSize + i) =
    d.bytes (off + i)

theorem stageHeader_ok (h : stageHeader d = .ok (hdr, header)) :
    0 < d.sectorSize ∧ parse (headerOf d.bytes) = some hdr ∧ header.len = hdr.clusterSize ∧
      ∀ i < hdr.clusterSize, header.bytes i = d.bytes i := by
  obtain ⟨hsector, h⟩ := ok_of_check h
  obtain ⟨-, h⟩ := ok_of_check h
  have hs : 0 < d.sectorSize := by
    unfold SectorSizeOk at hsector
    omega
  split at h
  · cases h
  rename_i hdr0 hparse0
  obtain ⟨-, h⟩ := ok_of_check h
  obtain ⟨bytes, hbytes, hparse, rfl⟩ : ∃ bytes :
      ByteMap, (∀ i < hdr0.clusterSize, bytes i = d.bytes i) ∧
      parse ⟨hdr0.clusterSize, bytes⟩ = some hdr ∧ header = ⟨hdr0.clusterSize, bytes⟩ := by
    split at h
    · obtain ⟨bytes, hread, h⟩ := ok_of_bind h
      refine ⟨bytes, fun i hi => by rw [readInput_ok hs hread i hi, zero_add], ?_⟩
      dsimp only at h
      split at h <;> cases h
      exact ⟨‹_›, rfl⟩
    · obtain ⟨bytes, hread, h⟩ := ok_of_bind h
      cases hread
      refine ⟨d.bytes, fun _ _ => rfl, ?_⟩
      dsimp only at h
      split at h <;> cases h
      exact ⟨‹_›, rfl⟩
  have hbits := parse_parsed hparse0
  have hsize : hdr0.clusterSize = 2 ^ d.bytes.be 20 4 := by
    obtain ⟨-, rfl⟩ := parse_eq_some.mp hparse0
    rfl
  have hlarge : 512 ≤ hdr0.clusterSize := by
    rw [hbits.size_eq]
    exact Nat.pow_le_pow_right (n := 2) (i := 9) (by decide) hbits.bits_ge
  have hparse' : parse (headerOf d.bytes) = some hdr := by
    rw [← hparse]
    refine parse_congr ?_ fun i hi => (hbytes i (by omega)).symm
    unfold headerOf
    rw [← hsize]
  have hsame : hdr.clusterSize = hdr0.clusterSize := by
    rw [hsize]
    obtain ⟨-, rfl⟩ := parse_eq_some.mp hparse'
    rfl
  exact ⟨hs, hparse', hsame.symm, fun i hi => hbytes i (hsame ▸ hi)⟩

theorem readRefblocks_ok {cs k : Nat} {offs : List Nat} {blocks blocks' : ByteMap}
    (hs : 0 < d.sectorSize)
    (h : readRefblocks d cs offs k blocks = .ok blocks') : (∀ i < k * cs, blocks' i = blocks i) ∧
      ∀ j off, offs[j]? = some off → ∀ i < cs, blocks' ((k + j) * cs + i) = d.bytes (off + i) := by
  induction offs generalizing k blocks with
  | nil =>
    cases h
    exact ⟨fun _ _ => rfl, nofun⟩
  | cons off offs ih =>
    obtain ⟨bytes, hread, h⟩ := ok_of_bind h
    obtain ⟨hkept, hrest⟩ := ih h
    have hnext : (k + 1) * cs = k * cs + cs := Nat.succ_mul k cs
    refine ⟨fun i hi => ?_, fun j off' hoff i hi => ?_⟩
    · rw [hkept i (by omega), splice_outside (by omega)]
    · cases j with
      | zero =>
        obtain rfl : off = off' := Option.some.inj hoff
        rw [add_zero, hkept _ (by omega), splice_inside hi]
        exact readInput_ok hs hread i hi
      | succ j =>
        rw [show k + (j + 1) = k + 1 + j by omega]
        exact hrest j off' hoff i hi

theorem stageRefblocks_ok {staged : StagedRefblocks} (hs : 0 < d.sectorSize)
    (h : stageRefblocks d hdr = .ok staged) :
    0 < staged.offsets.length ∧ staged.offsets.length ≤ maxRefblocks ∧
      staged.blocks.len = staged.offsets.length * hdr.clusterSize ∧
      ∀ k off, staged.offsets[k]? = some off → k < hdr.refcountTableClusters * hdr.clusterSize / 8 ∧
        off = refblockAt hdr d.bytes k ∧ off ≠ 0 ∧
        ∀ i < hdr.clusterSize, staged.blocks.bytes (k * hdr.clusterSize + i) =
        d.bytes (off + i) := by
  unfold stageRefblocks at h
  simp only [bind_eq_ok, failIf_eq_ok, exists_const] at h
  obtain ⟨rt, hrt, -, hcount, -, blocks, hblocks, h⟩ := h
  cases h
  refine ⟨pos_of_ne_zero fun hzero => hcount (.inl hzero), not_lt.mp fun hlt =>
    hcount (.inr hlt), rfl, fun k off hoff => ?_⟩
  have hmem := mem_of_getElem? hoff
  have hread := (readRefblocks_ok hs hblocks).2 k off hoff
  rw [zero_add] at hread
  -- a populated entry is the entry of the table at the same place
  obtain ⟨hk, hentry⟩ := List.getElem?_eq_some_iff.mp hoff
  rw [(List.takeWhile_prefix _).getElem hk, getElem_map, getElem_range] at hentry
  have hlt := lt_of_lt_of_le hk (List.takeWhile_prefix _).length_le
  rw [length_map, length_range] at hlt
  refine ⟨by omega, ?_, by simpa using all_eq_true.mp all_takeWhile off hmem, hread⟩
  rw [← hentry, readInput_be hs hrt (by omega)]
  rfl

theorem stageAll_ok (h : stageAll d config scratch = .ok sg) : Staged d config sg := by
  obtain ⟨⟨hdr, header⟩, hheader, h⟩ := ok_of_bind h
  simp only [bind_eq_ok, failIf_eq_ok, exists_const] at h
  obtain ⟨hversion, -, -, hgate, -, dir, hdir, refblocks, hblocks, hactions, h⟩ := h
  cases h
  obtain ⟨hs, hparse, hlen, hbytes⟩ := stageHeader_ok hheader
  obtain ⟨hpopulated, hcount, hblocksLen, hblock⟩ := stageRefblocks_ok hs hblocks
  refine ⟨hs, hparse, hlen,
    hbytes, by dsimp only; omega, rfl, fun hsome hclear => ?_, fun i hi => ?_,
    by omega, hpopulated, hcount, hblocksLen, hblock⟩
  · by_contra hremove
    exact hgate ⟨hsome, hclear, hremove⟩
  · unfold Staging.dirSize at hi
    dsimp only at hi ⊢
    unfold stageDirectory at hdir
    cases hext : bitmapsExtension header with
    | none =>
      rw [hext] at hi
      exact absurd hi (Nat.not_lt_zero i)
    | some ext =>
      rw [hext] at hi hdir
      dsimp only at hdir
      split at hdir
      · cases hdir
      split at hdir
      · cases hdir
      next hread =>
        cases hdir
        have hi : i < ext.bitmapDirectorySize := hi
        rw [Device.readRange_ok hs hread, splice_mem (Nat.zero_le _) (by omega),
          drop_apply, Nat.sub_zero]
        rfl

theorem Staged.geometry (h : Staged d config sg) : GeometryOk sg.geom := by
  have hparsed := parse_parsed h.parse
  have hcs : sg.geom.clusterSize = 2 ^ sg.hdr.clusterBits := hparsed.size_eq
  have hle : sg.geom.clusterSize ≤ 2 ^ 21 := by
    rw [hcs]
    exact Nat.pow_le_pow_right (by decide) hparsed.bits_le
  have hcount : sg.geom.refblockCount ≤ 32 := h.count
  refine ⟨rfl, rfl, ?_, ?_, ?_⟩
  · rw [hcs]
    exact Nat.two_pow_pos _
  · rw [hcs]
    exact Nat.mod_eq_zero_of_dvd (pow_dvd_pow 2 hparsed.bits_ge)
  · calc sg.geom.refblockCount * (sg.geom.clusterSize / 2) * sg.geom.clusterSize
        ≤ 32 * 2 ^ 20 * 2 ^ 21 := Nat.mul_le_mul (Nat.mul_le_mul hcount (by omega)) hle
      _ < 2 ^ 56 := by decide

/-! ## The autoclear bit -/

/-- The autoclear word is changed by `f`. -/
def withAutoclear (f : Nat → Nat) (m : ByteMap) : ByteMap :=
  m.splice autoclearFeaturesOffset 8 (.ofBe (f (m.be autoclearFeaturesOffset 8)) 8)

/-- Clearing the bit of the bitmaps. -/
def withoutBitmapsBit : ByteMap → ByteMap := withAutoclear (· &&& complU64 autoclearBitmapsBit)

/-- Setting the bit of the bitmaps. -/
def withBitmapsBit : ByteMap → ByteMap := withAutoclear (· ||| autoclearBitmapsBit)

theorem testBit_withAutoclear {i : Nat} (hi : i < 8) (hj : j < 8) :
    (withAutoclear f m (88 + i)).toNat.testBit j = (f (m.be 88 8)).testBit (8 * (7 - i) + j) := by
  unfold withAutoclear autoclearFeaturesOffset
  rw [splice_inside hi, testBit_ofBe hj]

theorem withAutoclear_keeps
    (hf : ∀ w j, 0 < j → j < 64 → (f w).testBit j = w.testBit j) :
    (∀ b, b ≠ 95 → withAutoclear f m b = m b) ∧
      ∀ j, 0 < j → j < 8 → (withAutoclear f m 95).toNat.testBit j = (m 95).toNat.testBit j := by
  have hbit : ∀ i j, i < 8 → j < 8 → 0 < 8 * (7 - i) + j →
      (withAutoclear f m (88 + i)).toNat.testBit j = (m (88 + i)).toNat.testBit j := by
    intro i j hi hj hpos
    rw [testBit_withAutoclear hi hj, hf _ _ hpos (by omega)]
    exact testBit_be hi hj
  refine ⟨fun b hb => ?_, fun j hpos hj => hbit 7 j (by omega) hj (by omega)⟩
  by_cases hin : 88 ≤ b ∧ b < 96
  · obtain ⟨i, rfl⟩ := Nat.exists_eq_add_of_le hin.1
    exact byte_ext fun j hj => hbit i j (by omega) hj (by omega)
  · exact splice_outside (by unfold autoclearFeaturesOffset; omega)

theorem testBit_compl (w : Nat) (hj : j < 64) :
    (w &&& complU64 autoclearBitmapsBit).testBit j = (w.testBit j && decide (0 < j)) := by
  rw [Nat.testBit_and, show complU64 autoclearBitmapsBit = 2 ^ 1 * (2 ^ 63 - 1) by decide,
    Nat.testBit_two_pow_mul, Nat.testBit_two_pow_sub_one]
  congr 1
  have hlt : j - 1 < 63 := by omega
  rw [decide_eq_true hlt, Bool.and_true]
  exact decide_eq_decide.mpr Iff.rfl

theorem testBit_set (w : Nat) :
    (w ||| autoclearBitmapsBit).testBit j = (w.testBit j || decide (j = 0)) := by
  rw [Nat.testBit_or, show autoclearBitmapsBit = 2 ^ 0 by decide, Nat.testBit_two_pow]
  congr 1
  exact decide_eq_decide.mpr eq_comm

theorem withoutBitmapsBit_keeps (m : ByteMap) : (∀ b, b ≠ 95 → withoutBitmapsBit m b = m b) ∧
      ∀ j, 0 < j → j < 8 → (withoutBitmapsBit m 95).toNat.testBit j = (m 95).toNat.testBit j :=
  withAutoclear_keeps fun w j hpos hj => by
    rw [testBit_compl w hj, decide_eq_true hpos, Bool.and_true]

theorem withBitmapsBit_keeps (m : ByteMap) : (∀ b, b ≠ 95 → withBitmapsBit m b = m b) ∧
      ∀ j, 0 < j → j < 8 → (withBitmapsBit m 95).toNat.testBit j = (m 95).toNat.testBit j :=
  withAutoclear_keeps fun w j hpos hj => by
    rw [testBit_set w, decide_eq_false (by omega), Bool.or_false]

theorem bitmapsConsistent_iff :
    bitmapsConsistent header ↔ 96 ≤ header.len ∧ (header.bytes 95).toNat.testBit 0 = true := by
  unfold bitmapsConsistent autoclearOf autoclearFeaturesOffset autoclearBitmapsBit
  rw [Nat.and_one_is_mod]
  split
  next hlen =>
    have hbit : (header.be 88 8).testBit (8 * (8 - 1 - 7) + 0) =
        (header.bytes (88 + 7)).toNat.testBit 0 :=
      testBit_be (by decide) (by decide)
    rw [← hbit, Nat.testBit_zero, decide_eq_true_iff]
    omega
  next hlen =>
    omega

/-! ## Writing -/

/-- A step that succeeds changes the contents of the device by `g`. -/
def Sets (m : Op Unit) (g : ByteMap → ByteMap) : Prop :=
  ∀ d d', 0 < d.sectorSize → m d = (.ok (), d') → d'.sectorSize = d.sectorSize ∧
    d'.bytes = g d.bytes

theorem Sets.seq {m k : Op Unit} {g g' : ByteMap → ByteMap} (hm : Sets m g) (hk : Sets k g') :
    Sets (m >>= fun _ => k) fun bytes => g' (g bytes) := by
  intro d d' hs hrun
  obtain ⟨_, d1, hfirst, hrest⟩ := Attempt.ok_of_bind hrun
  obtain ⟨hsize, hbytes⟩ := hm d d1 hs hfirst
  obtain ⟨hsize', hbytes'⟩ := hk d1 d' (hsize ▸ hs) hrest
  exact ⟨hsize'.trans hsize, by rw [hbytes', hbytes]⟩

theorem writeInput_sets (off : Nat) (buf : Buffer) :
    Sets (writeInput off buf) fun m => m.splice off buf.len buf.bytes := by
  intro d d' hs hrun
  unfold writeInput at hrun
  split at hrun
  · cases hrun
  next hwrite =>
    cases hrun
    obtain ⟨es, rfl, -, hbytes⟩ := Device.writeRange_spec hs hwrite
    exact ⟨rfl, hbytes rfl⟩

theorem fsyncInput_sets : Sets fsyncInput fun m => m := by
  intro d d' _ hrun
  cases hrun
  unfold Device.fsync
  split
  · exact ⟨rfl, rfl⟩
  · exact ⟨rfl, rfl⟩

theorem rmwFeatureWord_sets (f : Nat → Nat) :
    Sets (rmwFeatureWord autoclearFeaturesOffset f) (withAutoclear f) := by
  intro d d' hs hrun
  obtain ⟨bytes, d1, hnow, hwrite⟩ := Attempt.ok_of_bind hrun
  obtain ⟨hread, rfl⟩ := Prod.mk.inj hnow
  have hword := readInput_be (a := 0) (w := 8) hs hread (by omega)
  rw [hword] at hwrite
  exact writeInput_sets _ _ d d' hs hwrite

theorem writePatches_sets (ps : List (Nat × Buffer)) : Sets (writePatches ps) (applyAll ps) := by
  induction ps with
  | nil =>
    intro d d' _ hrun
    cases hrun
    exact ⟨rfl, rfl⟩
  | cons p ps ih => exact (writeInput_sets p.1 p.2).seq ih

theorem clearAutoclear_sets : Sets clearAutoclear withoutBitmapsBit :=
  (rmwFeatureWord_sets _).seq fsyncInput_sets

theorem setAutoclear_sets : Sets setAutoclear withBitmapsBit :=
  (rmwFeatureWord_sets _).seq fsyncInput_sets

variable {st : ActionState}

/-- The last step of a write-back. -/
def restored (st : ActionState) (m : ByteMap) : ByteMap :=
  if st.extensionPresent = true ∧ 0 < st.nb then withBitmapsBit m else m

theorem restoreAutoclear_sets (st : ActionState) : Sets (restoreAutoclear st) (restored st) := by
  unfold restoreAutoclear restored
  split
  · exact setAutoclear_sets
  · intro d d' _ hrun
    cases hrun
    exact ⟨rfl, rfl⟩

/-- What a write-back that succeeds leaves. -/
theorem writeBack_ok (hs : 0 < d.sectorSize) (h : writeBack sg st d = (.ok (), d')) :
    ∃ placed ext, placeDirectory sg st = .ok placed ∧
    extensionPatch sg st.nb st.len placed.1 = .ok ext ∧
      d'.bytes = restored st (applyAll ext
        (applyAll (clusterPatches sg st placed.1 placed.2) (withoutBitmapsBit d.bytes))) := by
  obtain ⟨placed, d1, hplace, h1⟩ := Attempt.ok_of_bind h
  obtain ⟨hplaced, rfl⟩ := ok_of_ofExcept hplace
  obtain ⟨_, d2, hclear, h2⟩ := Attempt.ok_of_bind h1
  obtain ⟨_, d3, hclusters, h3⟩ := Attempt.ok_of_bind h2
  obtain ⟨_, d4, hsync, h4⟩ := Attempt.ok_of_bind h3
  obtain ⟨ext, d5, hpatch, h5⟩ := Attempt.ok_of_bind h4
  obtain ⟨hext, rfl⟩ := ok_of_ofExcept hpatch
  obtain ⟨hs2, hbytes2⟩ := clearAutoclear_sets _ _ hs hclear
  obtain ⟨hs3, hbytes3⟩ := writePatches_sets _ _ _ (hs2 ▸ hs) hclusters
  obtain ⟨hs4, hbytes4⟩ := fsyncInput_sets _ _ (by rw [hs3, hs2]; exact hs) hsync
  obtain ⟨-, hbytes⟩ :=
    ((writePatches_sets ext).seq (fsyncInput_sets.seq (restoreAutoclear_sets st))) _ _
    (by rw [hs4, hs3, hs2]; exact hs) h5
  exact ⟨placed, ext, hplaced, hext, by rw [hbytes, hbytes4, hbytes3, hbytes2]⟩

/-! ## Where the directory goes -/

section Place

variable {off : Nat} {b : Buffer} {es : List BitmapDirEntry} {m : ByteMap}

theorem placeDirectory_behind (hg : GeometryOk sg.geom) (ht : Tracks m sg.geom es st)
    (hdir : sg.dirOffset = 0 ∨ sg.hdr.clusterSize ≤ sg.dirOffset) (hnb : 0 < st.nb)
    (h : placeDirectory sg st = .ok (off, b)) : sg.hdr.clusterSize ≤ off := by
  unfold placeDirectory at h
  rw [if_neg (by omega), if_pos hnb] at h
  generalize (if sg.dirOffset ≠ 0 then divCeil sg.dirSize sg.hdr.clusterSize else 0) =
    oldClusters at h
  split at h
  next hold =>
    have hbehind := hdir.resolve_left hold.1
    split at h
    · obtain ⟨-, h⟩ := ok_of_check h
      obtain ⟨b1, -, h⟩ := ok_of_bind h
      cases h
      exact hbehind
    · cases h
      exact hbehind
  · split at h
    · cases h
    rename_i host b1 cursor1 halloc
    have hn : 0 < max (divCeil st.len sg.hdr.clusterSize) 1 := by omega
    have hcursor : CursorOk sg.geom ⟨0, 0, 0⟩ := by
      show 0 * _ + 0 < 2 ^ 64
      omega
    obtain ⟨s, rfl, -, -, hfree, -⟩ := alloc_ok hg ht.blocks hcursor hn halloc
    have hbehind : sg.geom.clusterSize ≤ s * sg.geom.clusterSize := alloc_behind hn ht.header hfree
    split at h
    · obtain ⟨b2, -, h⟩ := ok_of_bind h
      cases h
      exact hbehind
    · cases h
      exact hbehind

theorem placeDirectory_same (hnb : 0 < st.nb) (hdir : sg.dirOffset ≠ 0) (hsize : 0 < sg.dirSize)
    (hlen : st.len ≤ sg.dirSize) (hcs : 0 < sg.hdr.clusterSize)
    (h : placeDirectory sg st = .ok (off, b)) : off = sg.dirOffset := by
  have hclusters : max (divCeil st.len sg.hdr.clusterSize) 1 ≤
      divCeil sg.dirSize sg.hdr.clusterSize := by
    unfold divCeil
    have hmono := Nat.div_le_div_right (c := sg.hdr.clusterSize)
      (show st.len + sg.hdr.clusterSize - 1 ≤ sg.dirSize + sg.hdr.clusterSize - 1 by omega)
    have hpos : 0 < (sg.dirSize + sg.hdr.clusterSize - 1) / sg.hdr.clusterSize :=
      Nat.div_pos (by omega) hcs
    omega
  unfold placeDirectory at h
  rw [if_neg (by omega), if_pos hnb, if_pos hdir, if_pos ⟨hdir, hclusters⟩] at h
  split at h
  · obtain ⟨-, h⟩ := ok_of_check h
    obtain ⟨b1, -, h⟩ := ok_of_bind h
    cases h
    rfl
  · cases h
    rfl

theorem placeDirectory_none (hg : GeometryOk sg.geom) (hnb : st.nb = 0)
    (h : placeDirectory sg st = .ok (off, b)) : Freed (fun _ => False) st.refblocks b := by
  have hsectors : sg.hdr.clusterSize % 512 = 0 := hg.sectors
  have heven : sg.hdr.clusterSize % 2 = 0 := by omega
  unfold placeDirectory at h
  rw [if_pos hnb] at h
  obtain ⟨b1, hfree, h⟩ := ok_of_bind h
  cases h
  exact freeClusterRun_freed hg.pos heven hfree fun _ _ h => h

end Place

end Instar.Bitmap
