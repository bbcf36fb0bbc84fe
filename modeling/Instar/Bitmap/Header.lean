import Instar.Bitmap.Written

/-!
# What a bitmap operation does to the header

The header of an image says where its bitmaps are, in the bitmaps extension, and whether they can be
trusted, in the autoclear bit.  An operation that completes must not set the bit over bitmaps that
could not be trusted before: it does, unless it leaves no bitmap at all.

`Layout` is what a well-formed image has for this: the structures the operation writes lie behind
the cluster of the header, apart from its directory, and that cluster is counted.
-/

namespace Instar.Bitmap

open Qcow2 Attempt ByteMap List Buffer

variable {m m' : ByteMap} {hdr : QcowHeader} {d d' : Device} {config : BitmapConfig} {sg : Staging}
  {st : ActionState} {scratch spare : ByteMap} {ext : BitmapsExtension} {result : BitmapResult}
  {es : List BitmapDirEntry} {off : Nat}

/-! ## The bitmaps of an image -/

/-- The bitmaps `for_each_bitmap_entry` finds. -/
def bitmapsIn (m : ByteMap) : List BitmapDirEntry :=
  match bitmapsExtension (headerOf m) with
  | none => []
  | some ext => bitmapEntriesFrom m ext.nbBitmaps ext.bitmapDirectoryOffset ext.bitmapDirectorySize

theorem bitmapsIn_of_ext (h : bitmapsExtension (headerOf m) = some ext) :
    bitmapsIn m = bitmapEntriesFrom m ext.nbBitmaps ext.bitmapDirectoryOffset
    ext.bitmapDirectorySize := by
  unfold bitmapsIn
  rw [h]

/-- A bitmap of the first image is in the second, where the bitmaps are said to be consistent. -/
def Revived (m m' : ByteMap) : Prop :=
  bitmapsConsistent (headerOf m') ∧ ∃ e ∈ bitmapsIn m, ∃ e' ∈ bitmapsIn m', e'.name = e.name

/-- The refcount of a cluster, read through the refcount table. -/
def countOf (hdr : QcowHeader) (m : ByteMap) (c : Nat) : Nat :=
  let block := refblockAt hdr m (c / (hdr.clusterSize / 2))
  if block = 0 then 0 else m.be (block + 2 * (c % (hdr.clusterSize / 2))) 2

/-- What a well-formed image has: a complete directory, named by one whole record, and refcount
blocks, tables and data behind the cluster of the header. -/
structure Layout (hdr : QcowHeader) (m : ByteMap) : Prop where
  length : 104 ≤ m.be 100 4
  record : ∀ r ∈ recordsOf (headerOf m), r.type = extBitmaps → 24 ≤ r.len
  single : ((recordsOf (headerOf m)).filter fun r => r.type = extBitmaps).length ≤ 1
  block : ∀ k < hdr.refcountTableClusters * hdr.clusterSize / 8, refblockAt hdr m k ≠ 0 →
    hdr.clusterSize ≤ refblockAt hdr m k ∧ ∀ ext ∈ bitmapsExtension (headerOf m),
      refblockAt hdr m k + hdr.clusterSize ≤ ext.bitmapDirectoryOffset ∨
        ext.bitmapDirectoryOffset + ext.bitmapDirectorySize ≤ refblockAt hdr m k
  directory : ∀ ext ∈ bitmapsExtension (headerOf m), hdr.clusterSize ≤ ext.bitmapDirectoryOffset ∧
    (bitmapsIn m).length = ext.nbBitmaps ∧ span (bitmapsIn m) = ext.bitmapDirectorySize
  table : ∀ e ∈ bitmapsIn m, hdr.clusterSize ≤ e.bitmapTableOffset
  data : ∀ e ∈ bitmapsIn m, ∀ i < e.bitmapTableSize,
    ∀ host ∈ dataAt m (e.bitmapTableOffset + 8 * i), hdr.clusterSize ≤ host
  counted : countOf hdr m 0 ≠ 0

/-! ## The staged header -/

section Congruence

variable {header header' : Buffer}

/-- The records of a header of at least 104 bytes, in a header that differs at most in their
bodies. -/
theorem recordsOf_congr (hlen : header'.len = header.len)
    (hfixed : ∀ b < 104, b < header.len → b ≠ 95 → header'.bytes b = header.bytes b)
    (hbytes : ∀ b, header.be 100 4 ≤ b → b < header.len →
      (∀ r ∈ recordsOf header, ¬ (r.body ≤ b ∧ b < r.body + r.len)) →
      header'.bytes b = header.bytes b) :
    recordsOf header' = recordsOf header := by
  obtain ⟨n, bytes⟩ := header
  obtain ⟨n', bytes'⟩ := header'
  obtain rfl : n' = n := hlen
  by_cases hroom : n' < 104
  · have hnone : ∀ bs, recordsOf ⟨n', bs⟩ = [] := fun bs => by
      unfold recordsOf
      rw [if_pos (show (⟨n', bs⟩ : Buffer).len < 104 from hroom), ite_self]
    rw [hnone, hnone]
  have hbe : ∀ a, a = 4 ∨ a = 100 → be ⟨n', bytes'⟩ a 4 = be ⟨n', bytes⟩ a 4 := fun a ha =>
    be_congr fun i hi => hfixed _ (by omega) (by dsimp only; omega) (by omega)
  unfold recordsOf at hbytes ⊢
  rw [hbe 4 (.inl rfl), hbe 100 (.inr rfl)]
  by_cases hversion : be ⟨n', bytes⟩ 4 4 < 3
  · rw [if_pos hversion, if_pos hversion]
  rw [if_neg hversion, if_neg hroom] at hbytes ⊢
  rw [if_neg hversion, if_neg hroom]
  exact recordsFrom_congr hbytes

theorem parseBitmapsExtension_congr {n a : Nat} (h : ∀ i < n, m' (a + i) = m (a + i)) :
    parseBitmapsExtension ⟨n, m'.drop a⟩ = parseBitmapsExtension ⟨n, m.drop a⟩ := by
  unfold parseBitmapsExtension
  by_cases hn : n < 24
  · rw [if_pos hn, if_pos hn]
  have hbe : ∀ i w, i + w ≤ 24 → be ⟨n, m'.drop a⟩ i w = be ⟨n, m.drop a⟩ i w := fun i w hi =>
    be_congr fun j hj => by
      show m'.drop a (i + j) = m.drop a (i + j)
      exact h _ (by omega)
  rw [if_neg hn, if_neg hn, hbe 0 4 (by omega), hbe 8 8 (by omega), hbe 16 8 (by omega)]

/-- A record of a header lies inside it, behind the fixed fields. -/
theorem recordsOf_body {r : ExtensionRecord} (h : r ∈ recordsOf header) :
    header.be 100 4 + 8 ≤ r.body ∧ r.body + r.len ≤ header.len := by
  unfold recordsOf at h
  split at h
  · cases h
  split at h
  · cases h
  · exact recordsFrom_body h

theorem bitmapsExtension_congr (hlen : header'.len = header.len)
    (hbytes : ∀ b < header.len, header'.bytes b = header.bytes b) :
    bitmapsExtension header' = bitmapsExtension header := by
  unfold bitmapsExtension
  rw [recordsOf_congr hlen (fun b _ hb _ => hbytes b hb) fun b _ hb _ => hbytes b hb]
  refine congrArg getLast? (filterMap_congr fun r hr => ?_)
  have hr := (recordsOf_body (mem_of_mem_filter hr)).2
  exact parseBitmapsExtension_congr fun i hi => hbytes _ (by omega)

end Congruence

namespace Staged

variable (h : Staged d config sg)

include h

theorem size_eq : (headerOf d.bytes).len = sg.hdr.clusterSize := by
  rw [(QcowHeader.parse_eq_some.mp h.parse).2]
  rfl

theorem large : 512 ≤ sg.hdr.clusterSize := by
  have hpos := h.geometry.pos
  have hsectors := h.geometry.sectors
  exact Nat.le_of_dvd hpos (Nat.dvd_of_mod_eq_zero hsectors)

theorem header_eq : sg.header.len = (headerOf d.bytes).len := h.len.trans h.size_eq.symm

theorem header_bytes : ∀ b < (headerOf d.bytes).len, sg.header.bytes b =
    (headerOf d.bytes).bytes b :=
  fun b hb => h.bytes b (h.size_eq ▸ hb)

theorem records : recordsOf sg.header = recordsOf (headerOf d.bytes) :=
  recordsOf_congr h.header_eq (fun b _ hb _ => h.header_bytes b hb) fun b _ hb _ =>
    h.header_bytes b hb

theorem extension : sg.ext = bitmapsExtension (headerOf d.bytes) :=
  h.ext.trans (bitmapsExtension_congr h.header_eq h.header_bytes)

theorem consistent : bitmapsConsistent sg.header ↔ bitmapsConsistent (headerOf d.bytes) := by
  have hlarge := h.large
  rw [bitmapsConsistent_iff, bitmapsConsistent_iff, h.header_eq,
    h.header_bytes 95 (by rw [h.size_eq]; omega)]

/-- A staged refcount is the one on disk. -/
theorem rcAt_eq {c : Nat} (hc : c < sg.refblocks.offsets.length * (sg.hdr.clusterSize / 2)) :
    rcAt sg.refblocks.blocks.bytes c = countOf sg.hdr d.bytes c := by
  have hlarge := h.large
  have hsectors : sg.hdr.clusterSize % 512 = 0 := h.geometry.sectors
  have hk : c / (sg.hdr.clusterSize / 2) < sg.refblocks.offsets.length :=
    (Nat.div_lt_iff_lt_mul (by omega)).mpr hc
  have hmod : c % (sg.hdr.clusterSize / 2) < sg.hdr.clusterSize / 2 := Nat.mod_lt _ (by omega)
  obtain ⟨-, hoff, hne, hbytes⟩ := h.block _ _ (getElem?_eq_getElem hk)
  rw [hoff] at hne hbytes
  unfold countOf
  rw [if_neg hne]
  refine be_congr fun i hi => ?_
  have hplace : c / (sg.hdr.clusterSize / 2) * sg.hdr.clusterSize +
      c % (sg.hdr.clusterSize / 2) * 2 = 2 * c :=
    entry_offset (by omega) c
  rw [← hplace, add_assoc, hbytes _ (by omega)]
  congr 1
  omega

end Staged

/-- A walk that comes to all its entries has them packed. -/
theorem packed_of_entries {n remaining : Nat}
    (h : (bitmapEntriesFrom m n off remaining).length = n) :
    Packed m off (bitmapEntriesFrom m n off remaining) := by
  induction n generalizing off remaining with
  | zero => trivial
  | succ n ih =>
    rw [bitmapEntriesFrom] at h ⊢
    split at h
    · cases h
    next e he =>
      obtain ⟨hsize, -, hat⟩ := entryAt_ok.mp (show _ = Except.ok (e.1, e.2) from he)
      refine ⟨hat, ?_⟩
      rw [← hsize]
      exact ih (Nat.succ.inj h)

/-! ## The actions on a well-formed image -/

theorem span_sublist {es' : List BitmapDirEntry} (h : es'.Sublist es) : span es' ≤ span es := by
  induction h with
  | slnil => exact le_rfl
  | cons e _ ih => exact ih.trans (Nat.le_add_left _ _)
  | cons_cons e _ ih => exact Nat.add_le_add_left ih _

variable (h : Staged d config sg)

include h

variable (hext : bitmapsExtension (headerOf d.bytes) = some ext)

include hext in
theorem Staged.dirOffset_eq :
      sg.nbBitmaps = ext.nbBitmaps ∧ sg.dirOffset = ext.bitmapDirectoryOffset ∧
      sg.dirSize = ext.bitmapDirectorySize := by
  unfold Staging.nbBitmaps Staging.dirOffset Staging.dirSize
  rw [h.extension, hext]
  exact ⟨rfl, rfl, rfl⟩

variable (hl : Layout sg.hdr d.bytes) {w : Nat × Buffer} {b : Buffer}

include hl

/-- The bitmaps the run starts with are those of the image. -/
theorem Staged.bitmaps : Packed sg.dir 0 (bitmapsIn d.bytes) ∧
      sg.nbBitmaps = (bitmapsIn d.bytes).length ∧ sg.dirSize = span (bitmapsIn d.bytes) ∧
      (sg.dirOffset = 0 ∨ sg.hdr.clusterSize ≤ sg.dirOffset) := by
  cases hext : bitmapsExtension (headerOf d.bytes) with
  | none =>
    have hnone : bitmapsIn d.bytes = [] := by
      unfold bitmapsIn
      rw [hext]
    unfold Staging.nbBitmaps Staging.dirOffset Staging.dirSize
    rw [hnone, h.extension, hext]
    exact ⟨trivial, rfl, rfl, .inl rfl⟩
  | some ext =>
    obtain ⟨hnb, hoff, hsize⟩ := h.dirOffset_eq hext
    obtain ⟨hbehind, hlength, hspan⟩ := hl.directory ext hext
    refine ⟨?_, by rw [hnb, hlength], by rw [hsize, hspan], .inr (by rw [hoff]; exact hbehind)⟩
    have hpacked : Packed d.bytes ext.bitmapDirectoryOffset (bitmapsIn d.bytes) := by
      rw [bitmapsIn_of_ext hext] at hlength ⊢
      exact packed_of_entries hlength
    refine hpacked.moved fun i hi => ?_
    rw [zero_add, h.dir i (by omega), hoff]

/-- The actions start from what the image holds. -/
theorem Staged.tracks (spare : ByteMap) :
    Tracks d.bytes sg.geom (bitmapsIn d.bytes) (sg.start spare) := by
  have hlarge := h.large
  obtain ⟨hpacked, hnb, hsize, -⟩ := h.bitmaps hl
  refine ⟨hpacked, hnb, hsize, h.blocks, ?_, ?_, nofun, fun e he => ⟨hl.table e he, .inr ?_⟩,
    fun hpos => decide_eq_true hpos⟩
  · show rcAt sg.refblocks.blocks.bytes 0 ≠ 0
    rw [h.rcAt_eq (mul_pos h.populated (by omega))]
    exact hl.counted
  · show 0 * _ + 0 < 2 ^ 64
    omega
  · exact hl.data e he

omit hl h

theorem planActions_ok (h : planActions d config sg spare = .ok st) :
    ∃ bits, applyActions d sg.geom config.name bits (sg.start spare) config.actions = .ok st := by
  obtain ⟨-, h⟩ := ok_of_check h
  dsimp only at h
  split at h
  · cases h
  next bits _ =>
    obtain ⟨-, h⟩ := ok_of_check h
    exact ⟨bits, h⟩

/-- A run that completes has staged the image, and written back what its actions came to or
merged. -/
theorem runQcow2_ok (h : runQcow2 config scratch spare d = (result, d'))
    (hok : result.error = none) : ∃ sg, Staged d config sg ∧
      ((ActionCode.merge ∉ config.actions ∧ ∃ st, planActions d config sg spare = .ok st ∧
        writeBack sg st d = (.ok (), d')) ∨
      config.actions = [.merge] ∧ runMerge config sg d = (.ok result, d')) := by
  unfold runQcow2 at h
  split at h
  · cases h
    cases hok
  rename_i sg hstage
  refine ⟨sg, stageAll_ok hstage, ?_⟩
  split at h
  · cases h
    cases hok
  rename_i hrun
  cases h
  unfold runStaged at hrun
  split at hrun
  · split at hrun
    next hsole =>
      exact .inr ⟨hsole, hrun⟩
    · cases hrun
  next hmerge =>
    refine .inl ⟨hmerge, ?_⟩
    unfold runActions at hrun
    split at hrun
    · cases hrun
    rename_i st hplan
    split at hrun
    · cases hrun
    next hwrite =>
      cases hrun
      exact ⟨st, hplan, hwrite⟩

include h

theorem mem_refblockPatches (hw : w ∈ refblockPatches sg b) :
    ∃ k < sg.hdr.refcountTableClusters * sg.hdr.clusterSize / 8, w.1 = refblockAt sg.hdr d.bytes k ∧
    w.1 ≠ 0 ∧
      w.2 = b.slice (k * sg.hdr.clusterSize) sg.hdr.clusterSize ∧
      ∀ i < sg.hdr.clusterSize, sg.refblocks.blocks.bytes (k * sg.hdr.clusterSize + i) =
      d.bytes (w.1 + i) := by
  obtain ⟨k, hk, rfl⟩ := mem_mapIdx.mp hw
  obtain ⟨hlt, hoff, hne, hbytes⟩ := h.block k _ (getElem?_eq_getElem hk)
  exact ⟨k, hlt, hoff, hne, rfl, hbytes⟩

include hl in
theorem clusterPatches_behind
    (ht : Tracks d.bytes sg.geom es st) (hplace : placeDirectory sg st = .ok (off, b))
    (hw : w ∈ clusterPatches sg st off b) : sg.hdr.clusterSize ≤ w.1 := by
  rcases mem_append.mp hw with hw | hw
  · rcases mem_append.mp hw with hw | hw
    · obtain ⟨z, hz, rfl⟩ := mem_map.mp hw
      exact ht.zeros z hz
    · split at hw
      next hdir =>
        rw [mem_singleton.mp hw]
        exact placeDirectory_behind h.geometry ht (h.bitmaps hl).2.2.2 hdir.1 hplace
      · cases hw
  · obtain ⟨k, hk, hoff, hne, -⟩ := mem_refblockPatches h hw
    rw [hoff] at hne ⊢
    exact (hl.block k hk hne).1

omit h

/-- Patches at a byte only see that byte. -/
theorem applyAll_congr {ws : List (Nat × Buffer)} {b : Nat} (h : m' b = m b) :
    applyAll ws m' b = applyAll ws m b := by
  induction ws generalizing m m' with
  | nil => exact h
  | cons w ws ih =>
    refine ih ?_
    by_cases hw : w.1 ≤ b ∧ b < w.1 + w.2.len
    · rw [splice_mem hw.1 hw.2, splice_mem hw.1 hw.2]
    · rw [splice_outside (by omega), splice_outside (by omega), h]

theorem restored_keeps (st : ActionState) (m : ByteMap) : (∀ b, b ≠ 95 → restored st m b = m b) ∧
      ∀ j, 0 < j → j < 8 → (restored st m 95).toNat.testBit j = (m 95).toNat.testBit j := by
  unfold restored
  split
  · exact withBitmapsBit_keeps m
  · exact ⟨fun _ _ => rfl, fun _ _ _ => rfl⟩

include hl in
include h in
/-- The header after a write-back: the patches of the extension, and a bit. -/
theorem header_after {placed : Nat × Buffer} {patch : List (Nat × Buffer)}
    (ht : Tracks d.bytes sg.geom es st) (hplace : placeDirectory sg st = .ok placed)
    (hpatch : ∀ w ∈ patch, 104 ≤ w.1) (hbytes : d'.bytes = restored st (applyAll patch
      (applyAll (clusterPatches sg st placed.1 placed.2) (withoutBitmapsBit d.bytes)))) :
    (∀ b < sg.hdr.clusterSize, b ≠ 95 → d'.bytes b = applyAll patch d.bytes b) ∧
      ∀ j, 0 < j → j < 8 → (d'.bytes 95).toNat.testBit j = (d.bytes 95).toNat.testBit j := by
  have hlarge := h.large
  have hclusters : ∀ b < sg.hdr.clusterSize,
      applyAll (clusterPatches sg st placed.1 placed.2) (withoutBitmapsBit d.bytes) b =
        withoutBitmapsBit d.bytes b := fun b hb => applyAll_outside fun w hw hcov => by
    have hbehind := clusterPatches_behind h hl ht hplace hw
    have hlo := hcov.1
    omega
  rw [hbytes]
  refine ⟨fun b hb hne => ?_, fun j hpos hj => ?_⟩
  · rw [(restored_keeps st _).1 b hne]
    exact applyAll_congr ((hclusters b hb).trans ((withoutBitmapsBit_keeps _).1 b hne))
  · rw [(restored_keeps st _).2 j hpos hj, applyAll_outside fun w hw hcov => by
      have hlo := hcov.1
      have := hpatch w hw
      omega, hclusters 95 (by omega)]
    exact (withoutBitmapsBit_keeps _).2 j hpos hj

/-- The bytes of the header cluster that belong to no body of a bitmaps record keep their values,
the byte of the autoclear bit apart. -/
def KeptOutside (m m' : ByteMap) : Prop :=
  ∀ b < (headerOf m).len, b ≠ 95 → (∀ r ∈ recordsOf (headerOf m), r.type = extBitmaps →
    b < r.body ∨ r.body + r.len ≤ b) → m' b = m b

theorem KeptOutside.records (hkept : KeptOutside m m') (hlen : 104 ≤ m.be 100 4)
    (hlarge : 104 ≤ (headerOf m).len) :
    (headerOf m').len = (headerOf m).len ∧ recordsOf (headerOf m') = recordsOf (headerOf m) := by
  have hfixed : ∀ b < 104, b ≠ 95 → m' b = m b :=
      fun b hb hne => hkept b (by omega) hne fun r hr _ => by
    have hbody : m.be 100 4 + 8 ≤ r.body := (recordsOf_body hr).1
    omega
  have hfield : m'.be 20 4 = m.be 20 4 := be_congr fun i hi => hfixed _ (by omega) (by omega)
  have hsize : (headerOf m').len = (headerOf m).len := by
    unfold headerOf
    rw [hfield]
  refine ⟨hsize, recordsOf_congr hsize (fun b hb _ hne => hfixed b hb hne) fun b hlo hb hbodies =>
    ?_⟩
  have hlo : m.be 100 4 ≤ b := hlo
  exact hkept b hb (by omega) fun r hr _ => by
    have := hbodies r hr
    omega

/-! ## Bitmaps that cannot be trusted -/

include hext in
include h in
/-- The gate lets only removals at stale bitmaps. -/
theorem Staged.all_remove (hstale : ¬ bitmapsConsistent (headerOf d.bytes)) :
    ∀ a ∈ config.actions, a = .remove := by
  have hsome : sg.ext.isSome = true := by
    rw [h.extension, hext]
    rfl
  obtain ⟨-, hall⟩ := h.gate hsome fun hcons => hstale (h.consistent.mp hcons)
  rw [take_of_length_le h.actions] at hall
  exact hall

theorem extensionBody_none (size off i : Nat) : (extensionBody 0 size off).bytes i = 0 := by
  have hbyte : ∀ w k, ofBe 0 w k = 0 := fun w k => by
    unfold ofBe
    rw [Nat.zero_div]
    rfl
  show (serializeBitmapsExtension 0 0 0).bytes i = 0
  simp [serializeBitmapsExtension, splice, hbyte, zeros]

include hext in
include h in
/-- Without bitmaps left the bit stays clear: whatever goes to its byte was there before or is
zero. -/
theorem stale_of_none_left (hstale : ¬ bitmapsConsistent (headerOf d.bytes))
    (hplan : planActions d config sg spare = .ok st) (hwrite : writeBack sg st d = (.ok (), d'))
    (hnone : bitmapsAfter ext.nbBitmaps config.actions = 0) :
    ¬ bitmapsConsistent (headerOf d'.bytes) := by
  have hlarge := h.large
  obtain ⟨bits, happly⟩ := planActions_ok hplan
  obtain ⟨hnb, hzeros, hfreed⟩ := removes_ok h.sector h.geometry (h.all_remove hext hstale) happly
  replace hnb : st.nb = 0 := by
    rw [hnb, ← hnone, ← (h.dirOffset_eq hext).1]
    rfl
  replace hzeros : st.zeros = [] := hzeros
  obtain ⟨placed, patch, hplace, hpatch, hbytes⟩ := writeBack_ok h.sector hwrite
  have hfreed := hfreed.trans (placeDirectory_none h.geometry hnb hplace)
  have hold : (d.bytes 95).toNat.testBit 0 = false := by
    rw [bitmapsConsistent_iff, h.size_eq] at hstale
    exact Bool.eq_false_iff.mpr fun hbit => hstale ⟨by omega, hbit⟩
  have hzero : (0 : UInt8).toNat.testBit 0 = false := by decide
  have hcleared : (withoutBitmapsBit d.bytes 95).toNat.testBit 0 = false := by
    show (withAutoclear _ d.bytes (88 + 7)).toNat.testBit 0 = false
    rw [testBit_withAutoclear (by decide) (by decide), testBit_compl _ (by decide)]
    exact Bool.and_false _
  have hclusters : (applyAll (clusterPatches sg st placed.1 placed.2) (withoutBitmapsBit d.bytes)
      95).toNat.testBit 0 = false := by
    refine applyAll_prop (Q := fun x => x.toNat.testBit 0 = false) (fun w hw hcov => ?_) hcleared
    unfold clusterPatches at hw
    rw [hzeros, if_neg (by omega), map_nil, nil_append, nil_append] at hw
    obtain ⟨k, -, -, -, hslice, hread⟩ := mem_refblockPatches h hw
    obtain ⟨hlo, hhi⟩ := hcov
    rw [hslice] at hhi ⊢
    have hi : 95 - w.1 < sg.hdr.clusterSize := by
      omega
    show (placed.2.bytes.drop (k * sg.hdr.clusterSize) (95 - w.1)).toNat.testBit 0 = false
    rw [drop_apply]
    rcases hfreed.bytes (k * sg.hdr.clusterSize + (95 - w.1)) with heq | ⟨heq, -⟩
    · rw [heq]
      show (sg.refblocks.blocks.bytes _).toNat.testBit 0 = false
      rw [hread _ hi, show w.1 + (95 - w.1) = 95 by omega]
      exact hold
    · rw [heq]
      exact hzero
  have hext' :
      (applyAll patch (applyAll (clusterPatches sg st placed.1 placed.2)
        (withoutBitmapsBit d.bytes))
      95).toNat.testBit 0 = false := by
    refine applyAll_prop (Q := fun x => x.toNat.testBit 0 = false) (fun w hw _ => ?_) hclusters
    unfold extensionPatch at hpatch
    rw [hnb] at hpatch
    split at hpatch
    · cases hpatch
      rw [mem_singleton.mp hw, extensionBody_none]
      exact hzero
    · cases hpatch
      cases hw
  rw [bitmapsConsistent_iff]
  intro hcons
  have hbit : (d'.bytes 95).toNat.testBit 0 = true := hcons.2
  rw [hbytes] at hbit
  unfold restored at hbit
  rw [if_neg (by omega), hext'] at hbit
  cases hbit

/-- With one record, it is the one that is parsed and the one that is written. -/
theorem single_record {header : Buffer}
    (hsingle : ((recordsOf header).filter fun r => r.type = extBitmaps).length ≤ 1)
    (hext : bitmapsExtension header = some ext) : ∃ r, r ∈ recordsOf header ∧ r.type = extBitmaps ∧
      (recordsOf header).filter (fun r => r.type = extBitmaps) = [r] ∧
      parseBitmapsExtension (header.slice r.body r.len) = some ext ∧
      findBitmapsExtBodyOffset header = some r.body := by
  unfold bitmapsExtension at hext
  have hfind := head?_filter (p := fun r : ExtensionRecord => decide (r.type = extBitmaps))
    (l := recordsOf header)
  cases hfilter : (recordsOf header).filter fun r => r.type = extBitmaps with
  | nil =>
    rw [hfilter] at hext
    cases hext
  | cons r rs =>
    rw [hfilter] at hext hsingle hfind
    obtain rfl : rs = [] := length_eq_zero_iff.mp (by rw [length_cons] at hsingle; omega)
    have hmem : r ∈ (recordsOf header).filter fun r => r.type = extBitmaps := by
      rw [hfilter]
      simp
    obtain ⟨hr, htype⟩ := mem_filter.mp hmem
    refine ⟨r, hr, of_decide_eq_true htype, rfl, ?_, ?_⟩
    · cases hparse : parseBitmapsExtension (header.slice r.body r.len) with
      | none =>
        simp only [filterMap_cons, hparse, filterMap_nil] at hext
        cases hext
      | some ext' =>
        simp only [filterMap_cons, hparse, filterMap_nil] at hext
        exact hext
    · unfold findBitmapsExtBodyOffset
      rw [← hfind]
      rfl

theorem parse_serialized {n nb size a : Nat} (hn : 24 ≤ n)
    (hbytes : ∀ i < 24, m (a + i) = (serializeBitmapsExtension nb size off).bytes i)
    (hnb : nb ≠ 0 ∧ nb ≤ qcow2MaxBitmaps) (hsize : size ≤ qcow2MaxBitmapDirectorySize)
    (hoff : off ≠ 0 ∧ off % 8 = 0 ∧ off < 2 ^ 64) :
    parseBitmapsExtension ⟨n, m.drop a⟩ = some ⟨nb, size, off⟩ := by
  unfold qcow2MaxBitmaps at hnb
  unfold qcow2MaxBitmapDirectorySize at hsize
  have hfield : ∀ i w, i + w ≤ 24 →
      be ⟨n, m.drop a⟩ i w = (serializeBitmapsExtension nb size off).bytes.be i w := fun i w hi =>
    be_congr fun j hj => by
      show m.drop a (i + j) = _
      exact hbytes _ (by omega)
  have hnb' : nb < 256 ^ 4 := by omega
  have hsize' : size < 256 ^ 8 := by omega
  have hoff' : off < 256 ^ 8 := hoff.2.2
  have h0 : be ⟨n, m.drop a⟩ 0 4 = nb := by
    rw [hfield 0 4 (by omega)]
    unfold serializeBitmapsExtension
    simp (disch := omega) only [be_splice_outside, be_splice_ofBe hnb']
  have h8 : be ⟨n, m.drop a⟩ 8 8 = size := by
    rw [hfield 8 8 (by omega)]
    unfold serializeBitmapsExtension
    simp (disch := omega) only [be_splice_outside, be_splice_ofBe hsize']
  have h16 : be ⟨n, m.drop a⟩ 16 8 = off := by
    rw [hfield 16 8 (by omega)]
    unfold serializeBitmapsExtension
    simp (disch := omega) only [be_splice_ofBe hoff']
  unfold parseBitmapsExtension qcow2MaxBitmaps qcow2MaxBitmapDirectorySize
  dsimp only
  rw [if_neg (by omega), h0, h8, h16, if_neg (by omega), if_neg (by omega), if_neg (by omega)]

theorem parseBitmapsExtension_bounds {data : Buffer} (h : parseBitmapsExtension data = some ext) :
    ext.nbBitmaps ≤ qcow2MaxBitmaps ∧ ext.bitmapDirectorySize ≤ qcow2MaxBitmapDirectorySize ∧
      ext.bitmapDirectoryOffset ≠ 0 ∧ ext.bitmapDirectoryOffset % 8 = 0 ∧
      ext.bitmapDirectoryOffset < 2 ^ 64 := by
  have hlt : data.be 16 8 < 2 ^ 64 := be_lt _ _ _
  simp only [parseBitmapsExtension, Option.ite_none_left_eq_some, Option.some.injEq] at h
  obtain ⟨-, hnb, hsize, hoff, rfl⟩ := h
  dsimp only
  omega

include hl in
include h in
/-- On a well-formed image the bitmaps that are left come back: the directory is written in its
place, the record is rewritten, and the bit is set. -/
theorem revived_of_some_left (hext : bitmapsExtension (headerOf d.bytes) = some ext)
    (hstale : ¬ bitmapsConsistent (headerOf d.bytes))
    (hplan : planActions d config sg spare = .ok st) (hwrite : writeBack sg st d = (.ok (), d'))
    (hsome : bitmapsAfter ext.nbBitmaps config.actions ≠ 0) : Revived d.bytes d'.bytes := by
  have hsize := h.size_eq
  obtain ⟨hnb0, hoff0, hsize0⟩ := h.dirOffset_eq hext
  obtain ⟨hbehind, hlength, hspan⟩ := hl.directory ext hext
  obtain ⟨r, hr, htype, hfilter, hparse, hbody⟩ := single_record hl.single hext
  have hrlen := hl.record r hr htype
  obtain ⟨hrlo, hrhi⟩ := recordsOf_body hr
  have hheaderLen : 104 ≤ (headerOf d.bytes).be 100 4 := hl.length
  have hremove := h.all_remove hext hstale
  obtain ⟨bits, happly⟩ := planActions_ok hplan
  obtain ⟨-, hzeros, -⟩ := removes_ok h.sector h.geometry hremove happly
  obtain ⟨es, ht, hnb, hsub⟩ := (h.tracks hl spare).run h.sector h.geometry happly
  replace hsub := hsub hremove
  replace hnb : st.nb = bitmapsAfter ext.nbBitmaps config.actions := by
    rw [hnb, ← hnb0]
    rfl
  have hpos : 0 < st.nb := by omega
  have hlen : st.len ≤ ext.bitmapDirectorySize := by
    rw [ht.len, ← hspan]
    exact span_sublist hsub
  have hfull : 0 < st.len := by
    have hne := ht.nb ▸ hpos
    obtain ⟨e, es', rfl⟩ := exists_cons_of_length_pos hne
    have := e.size_ge
    rw [ht.len, span_cons]
    omega
  obtain ⟨⟨off, blocks⟩, patch, hplace, hpatch, hbytes⟩ := writeBack_ok h.sector hwrite
  obtain ⟨hnbMax, hsizeMax, hoffNe, hoffMod, hoffLt⟩ := parseBitmapsExtension_bounds hparse
  have hoff : off = ext.bitmapDirectoryOffset := by
    rw [← hoff0]
    exact placeDirectory_same hpos (by omega) (by omega) (by omega) (by omega) hplace
  -- the patch is the body of the record
  have hbody' : findBitmapsExtBodyOffset sg.header = some r.body := by
    unfold findBitmapsExtBodyOffset at hbody ⊢
    rw [h.records]
    exact hbody
  obtain rfl : patch = [(r.body, serializeBitmapsExtension st.nb st.len off)] := by
    unfold extensionPatch at hpatch
    rw [hbody'] at hpatch
    cases hpatch
    unfold extensionBody
    rw [if_neg (by omega)]
  have hafter := header_after h hl ht hplace
    (fun w hw => by rw [mem_singleton.mp hw]; dsimp only; omega) hbytes
  have hkept : KeptOutside d.bytes d'.bytes := by
    intro b hb hne hout
    have hout := hout r hr htype
    rw [hafter.1 b (by omega) hne, applyAll_outside]
    intro w hw hcov
    rw [mem_singleton.mp hw] at hcov
    obtain ⟨hlo, hhi⟩ : r.body ≤ b ∧ b < r.body + 24 := hcov
    omega
  obtain ⟨hcs, hrecords⟩ := hkept.records hl.length (by omega)
  have hin : ∀ i < 24, d'.bytes (r.body + i) =
      (serializeBitmapsExtension st.nb st.len off).bytes i := by
    intro i hi
    rw [hafter.1 _ (by omega) (by omega), applyAll_cons, applyAll_nil]
    exact splice_inside hi
  have hext' : bitmapsExtension (headerOf d'.bytes) = some ⟨st.nb, st.len, off⟩ := by
    have hparse' : parseBitmapsExtension ((headerOf d'.bytes).slice r.body r.len) = some ⟨st.nb,
        st.len, off⟩ := by
      refine parse_serialized hrlen hin ⟨by omega, ?_⟩ (by omega) (by omega)
      have := hsub.length_le
      rw [ht.nb]
      omega
    unfold bitmapsExtension
    rw [hrecords, hfilter]
    simp only [filterMap_cons, hparse', filterMap_nil]
    rfl
  -- the directory on disk holds the entries that are left
  have hdir : ∀ i < st.len, d'.bytes (off + i) = st.dir i := by
    intro i hi
    rw [hbytes, (restored_keeps st _).1 _ (by omega), applyAll_outside, clusterPatches, hzeros]
    · rw [if_pos ⟨hpos, by omega, hfull⟩]
      show applyAll ([] ++ (off, ⟨st.len, st.dir⟩) :: refblockPatches sg blocks) _ _ = _
      rw [applyAll_last ⟨Nat.le_add_right _ _, by dsimp only; omega⟩, Nat.add_sub_cancel_left]
      intro w hw hcov
      obtain ⟨k, hk, hw1, hne, hw2, -⟩ := mem_refblockPatches h hw
      rw [hw1] at hne
      have hapart := (hl.block k hk hne).2 ext hext
      obtain ⟨hlo, hhi⟩ := hcov
      rw [hw2, hw1] at hhi
      have hhi : off + i < refblockAt sg.hdr d.bytes k + sg.hdr.clusterSize := hhi
      omega
    · intro w hw hcov
      rw [mem_singleton.mp hw] at hcov
      have hhi : off + i < r.body + 24 := hcov.2
      omega
  have hbitmaps : bitmapsIn d'.bytes = es := by
    rw [bitmapsIn_of_ext hext']
    rw [ht.nb]
    refine bitmapEntriesFrom_packed (ht.packed.moved fun i hi => ?_) (le_of_eq ht.len.symm)
    rw [zero_add]
    exact hdir i (ht.len ▸ hi)
  obtain ⟨e, he⟩ := exists_mem_of_length_pos (ht.nb ▸ hpos)
  refine ⟨bitmapsConsistent_iff.mpr ⟨by omega, ?_⟩, e, hsub.subset he,
    e, by rw [hbitmaps]; exact he, rfl⟩
  show (d'.bytes 95).toNat.testBit 0 = true
  rw [hbytes]
  unfold restored
  rw [if_pos ⟨ht.present hpos, hpos⟩]
  show (withAutoclear _ _ (88 + 7)).toNat.testBit 0 = true
  rw [testBit_withAutoclear (by decide) (by decide), testBit_set]
  exact Bool.or_true _

/-- What an operation on stale bitmaps does.  It leaves none of them with the bit set if it leaves
no bitmap at all; on a well-formed image every other operation it accepts revives those that are
left. -/
theorem stale_bitmaps_not_revived (hok : (runQcow2 config scratch spare d).1.error = none)
    (hext : bitmapsExtension (headerOf d.bytes) = some ext)
    (hstale : ¬ bitmapsConsistent (headerOf d.bytes)) :
    (bitmapsAfter ext.nbBitmaps config.actions = 0 →
        ¬ Revived d.bytes (runQcow2 config scratch spare d).2.bytes) ∧
      ∀ hdr, QcowHeader.parse (headerOf d.bytes) = some hdr → Layout hdr d.bytes →
        (¬ Revived d.bytes (runQcow2 config scratch spare d).2.bytes ↔
          bitmapsAfter ext.nbBitmaps config.actions = 0) := by
  generalize hrun : runQcow2 config scratch spare d = run at hok ⊢
  obtain ⟨result, d'⟩ := run
  obtain ⟨sg, h, hcase⟩ := runQcow2_ok hrun hok
  have hremove := h.all_remove hext hstale
  have hwritten : ∃ st, planActions d config sg spare = .ok st ∧
      writeBack sg st d = (.ok (), d') := by
    rcases hcase with ⟨-, hwritten⟩ | ⟨hmerge, -⟩
    · exact hwritten
    · cases hremove .merge (by rw [hmerge]; exact mem_singleton_self _)
  obtain ⟨st, hplan, hwrite⟩ := hwritten
  have hsafe : bitmapsAfter ext.nbBitmaps config.actions = 0 → ¬ Revived d.bytes d'.bytes :=
    fun hnone hrevived => stale_of_none_left h hext hstale hplan hwrite hnone hrevived.1
  refine ⟨hsafe, fun hdr hparse hl => ⟨fun hnot => ?_, hsafe⟩⟩
  obtain rfl : sg.hdr = hdr := Option.some.inj (h.parse.symm.trans hparse)
  by_contra hsome
  exact hnot (revived_of_some_left h hl hext hstale hplan hwrite hsome)

instance (m m' : ByteMap) : Decidable (Revived m m') := inferInstanceAs (Decidable (_ ∧ _))

/-- A small image with two bitmaps, `a` and `b`, that are not consistent: refcount table in cluster
1, refcount block in 2, directory in 3, tables in 4 and 5. -/
def staleImage : ByteMap := fun i => match i with
  | 0 => 0x51 | 1 => 0x46 | 2 => 0x49 | 3 => 0xfb
  | 7 => 3 | 23 => 9 | 30 => 2 | 54 => 2 | 59 => 1 | 99 => 4 | 103 => 104 | 104 => 0x23
  | 105 => 0x85 | 106 => 0x28 | 107 => 0x75 | 111 => 24 | 115 => 2 | 127 => 64 | 134 => 6
  | 518 => 4
  | 1025 => 1 | 1027 => 1 | 1029 => 1 | 1031 => 1 | 1033 => 1 | 1035 => 1
  | 1542 => 8 | 1547 => 1 | 1552 => 1 | 1553 => 12 | 1555 => 1 | 1560 => 97
  | 1574 => 10 | 1579 => 1 | 1584 => 1 | 1585 => 12 | 1587 => 1 | 1592 => 98
  | _ => 0

/-- The same with the bitmap `a` only. -/
def loneImage : ByteMap := fun i => match i with
  | 115 => 1 | 127 => 32 | i => staleImage i

/-- Remove the bitmap `a` from a directory of `nb` bitmaps. -/
def removeA (nb : Nat) : BitmapConfig where
  actions := [.remove]
  name := [97]
  granularity := 0
  mergeSourceLens := []
  mergeSourcePool := []
  probed := ⟨512, 3, 16, 512, 0, 0, nb, 1536, 32 * nb⟩

/-- The header of the image. -/
def staleHdr : QcowHeader := (QcowHeader.parse (headerOf staleImage)).get (by decide +kernel)

theorem staleImage_layout : Layout staleHdr staleImage := by
  refine ⟨?_, ?_, ?_, ?_, ?_, ?_, ?_, ?_⟩ <;> decide +kernel

/-- A device that holds an image with one or two bitmaps. -/
def staleDevice (nb : Nat) : Device := deviceOf (if nb = 1 then loneImage else staleImage)

theorem removeA_completes {nb : Nat} (hnb : nb = 1 ∨ nb = 2) :
    (runQcow2 (removeA nb) zeros zeros (staleDevice nb)).1.error = none ∧
      bitmapsExtension (headerOf (staleDevice nb).bytes) = some ⟨nb, 32 * nb, 1536⟩ ∧
      ¬ bitmapsConsistent (headerOf (staleDevice nb).bytes) := by
  rcases hnb with rfl | rfl <;> decide +kernel

/-- Removing one of two bitmaps, and removing the only one. -/
theorem stale_bitmaps_not_revived_removeA :
    (¬ Revived staleImage (runQcow2 (removeA 2) zeros zeros (staleDevice 2)).2.bytes ↔
      bitmapsAfter 2 [.remove] = 0) ∧
    ¬ Revived loneImage (runQcow2 (removeA 1) zeros zeros (staleDevice 1)).2.bytes := by
  obtain ⟨hok, hext, hstale⟩ := removeA_completes (.inr rfl)
  obtain ⟨hok', hext', hstale'⟩ := removeA_completes (.inl rfl)
  exact ⟨(stale_bitmaps_not_revived hok hext hstale).2 staleHdr (by decide +kernel)
    staleImage_layout, (stale_bitmaps_not_revived hok' hext' hstale').1 rfl⟩

/-- Removing one stale bitmap vouches for the other. -/
theorem removing_one_revives_the_other :
    (runQcow2 (removeA 2) zeros zeros (staleDevice 2)).1.error = none ∧
      bitmapsExtension (headerOf staleImage) = some ⟨2, 64, 1536⟩ ∧
      ¬ bitmapsConsistent (headerOf staleImage) ∧
      Revived staleImage (runQcow2 (removeA 2) zeros zeros (staleDevice 2)).2.bytes := by
  decide +kernel

end Instar.Bitmap
