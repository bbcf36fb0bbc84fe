import Instar.Bitmap.Run
import Instar.Lib.Patches

/-!
# What the actions do to what is staged

Planning works on three things: the list of directory entries, the staged refcounts, and the list of
table clusters that have to be zeroed.  `Freed` says what giving clusters back does to the refcount
blocks, and `Tracks` is what holds from action to action: the directory buffer holds the entries,
and neither the tables, nor the data they name, nor what is allocated lies in the cluster of the
header.
-/

namespace Instar.Bitmap

open Qcow2 Attempt ByteMap List

/-! ## Freeing clusters -/

/-- Refcounts may have been set to zero, those of the clusters in `keep` apart; nothing else in the
blocks has changed. -/
structure Freed (keep : Nat → Prop) (b b' : Buffer) : Prop where
  len : b'.len = b.len
  bytes : ∀ i, b'.bytes i = b.bytes i ∨ b'.bytes i = 0 ∧ ¬ keep (i / 2)

namespace Freed

variable {keep : Nat → Prop} {b b' b'' : Buffer}

theorem refl (keep : Nat → Prop) (b : Buffer) : Freed keep b b := ⟨rfl, fun _ => .inl rfl⟩

theorem trans (h : Freed keep b b') (h' : Freed keep b' b'') : Freed keep b b'' := by
  refine ⟨h'.len.trans h.len, fun i => ?_⟩
  rcases h'.bytes i with hi | hi
  · rw [hi]
    exact h.bytes i
  · exact .inr hi

theorem rcAt_eq (h : Freed keep b b') {c : Nat} (hc : keep c) :
    rcAt b'.bytes c = rcAt b.bytes c := by
  refine be_congr fun i hi => ?_
  rcases h.bytes (2 * c + i) with heq | ⟨-, hfree⟩
  · exact heq
  · rw [show (2 * c + i) / 2 = c by omega] at hfree
    exact absurd hc hfree

end Freed

section Freeing

variable {keep : Nat → Prop} {cs count off n : Nat} {b b' : Buffer}

/-- Setting the refcount of a cluster to zero through its block. -/
theorem freed_of_set {block : Buffer} {c : Nat} (hcs : 0 < cs) (heven : cs % 2 = 0)
    (hset : setRefcountInBlock (b.slice (c / (cs / 2) * cs) cs) (c % (cs / 2)) 16 0 = .ok block)
    (hkeep : ¬ keep c) : Freed keep b (b.patch (c / (cs / 2) * cs) block) := by
  have hentry : setEntry b cs 16 (cs / 2) c 0 = .ok _ := setEntry_eq (by omega) (by omega)
  unfold setEntry at hentry
  dsimp only at hentry
  rw [hset] at hentry
  rw [Except.ok.inj hentry]
  refine ⟨rfl, fun i => ?_⟩
  by_cases hi : i / 2 = c
  · refine .inr ⟨?_, by rw [hi]; exact hkeep⟩
    dsimp only
    rw [splice_mem (by omega) (by omega)]
    unfold ofBe
    rw [Nat.zero_div]
    rfl
  · exact .inl (splice_outside (by omega))

theorem freeCluster_freed (hcs : 0 < cs) (heven : cs % 2 = 0)
    (h : freeCluster cs count b off = .ok b') (hkeep : ¬ keep (off / cs)) : Freed keep b b' := by
  unfold freeCluster at h
  dsimp only at h
  rw [show cs * 8 / 16 = cs / 2 by omega] at h
  split at h
  · cases h
  split at h
  · cases h
  split at h
  · cases h
  next block hset =>
    cases h
    exact freed_of_set hcs heven hset hkeep

/-- A loop that only frees clusters. -/
theorem foldlM_freed {α : Type} {f : Buffer → α → Except BitmapError Buffer} {xs : List α}
    (hstep : ∀ x ∈ xs, ∀ b b', f b x = .ok b' → Freed keep b b') (h : xs.foldlM f b = .ok b') :
    Freed keep b b' := by
  refine foldlM_invariant (fun _ b1 => Freed keep b b1) ?_ (.refl keep b) h
  intro _ x b1 b2 hx hfreed hround
  exact hfreed.trans (hstep x hx b1 b2 hround)

theorem freeClusterRun_freed {start : Nat} (hcs : 0 < cs) (heven : cs % 2 = 0)
    (h : freeClusterRun cs count b start n = .ok b')
    (hkeep : ∀ k < n, ¬ keep ((start + k * cs) / cs)) : Freed keep b b' := by
  refine foldlM_freed (fun k hk b1 b2 hround => ?_) h
  obtain ⟨-, hround⟩ := ok_of_check hround
  exact freeCluster_freed hcs heven hround (hkeep k (mem_range.mp hk))

theorem freeTableClusters_freed {geom : BitmapGeometry} (hcs : 0 < geom.clusterSize)
    (heven : geom.clusterSize % 2 = 0) (hbits : geom.refcountBits = 16)
    (hstart : geom.hostRefblocksStart = 0) (h : freeTableClusters geom b off n = .ok b')
    (hkeep : ∀ x ∈ tableClusters geom off n, ¬ keep (x / geom.clusterSize)) : Freed keep b b' := by
  refine foldlM_freed (fun x hx b1 b2 hround => ?_) h
  obtain ⟨range, hrange, hround⟩ := ok_of_bind hround
  obtain ⟨-, hround⟩ := ok_of_check hround
  obtain ⟨epr, hepr, hrange⟩ := ok_of_bind hrange
  obtain ⟨-, hepr⟩ := ok_of_check hepr
  obtain ⟨-, hepr⟩ := ok_of_check hepr
  cases hepr
  obtain ⟨-, hrange⟩ := ok_of_check hrange
  obtain ⟨-, hrange⟩ := ok_of_check hrange
  obtain ⟨-, hrange⟩ := ok_of_check hrange
  cases hrange
  rw [hbits, hstart, show geom.clusterSize * 8 / 16 =
    geom.clusterSize / 2 by omega, Nat.sub_zero] at hround
  split at hround
  · cases hround
  next block hset =>
    cases hround
    exact freed_of_set hcs heven hset (hkeep x hx)

end Freeing

/-! ## Reading the device -/

variable {d d' : Device} {off len : Nat} (hs : 0 < d.sectorSize) {keep : Nat → Prop}
  {bytes : ByteMap}

include hs

theorem readInput_ok (h : readInput d off len = .ok bytes) :
    ∀ i < len, bytes i = d.bytes (off + i) := by
  intro i hi
  unfold readInput at h
  split at h
  · cases h
  next r hread =>
    cases h
    rw [Device.readRange_ok hs hread, splice_mem (Nat.zero_le _) (by omega),
      drop_apply, Nat.sub_zero]

theorem readInput_be {a w : Nat} (h : readInput d off len = .ok bytes)
    (ha : a + w ≤ len) : bytes.be a w = d.bytes.be (off + a) w :=
  be_congr fun i hi => by
    rw [readInput_ok hs h _ (by omega), add_assoc]

omit hs

/-- The data cluster the word at `off` of a bitmap table names. -/
def dataAt (m : ByteMap) (off : Nat) : Option Nat :=
  match decodeBitmapTableEntry (m.be off 8) with
  | some (.allocated host) => some host
  | _ => none

include hs in
theorem freeBitmapDataClusters_freed {cs count tableSize : Nat} {b b' : Buffer}
    (hcs : 0 < cs) (height : cs % 8 = 0)
    (h : freeBitmapDataClusters d cs count b off tableSize = .ok b')
    (hkeep : ∀ i < tableSize, ∀ host, dataAt d.bytes (off + 8 * i) = some host →
      ¬ keep (host / cs)) :
    Freed keep b b' := by
  unfold freeBitmapDataClusters at h
  split at h
  · cases h
    exact .refl keep b
  refine foldlM_freed (fun k _ b1 b2 hchunk => ?_) h
  obtain ⟨-, hchunk⟩ := ok_of_check hchunk
  obtain ⟨table, htable, hchunk⟩ := ok_of_bind hchunk
  refine foldlM_freed (fun i hi b3 b4 hword => ?_) hchunk
  have hi := mem_range.mp hi
  -- word `i` of chunk `k` is word `k * (cs / 8) + i` of the table
  have hplace : off + k * cs + i * 8 = off + 8 * (k * (cs / 8) + i) := by
    have hmul : k * cs = 8 * (k * (cs / 8)) := by
      conv_lhs => rw [show cs = 8 * (cs / 8) by omega]
      rw [mul_left_comm]
    omega
  unfold freeTableWord at hword
  rw [readInput_be (a := i * 8) (w := 8) hs htable (by omega), hplace] at hword
  split at hword
  · cases hword
  next host hdecode =>
    refine freeCluster_freed hcs (by omega) hword (hkeep (k * (cs / 8) + i) (by omega) host ?_)
    unfold dataAt
    rw [hdecode]
  · cases hword
    exact .refl keep b3

/-! ## Allocating clusters -/

/-- What the staged geometry has: sixteen-bit refcounts from the start of the file on, and offsets
that fit into a table word. -/
structure GeometryOk (geom : BitmapGeometry) : Prop where
  bits : geom.refcountBits = 16
  start : geom.hostRefblocksStart = 0
  pos : 0 < geom.clusterSize
  sectors : geom.clusterSize % 512 = 0
  small : geom.refblockCount * (geom.clusterSize / 2) * geom.clusterSize < 2 ^ 56

/-- A cursor that counts no further than 64 bits. -/
def CursorOk (geom : BitmapGeometry) (cursor : AllocCursor) : Prop :=
  cursor.nextRefblock * (geom.clusterSize / 2) + cursor.nextEntryInRefblock < 2 ^ 64

variable {geom : BitmapGeometry} {b b' : Buffer} {cursor cursor' : AllocCursor}
  (hg : GeometryOk geom)

include hg in
/-- An allocation takes clusters that were free, and frees none. -/
theorem alloc_ok {n host : Nat} (hlen : b.len = geom.refblockCount * geom.clusterSize)
    (hcursor : CursorOk geom cursor) (hn : 0 < n)
    (h : allocContiguousClustersInRefblocks b geom.clusterSize 16 geom.refblockCount 0 n cursor =
      (.ok host, b', cursor')) :
    ∃ s, host = s * geom.clusterSize ∧ host < 2 ^ 56 ∧
      s + n ≤ geom.refblockCount * (geom.clusterSize / 2) ∧
      (∀ k < n, rcAt b.bytes (s + k) = 0) ∧ b'.len = b.len ∧ (∀ c, rcAt b.bytes c ≠ 0 →
        rcAt b'.bytes c ≠ 0) ∧ CursorOk geom cursor' := by
  have hsectors := hg.sectors
  have hpos := hg.pos
  have hsmall := hg.small
  have hepr : 0 < geom.clusterSize / 2 := by omega
  rcases alloc_cases cursor hepr (by omega) hn (le_of_eq hlen.symm) (by omega)
    hcursor with ⟨s, bs, hrun, hfit, hfree, hrc, -⟩ | hrun
  · rw [hrun] at h
    cases h
    have hhost : s * geom.clusterSize ≤
        geom.refblockCount * (geom.clusterSize / 2) * geom.clusterSize :=
      Nat.mul_le_mul_right _ (by omega)
    have hcovered : geom.refblockCount * (geom.clusterSize / 2) ≤
        geom.refblockCount * (geom.clusterSize / 2) * geom.clusterSize :=
        Nat.le_mul_of_pos_right _ hpos
    refine ⟨s, rfl, by omega, hfit, hfree, rfl, fun c hc => ?_, ?_⟩
    · dsimp only
      rw [hrc]
      split
      · exact one_ne_zero
      · exact hc
    · unfold CursorOk
      rw [Nat.div_add_mod']
      omega
  · rw [hrun] at h
    cases h

/-- The cluster of the header is counted, so an allocation lies behind it. -/
theorem alloc_behind {n s : Nat} (hn : 0 < n) (hheader : rcAt b.bytes 0 ≠ 0)
    (hfree : ∀ k < n, rcAt b.bytes (s + k) = 0) : geom.clusterSize ≤ s * geom.clusterSize := by
  have hs : s ≠ 0 := by
    rintro rfl
    exact hheader (hfree 0 hn)
  exact Nat.le_mul_of_pos_left _ (pos_of_ne_zero hs)

/-! ## The action loop -/

/-- The data of a bitmap lies behind the cluster of the header. -/
def DataBehind (m : ByteMap) (cs : Nat) (e : BitmapDirEntry) : Prop :=
  ∀ i < e.bitmapTableSize, ∀ host, dataAt m (e.bitmapTableOffset + 8 * i) = some host → cs ≤ host

/-- What holds from action to action: the directory buffer holds the entries `es`, nothing to be
written or freed is in the cluster of the header, and a table waiting to be zeroed names no data. -/
structure Tracks (m : ByteMap) (geom : BitmapGeometry) (es : List BitmapDirEntry)
    (st : ActionState) : Prop where
  packed : Packed st.dir 0 es
  nb : st.nb = es.length
  len : st.len = span es
  blocks : st.refblocks.len = geom.refblockCount * geom.clusterSize
  header : rcAt st.refblocks.bytes 0 ≠ 0
  cursor : CursorOk geom st.cursor
  zeros : ∀ z ∈ st.zeros, geom.clusterSize ≤ z
  tables : ∀ e ∈ es, geom.clusterSize ≤ e.bitmapTableOffset ∧
    (e.bitmapTableOffset ∈ st.zeros ∨ DataBehind m geom.clusterSize e)
  present : 0 < st.nb → st.extensionPresent = true

variable {st st' : ActionState} {es : List BitmapDirEntry} {name : List UInt8}
  {granularityBits n nb : Nat} {m : ByteMap} {outcome : ActionOutcome}

theorem foundBitmap_ok {missing : BitmapError} {found : FoundBitmap} (hpacked : Packed m 0 es)
    (hnb : nb = es.length) (h : foundBitmap ⟨n, m⟩ nb name missing = .ok found) :
    found.entry ∈ es ∧ found.entry.Encodable := by
  obtain ⟨result, hfind, h⟩ := ok_of_bind h
  cases result with
  | none => cases h
  | some found' =>
    cases h
    obtain ⟨before, hlt, -, hfront, -, -⟩ := findFrom_some hfind
    obtain ⟨after, rfl⟩ := hpacked.split hfront (hnb ▸ hlt)
    have hmem : found.entry ∈ before ++ found.entry :: after := by simp
    exact ⟨hmem, hpacked.encodable hmem⟩

theorem mem_tableClusters {x off n : Nat} (h : x ∈ tableClusters geom off n) : off ≤ x := by
  obtain ⟨i, -, rfl⟩ := mem_map.mp h
  exact Nat.le_add_right _ _

theorem pushZeros_ok {zeros offsets zeros' : List Nat} (h : pushZeros zeros offsets = .ok zeros') :
    zeros' = zeros ++ offsets := by
  unfold pushZeros at h
  split at h
  · cases h
  · cases h
    rfl

/-- What is behind the cluster of the header does not share its refcount. -/
theorem not_header {host cs : Nat} (hcs : 0 < cs) (h : cs ≤ host) : ¬ host / cs = 0 := by
  have := Nat.div_pos h hcs
  omega

include hg

include hs in
theorem freeData_freed {zeros : List Nat} (hfree : freeData d geom b zeros outcome = .ok b')
    (hkeep : outcome.freedTableOffset ∉ zeros → ∀ i < outcome.freedTableSize, ∀ host,
      dataAt d.bytes (outcome.freedTableOffset + 8 * i) = some host →
      ¬ keep (host / geom.clusterSize)) :
    Freed keep b b' := by
  have hsectors := hg.sectors
  unfold freeData at hfree
  split at hfree
  · cases hfree
    exact .refl _ _
  next hnew =>
    exact freeBitmapDataClusters_freed hs hg.pos (by omega) hfree (hkeep hnew)

variable (h : Tracks d.bytes geom es st)

include h in
/-- Adding a bitmap. -/
theorem Tracks.add (hrun : runAction d geom name granularityBits st .add = .ok st') :
    ∃ e, Tracks d.bytes geom (es ++ [e]) st' := by
  obtain ⟨⟨outcome, dir', b', cursor'⟩, hadd, hrun⟩ := ok_of_bind hrun
  obtain ⟨zeros', hzeros, hrun⟩ := ok_of_bind hrun
  cases hrun
  simp only [actionAdd, bind_eq_ok, failIf_eq_ok, exists_const] at hadd
  obtain ⟨-, hname, hgranularity, -, found, -, -, -, hentries, hadd⟩ := hadd
  rw [hg.bits, hg.start] at hadd
  split at hadd
  · cases hadd
  rename_i host b1 cursor1 halloc
  obtain ⟨built, hbuild, hadd⟩ := ok_of_bind hadd
  obtain ⟨-, hadd⟩ := ok_of_check hadd
  cases hadd
  have hclusters : 0 < newTableClusters geom granularityBits := by
    unfold newTableClusters
    omega
  obtain ⟨s, rfl, hlt, -, hfree, hblocks, hkept, hcursor⟩ :=
    alloc_ok hg h.blocks h.cursor hclusters halloc
  have hbehind : geom.clusterSize ≤ s * geom.clusterSize := alloc_behind hclusters h.header hfree
  let e := newEntry name (s * geom.clusterSize) (newTableEntries geom granularityBits)
    granularityBits
  have hencodable : e.Encodable := by
    unfold granularityBitsValid at hgranularity
    refine ⟨?_, ?_, (by decide : bmeFlagAuto < 4), ?_, ?_, ?_⟩
    all_goals
      dsimp only [e, newEntry]
      omega
  obtain ⟨-, hlen, -, hcopy, hat⟩ := buildDirectoryWithAdded_ok hbuild hencodable
  have hzeros := pushZeros_ok hzeros
  have htableZero : s * geom.clusterSize ∈ zeros' := by
    rw [hzeros]
    refine mem_append_right _ (mem_map.mpr ⟨0, mem_range.mpr hclusters, ?_⟩)
    rw [zero_mul, add_zero]
  refine ⟨e, packed_append.mpr ⟨h.packed.moved fun i hi => ?_, ?_, trivial⟩, ?_, ?_,
    hblocks.trans h.blocks, hkept 0 h.header, hcursor, fun z hz => ?_, fun e' he => ?_,
    fun _ => rfl⟩
  · rw [zero_add]
    exact hcopy i (h.len ▸ hi)
  · rw [zero_add, ← h.len]
    exact hat
  · show st.nb + 1 = _
    rw [h.nb, length_append, length_singleton]
  · show built.1 = _
    rw [hlen, h.len, span_append, span_cons, span_nil, add_zero]
  · have hz : z ∈ zeros' := hz
    rw [hzeros] at hz
    rcases mem_append.mp hz with hz | hz
    · exact h.zeros z hz
    · exact hbehind.trans (mem_tableClusters hz)
  · show _ ∧ (e'.bitmapTableOffset ∈ zeros' ∨ _)
    rcases mem_append.mp he with he | he
    · refine ⟨(h.tables e' he).1, (h.tables e' he).2.imp_left fun hz => ?_⟩
      rw [hzeros]
      exact mem_append_left _ hz
    · rw [mem_singleton.mp he]
      exact ⟨hbehind, .inl htableZero⟩

include hs

variable (hrun : runAction d geom name granularityBits st .remove = .ok st')
  {actions : List ActionCode} {enable : Bool}

include hrun

/-- What a removal does, whatever the directory holds: an entry goes, and its table and data are
freed. -/
theorem remove_ok : ∃ es r e, es.length = st.nb ∧ Packed st.dir 0 es ∧ r < es.length ∧ e ∈ es ∧
      Packed st'.dir 0 (es.eraseIdx r) ∧ st'.len = span (es.eraseIdx r) ∧ st'.nb = st.nb - 1 ∧
      st'.zeros = st.zeros ∧ st'.cursor = st.cursor ∧ (0 < st'.nb → st'.extensionPresent = true) ∧
      ∀ keep : Nat → Prop, (∀ host, e.bitmapTableOffset ≤ host → ¬ keep (host / geom.clusterSize)) →
        (e.bitmapTableOffset ∉ st.zeros → ∀ i < e.bitmapTableSize, ∀ host,
          dataAt d.bytes (e.bitmapTableOffset + 8 * i) = some host →
          ¬ keep (host / geom.clusterSize)) →
        Freed keep st.refblocks st'.refblocks := by
  have hsectors := hg.sectors
  obtain ⟨⟨outcome, dir', b1⟩, hremove, hrun⟩ := ok_of_bind hrun
  obtain ⟨b2, hdata, hrun⟩ := ok_of_bind hrun
  cases hrun
  obtain ⟨-, hremove⟩ := ok_of_check hremove
  obtain ⟨found, hfound, hremove⟩ := ok_of_bind hremove
  obtain ⟨u, -, hremove⟩ := ok_of_bind hremove
  obtain ⟨b3, htable, hremove⟩ := ok_of_bind hremove
  obtain ⟨built, hbuild, hremove⟩ := ok_of_bind hremove
  cases hremove
  obtain ⟨hindex, -, es, hlength, hpacked, -, hpacked', hlen⟩ := buildDirectoryWithout_ok hbuild
  obtain ⟨hentry, -⟩ := foundBitmap_ok hpacked hlength.symm hfound
  refine ⟨es, found.index, found.entry, hlength,
    hpacked, by omega, hentry, hpacked', hlen, rfl, rfl, rfl,
    fun hpos => decide_eq_true (Nat.pos_iff_ne_zero.mp hpos), fun keep hkeep hdataKeep => ?_⟩
  refine .trans (freeTableClusters_freed hg.pos (by omega) hg.bits hg.start htable fun x hx =>
    hkeep x (mem_tableClusters hx)) ?_
  exact freeData_freed hs hg hdata hdataKeep

include h

theorem Tracks.remove : ∃ r, r < es.length ∧ Tracks d.bytes geom (es.eraseIdx r) st' := by
  obtain ⟨es', r, e, hlength, hpacked, hr, he, hpacked', hlen, hnb, hzeros, hcursor,
      hpresent, hfreed⟩ :=
    remove_ok hs hg hrun
  obtain rfl := hpacked.unique h.packed (hlength.trans h.nb)
  have hfreed := hfreed (· = 0) (fun host hhost =>
    not_header hg.pos ((h.tables e he).1.trans hhost))
    fun hnew i hi host hhost =>
      not_header hg.pos ((h.tables e he).2.resolve_left hnew i hi host hhost)
  refine ⟨r, hr, hpacked', ?_, hlen, hfreed.len.trans h.blocks, ?_, ?_, ?_,
    fun e' he' => ?_, hpresent⟩
  · rw [hnb, h.nb, length_eraseIdx_of_lt hr]
  · rw [hfreed.rcAt_eq rfl]
    exact h.header
  · rw [hcursor]
    exact h.cursor
  · rw [hzeros]
    exact h.zeros
  · rw [hzeros]
    exact h.tables e' (mem_of_mem_eraseIdx he')

omit hrun

theorem Tracks.clear (hrun : runAction d geom name granularityBits st .clear = .ok st') :
    Tracks d.bytes geom es st' := by
  obtain ⟨⟨outcome, dir'⟩, hclear, hrun⟩ := ok_of_bind hrun
  obtain ⟨b2, hdata, hrun⟩ := ok_of_bind hrun
  obtain ⟨zeros', hzeros, hrun⟩ := ok_of_bind hrun
  cases hrun
  simp only [actionClear, bind_eq_ok, failIf_eq_ok, exists_const] at hclear
  obtain ⟨-, found, hfound, -, _, -, _, -, -, -, -, hclear⟩ := hclear
  cases hclear
  obtain ⟨hentry, -⟩ := foundBitmap_ok h.packed h.nb hfound
  have hfreed : Freed (· = 0) st.refblocks b2 :=
      freeData_freed hs hg hdata fun hnew i hi host hhost =>
    not_header hg.pos ((h.tables _ hentry).2.resolve_left hnew i hi host hhost)
  have hzeros := pushZeros_ok hzeros
  refine ⟨h.packed.moved fun i hi => ?_, h.nb, h.len, hfreed.len.trans h.blocks, ?_, h.cursor,
    fun z hz => ?_,
    fun e he => ⟨(h.tables e he).1, (h.tables e he).2.imp_left fun hz => ?_⟩, fun _ => rfl⟩
  · rw [zero_add]
    exact splice_mem (Nat.zero_le _) (by rw [h.len]; omega)
  · show rcAt b2.bytes 0 ≠ 0
    rw [hfreed.rcAt_eq rfl]
    exact h.header
  · have hz : z ∈ zeros' := hz
    rw [hzeros] at hz
    rcases mem_append.mp hz with hz | hz
    · exact h.zeros z hz
    · exact (h.tables _ hentry).1.trans (mem_tableClusters hz)
  · show e.bitmapTableOffset ∈ zeros'
    rw [hzeros]
    exact mem_append_left _ hz

omit hg hs h

theorem withAuto_lt {flags : Nat} (h : flags < 4) : withAuto flags enable < 4 := by
  cases enable with
  | true => exact Nat.or_lt_two_pow (n := 2) h (by decide)
  | false => exact lt_of_le_of_lt Nat.and_le_left h

include h in
theorem Tracks.setAuto {r : ActionOutcome × ByteMap}
    (hset : setAutoFlag ⟨bitmapDirLimit, st.dir⟩ st.len st.nb name ⟨bitmapDirLimit,
      st.spare⟩ enable = .ok r) :
    ∃ es', es'.length = es.length ∧
      Tracks d.bytes geom es' (st.next r.1 r.2 st.refblocks st.cursor st.zeros) := by
  obtain ⟨found, hfound, hset⟩ := ok_of_bind hset
  obtain ⟨-, hset⟩ := ok_of_check hset
  obtain ⟨built, hbuild, hset⟩ := ok_of_bind hset
  cases hset
  obtain ⟨hentry, he⟩ := foundBitmap_ok h.packed h.nb hfound
  have hencodable : ({ found.entry with flags := withAuto found.entry.flags enable } :
      BitmapDirEntry).Encodable :=
    ⟨he.offset, he.tableSize, withAuto_lt he.flags, he.granularity, he.named, he.name⟩
  obtain ⟨-, -, es', hlength, hpacked, hpacked', hlen⟩ :=
    buildDirectoryReplacing_ok hencodable hbuild
  obtain rfl := hpacked.unique h.packed (hlength.trans h.nb)
  refine ⟨_, length_set, hpacked', ?_, hlen, h.blocks, h.header, h.cursor, h.zeros, fun e he => ?_,
    fun _ => rfl⟩
  · rw [length_set]
    exact h.nb
  · rcases mem_or_eq_of_mem_set he with he | rfl
    · exact h.tables e he
    · exact h.tables found.entry hentry

/-- The bitmaps there are after an action. -/
def bitmapsAfterOne (nb : Nat) : ActionCode → Nat
  | .add => nb + 1
  | .remove => nb - 1
  | _ => nb

/-- The bitmaps there are after the actions. -/
def bitmapsAfter (nb : Nat) (actions : List ActionCode) : Nat := actions.foldl bitmapsAfterOne nb

include h hs hg

/-- One action; a removal only takes an entry away. -/
theorem Tracks.step {opcode : ActionCode}
    (hrun : runAction d geom name granularityBits st opcode = .ok st') :
    ∃ es', Tracks d.bytes geom es' st' ∧ st'.nb = bitmapsAfterOne st.nb opcode ∧
      (opcode = .remove → es'.Sublist es) := by
  cases opcode with
  | add =>
    obtain ⟨e, hnext⟩ := h.add hg hrun
    refine ⟨_, hnext, ?_, nofun⟩
    rw [hnext.nb, length_append, length_singleton, ← h.nb]
    rfl
  | remove =>
    obtain ⟨r, hr, hnext⟩ := h.remove hs hg hrun
    refine ⟨_, hnext, ?_, fun _ => eraseIdx_sublist ..⟩
    rw [hnext.nb, length_eraseIdx_of_lt hr, ← h.nb]
    rfl
  | clear =>
    have hnext := h.clear hs hg hrun
    exact ⟨es, hnext, hnext.nb.trans h.nb.symm, nofun⟩
  | enable | disable =>
    obtain ⟨r, hset, hrun⟩ := ok_of_bind hrun
    cases hrun
    obtain ⟨es', hlength, hnext⟩ := h.setAuto hset
    exact ⟨es', hnext, hnext.nb.trans (hlength.trans h.nb.symm), nofun⟩
  | merge => cases hrun
  | other code => cases hrun

/-- A whole list of actions. -/
theorem Tracks.run (hrun : applyActions d geom name granularityBits st actions = .ok st') :
    ∃ es', Tracks d.bytes geom es' st' ∧ st'.nb = bitmapsAfter st.nb actions ∧
      ((∀ a ∈ actions, a = .remove) → es'.Sublist es) := by
  refine foldlM_invariant (fun done st1 => ∃ es', Tracks d.bytes geom es' st1 ∧
    st1.nb = bitmapsAfter st.nb done ∧ ((∀ a ∈ actions, a = .remove) → es'.Sublist es)) ?_
    ⟨es, h, rfl, fun _ => .refl es⟩ hrun
  intro done a st1 st2 ha hst1 hstep
  obtain ⟨es1, htracks, hnb, hsub⟩ := hst1
  obtain ⟨es2, hnext, hnb', hsub'⟩ := htracks.step hs hg hstep
  refine ⟨es2, hnext, ?_, fun hall => (hsub' (hall a ha)).trans (hsub hall)⟩
  unfold bitmapsAfter at hnb ⊢
  rw [foldl_append, ← hnb]
  exact hnb'

omit h

/-- A list of removals, whatever the directory holds. -/
theorem removes_ok (hall : ∀ a ∈ actions, a = .remove)
    (hrun : applyActions d geom name granularityBits st actions = .ok st') :
    st'.nb = bitmapsAfter st.nb actions ∧ st'.zeros = st.zeros ∧
      Freed (fun _ => False) st.refblocks st'.refblocks := by
  refine foldlM_invariant (fun done st1 => st1.nb = bitmapsAfter st.nb done ∧ st1.zeros = st.zeros ∧
    Freed (fun _ => False) st.refblocks st1.refblocks) ?_ ⟨rfl, rfl, .refl _ _⟩ hrun
  intro done a st1 st2 ha hst1 hstep
  obtain ⟨hnb, hzeros, hfreed⟩ := hst1
  obtain rfl := hall a ha
  obtain ⟨_, _, _, -, -, -, -, -, -, hnb', hzeros', -, -, hfreed'⟩ := remove_ok hs hg hstep
  refine ⟨?_, hzeros'.trans hzeros, hfreed.trans (hfreed' _ (fun _ _ h => h) fun _ _ _ _ _ h => h)⟩
  unfold bitmapsAfter at hnb ⊢
  rw [foldl_append, ← hnb]
  exact hnb'

end Instar.Bitmap
