import Instar.Resize.Run
import Mathlib.Data.List.Nodup

/-!
# What the staged refcount blocks hold

Every planner stages refcount blocks and sets entries in them, cluster by cluster.  `Staged` is what
such a loop leaves after the clusters `done`: one slot for each block touched, whose counts are the
new value at the clusters of `done` and the seed's elsewhere.  Both grow planners end in the same
pair of slot lists, one with the counts of the new clusters raised and one with those of the old
tables cleared.
-/

namespace Instar.Resize

open Instar.Qcow2 List

/-! ## Keyed lists -/

section Keyed

variable {α β : Type} {key : α → Nat} {get : α → Option β} {xs xs' : List α} {x y : α} {b : β}

/-- `xs'` is `xs` with `x` put in at its key. -/
structure PutIn (key : α → Nat) (xs : List α) (x : α) (xs' : List α) : Prop where
  nodup : (xs'.map key).Nodup
  mem : x ∈ xs'
  old : ∀ y ∈ xs', y = x ∨ (key y ≠ key x ∧ y ∈ xs)
  kept : ∀ y ∈ xs, key y ≠ key x → y ∈ xs'

theorem PutIn.replace (h : (xs.map key).Nodup) (hy : y ∈ xs) (hkey : key y = key x) :
    PutIn key xs x (xs.map fun z => if key z = key x then x else z) := by
  have hkeys : (xs.map fun z => if key z = key x then x else z).map key = xs.map key := by
    rw [map_map]
    refine map_congr_left fun z _ => ?_
    show key (if key z = key x then x else z) = key z
    split
    · exact (‹_› : key z = key x).symm
    · rfl
  refine ⟨hkeys ▸ h, mem_map.mpr ⟨y, hy, if_pos hkey⟩, fun z hz => ?_,
    fun z hz hne => mem_map.mpr ⟨z, hz, if_neg hne⟩⟩
  obtain ⟨w, hw, rfl⟩ := mem_map.mp hz
  split
  · exact .inl rfl
  next hne =>
    exact .inr ⟨hne, hw⟩

/-- At the end, where there is none. -/
theorem PutIn.append (h : (xs.map key).Nodup) (hnew : ∀ y ∈ xs, key y ≠ key x) :
    PutIn key xs x (xs ++ [x]) := by
  refine ⟨?_, by simp, fun z hz => ?_, fun z hz _ => mem_append_left _ hz⟩
  · rw [map_append, nodup_append]
    refine ⟨h, by simp, fun k hk k' hk' => ?_⟩
    obtain ⟨z, hz, rfl⟩ := mem_map.mp hk
    rw [mem_singleton.mp hk']
    exact hnew z hz
  · rcases mem_append.mp hz with hz | hz
    · exact .inr ⟨hnew z hz, hz⟩
    · exact .inl (mem_singleton.mp hz)

/-- What the elements carry, with their keys. -/
def carried (key : α → Nat) (get : α → Option β) (xs : List α) : List (Nat × β) :=
  xs.filterMap fun y => (get y).map fun b => (key y, b)

theorem mem_carried {k : Nat} : (k, b) ∈ carried key get xs ↔ ∃ y ∈ xs, key y = k ∧
    get y = some b := by
  unfold carried
  simp only [mem_filterMap, Option.map_eq_some_iff, Prod.mk.injEq]
  constructor
  · rintro ⟨y, hy, b, hb, rfl, rfl⟩
    exact ⟨y, hy, rfl, hb⟩
  · rintro ⟨y, hy, rfl, hb⟩
    exact ⟨y, hy, b, hb, rfl, rfl⟩

theorem carried_keys (key : α → Nat) (get : α → Option β) (xs : List α) :
    ((carried key get xs).map Prod.fst).Sublist (xs.map key) := by
  induction xs with
  | nil => exact List.Sublist.refl _
  | cons y xs ih =>
    unfold carried at ih ⊢
    cases hget : get y with
    | none => simpa [filterMap_cons, hget] using ih.cons _
    | some b => simpa [filterMap_cons, hget] using ih

theorem PutIn.carried (h : PutIn key xs x xs') (hget : get x = some b) :
    PutIn Prod.fst (carried key get xs) (key x, b) (carried key get xs') := by
  refine ⟨h.nodup.sublist (carried_keys _ _ _), mem_carried.mpr ⟨x, h.mem, rfl, hget⟩, ?_, ?_⟩
  · rintro ⟨k, b'⟩ hs
    obtain ⟨y, hy, rfl, hb⟩ := mem_carried.mp hs
    rcases h.old y hy with rfl | ⟨hne, hy⟩
    · exact .inl (by rw [Option.some.inj (hb.symm.trans hget)])
    · exact .inr ⟨hne, mem_carried.mpr ⟨y, hy, rfl, hb⟩⟩
  · rintro ⟨k, b'⟩ hs hne
    obtain ⟨y, hy, rfl, hb⟩ := mem_carried.mp hs
    exact mem_carried.mpr ⟨y, h.kept y hy hne, rfl, hb⟩

end Keyed

/-! ## Blocks of counts -/

/-- A refcount block of the image whose counts are `f`. -/
def Holds (cs bits : Nat) (block : Buffer) (f : Nat → Nat) : Prop :=
  block.len = cs ∧ ∀ j < entriesPerBlock cs bits, refcountIn bits block j = f j

variable {cs bits : Nat} {opts : Qcow2ResizeOpts} {block block' : Buffer} {f : Nat → Nat}
  {c value : Nat}

variable {k maxBlocks j : Nat} {orig : Nat → Nat → Nat} {done : List Nat}
  {blocks' incs blocks : List (Nat × Buffer)} {seed : Nat → Except Stop Buffer}
  {st' st : BlockSlots} {slots slots' : List BlockSlot}

theorem perBlock_eq (q : Qcow2ResizeGrowQuery) :
    q.perBlock = entriesPerBlock q.clusterSize q.refcountBits := rfl

theorem setRefcount_ok (hv : value < 2) (hblock : Holds cs bits block f)
    (h : setRefcount block j bits value = .ok block') :
    Holds cs bits block' fun k => if k = j then value else f k := by
  unfold setRefcount at h
  split at h
  next b hset =>
    cases h
    obtain ⟨hlen, hread⟩ := setRefcountInBlock_ok hv hset
    refine ⟨hlen.trans hblock.1, fun k hk => ?_⟩
    have hk' : k < entriesPerBlock block.len bits := by
      rw [hblock.1]
      exact hk
    rw [hread k hk', hblock.2 k hk]
  · cases h

/-- Entry `j` of block `k` is the entry of cluster `c` exactly if `k` and `j` are its
coordinates. -/
theorem coords_iff {n : Nat} (hj : j < n) : k * n + j = c ↔ k = c / n ∧ j = c % n := by
  constructor
  · rintro rfl
    rw [mul_comm, Nat.mul_add_div (by omega), Nat.div_eq_of_lt hj, Nat.mul_add_mod,
      Nat.mod_eq_of_lt hj]
    exact ⟨rfl, rfl⟩
  · rintro ⟨rfl, rfl⟩
    rw [mul_comm]
    exact Nat.div_add_mod c n

/-! ## The loop over one slot list -/

/-- The counts `orig` with the clusters of `done` set to `value`. -/
def marked (cs bits value : Nat) (orig : Nat → Nat → Nat) (done : List Nat) (k j : Nat) : Nat :=
  if k * entriesPerBlock cs bits + j ∈ done then value else orig k j

/-- What a staging loop leaves after the clusters `done`. -/
structure Staged (cs bits : Nat) (value : Nat) (orig : Nat → Nat → Nat) (done : List Nat)
    (blocks : List (Nat × Buffer)) : Prop where
  nodup : (blocks.map Prod.fst).Nodup
  holds : ∀ s ∈ blocks, Holds cs bits s.2 (marked cs bits value orig done s.1)
  touched : ∀ s ∈ blocks, ∃ c ∈ done, c / entriesPerBlock cs bits = s.1
  all : ∀ c ∈ done, ∃ s ∈ blocks, s.1 = c / entriesPerBlock cs bits

theorem Staged.nil (value : Nat) (orig : Nat → Nat → Nat) : Staged cs bits value orig [] [] :=
  ⟨by simp, by simp, by simp, by simp⟩

/-- Setting the entry of `c` in a block whose counts are those of `done`. -/
theorem Holds.set (hv : value < 2) (hk : k = c / entriesPerBlock cs bits)
    (hblock : Holds cs bits block (marked cs bits value orig done k))
    (h : setRefcount block (c % entriesPerBlock cs bits) bits value = .ok block') :
    Holds cs bits block' (marked cs bits value orig (done ++ [c]) k) := by
  have hset := setRefcount_ok hv hblock h
  refine ⟨hset.1, fun j hj => ?_⟩
  have hc : k * entriesPerBlock cs bits + j = c ↔ j = c % entriesPerBlock cs bits := by
    rw [coords_iff hj]
    exact ⟨fun h => h.2, fun h => ⟨hk, h⟩⟩
  rw [hset.2 j hj]
  unfold marked
  dsimp only
  by_cases hjc : j = c % entriesPerBlock cs bits
  · have heq : k * entriesPerBlock cs bits + j = c := hc.mpr hjc
    rw [if_pos hjc, if_pos (by simp [heq])]
  · have hne : k * entriesPerBlock cs bits + j ≠ c := fun h => hjc (hc.mp h)
    simp [hjc, hne]

/-- A block that `c` is not in does not see it. -/
theorem Holds.other (hk : k ≠ c / entriesPerBlock cs bits)
    (hblock : Holds cs bits block (marked cs bits value orig done k)) :
    Holds cs bits block (marked cs bits value orig (done ++ [c]) k) := by
  refine ⟨hblock.1, fun j hj => ?_⟩
  have hne : k * entriesPerBlock cs bits + j ≠ c := fun h => hk ((coords_iff hj).mp h).1
  rw [hblock.2 j hj]
  simp [marked, hne]

theorem replaceBlock_eq (blocks : List (Nat × Buffer)) (k : Nat) (block : Buffer) :
    replaceBlock blocks k block = blocks.map fun s => if s.1 = k then (k, block) else s :=
  map_congr_left fun s _ => by
    split
    next hk =>
      rw [hk]
    · rfl

theorem mem_of_lookup (h : blocks.lookup k = some block) : (k, block) ∈ blocks := by
  obtain ⟨l1, l2, rfl, -⟩ := lookup_eq_some_iff.mp h
  simp

theorem ne_of_lookup (h : blocks.lookup k = none) : ∀ s ∈ blocks, s.1 ≠ k := by
  intro s hs hk
  have := lookup_eq_none_iff.mp h s hs
  simp [hk] at this

section

variable (hst : Staged cs bits value orig done blocks)

include hst

/-- Setting the entry of one more cluster. -/
theorem Staged.step (hput : PutIn Prod.fst blocks (c / entriesPerBlock cs bits, block) blocks')
    (hset : Holds cs bits block (marked cs bits value orig (done ++ [c])
      (c / entriesPerBlock cs bits))) :
    Staged cs bits value orig (done ++ [c]) blocks' := by
  refine ⟨hput.nodup, fun s hs => ?_, fun s hs => ?_, fun c' hc' => ?_⟩
  · rcases hput.old s hs with rfl | ⟨hk, hs⟩
    · exact hset
    · exact Holds.other hk (hst.holds s hs)
  · rcases hput.old s hs with rfl | ⟨-, hs⟩
    · exact ⟨c, by simp, rfl⟩
    · obtain ⟨c', hc', hs'⟩ := hst.touched s hs
      exact ⟨c', by simp [hc'], hs'⟩
  · by_cases hk : c' / entriesPerBlock cs bits = c / entriesPerBlock cs bits
    · exact ⟨_, hput.mem, hk.symm⟩
    · have hc' : c' ∈ done := (mem_append.mp hc').resolve_right fun h =>
        hk (by rw [mem_singleton.mp h])
      obtain ⟨s, hs, hs'⟩ := hst.all c' hc'
      exact ⟨s, hput.kept s hs (by rw [hs']; exact hk), hs'⟩

/-- The order of the slots does not matter. -/
theorem Staged.of_mem_iff (hmem : ∀ s, s ∈ blocks' ↔ s ∈ blocks)
    (hnodup : (blocks'.map Prod.fst).Nodup) : Staged cs bits value orig done blocks' := by
  refine ⟨hnodup, fun s hs => hst.holds s ((hmem s).mp hs),
    fun s hs => hst.touched s ((hmem s).mp hs), fun c hc => ?_⟩
  obtain ⟨s, hs, hk⟩ := hst.all c hc
  exact ⟨s, (hmem s).mpr hs, hk⟩

/-- A block that is not staged yet holds what it was seeded with. -/
theorem Staged.fresh (hk : ∀ s ∈ blocks, s.1 ≠ k) (hblock : Holds cs bits block (orig k)) :
    Holds cs bits block (marked cs bits value orig done k) := by
  refine ⟨hblock.1, fun j hj => ?_⟩
  have hnot : k * entriesPerBlock cs bits + j ∉ done := by
    intro hmem
    obtain ⟨s, hs, hs'⟩ := hst.all _ hmem
    exact hk s hs (hs'.trans ((coords_iff hj).mp rfl).1.symm)
  rw [hblock.2 j hj]
  exact (if_neg hnot).symm

end

theorem stageEntry_staged {st st' : Slots} (hv : value < 2)
    (hseed : ∀ k b, seed k = .ok b → Holds opts.clusterSize opts.refcountBits b (orig k))
    (hst : Staged opts.clusterSize opts.refcountBits value orig done st.blocks)
    (h : stageEntry opts maxBlocks seed value st c = .ok st') :
    Staged opts.clusterSize opts.refcountBits value orig (done ++ [c]) st'.blocks := by
  unfold stageEntry at h
  dsimp only [perBlock_eq] at h
  split at h
  next block hlookup =>
    obtain ⟨block', hset, h⟩ := ok_of_bind h
    cases h
    have hmem := mem_of_lookup hlookup
    refine hst.step ?_ (Holds.set hv rfl (hst.holds _ hmem) hset)
    rw [replaceBlock_eq]
    exact .replace hst.nodup hmem rfl
  next hlookup =>
    simp only [bind_eq_ok, failIf_eq_ok, exists_const] at h
    obtain ⟨-, next, -, block, hblock, block', hset, h⟩ := h
    cases h
    have hnew := ne_of_lookup hlookup
    exact hst.step (.append hst.nodup hnew)
      (Holds.set hv rfl (hst.fresh hnew (hseed _ _ hblock)) hset)

theorem stageEntry_loop {next : Nat} {clusters : List Nat} {st' : Slots} (hv : value < 2)
    (hseed : ∀ k b, seed k = .ok b → Holds opts.clusterSize opts.refcountBits b (orig k))
    (h : clusters.foldlM (stageEntry opts maxBlocks seed value) { blocks := [], nextStaging :=
      next } =
      .ok st') : Staged opts.clusterSize opts.refcountBits value orig clusters st'.blocks :=
  foldlM_invariant (fun done st =>
    Staged opts.clusterSize opts.refcountBits value orig done st.blocks)
    (fun _ _ _ _ _ hst hstep => stageEntry_staged hv hseed hst hstep) (Staged.nil _ _) h

variable (hseed : ∀ k b, ensureBlockStaged opts k = .ok b →
  Holds opts.clusterSize opts.refcountBits b (orig k))

include hseed in
/-- The cleanup loop of a full grow sees the overlap slots. -/
theorem cleanupSeed_ok {overlap : List (Nat × Buffer)}
    (h : Staged opts.clusterSize opts.refcountBits 1 orig done overlap) (k : Nat) (b : Buffer)
    (hb : cleanupSeed opts overlap k = .ok b) :
    Holds opts.clusterSize opts.refcountBits b (marked opts.clusterSize opts.refcountBits 1
      orig done k) := by
  unfold cleanupSeed at hb
  split at hb
  next block hlookup =>
    cases hb
    exact h.holds _ (mem_of_lookup hlookup)
  next hlookup =>
    exact h.fresh (ne_of_lookup hlookup) (hseed k b hb)

/-! ## The slots of an L1 grow -/

theorem find_slot {slot : BlockSlot} (h : (slots.find? fun s => s.blockIdx = k) = some slot) :
    slot ∈ slots ∧ slot.blockIdx = k :=
  ⟨mem_of_find?_eq_some h, by simpa using find?_some h⟩

theorem find_no_slot (h : (slots.find? fun s => s.blockIdx = k) = none) :
    ∀ s ∈ slots, s.blockIdx ≠ k := by
  simpa using h

/-- Two slots of one block are one slot. -/
theorem slot_unique (h : (slots.map BlockSlot.blockIdx).Nodup) {s s' : BlockSlot} (hs : s ∈ slots)
    (hs' : s' ∈ slots) (hk : s.blockIdx = s'.blockIdx) : s = s' :=
  inj_on_of_nodup_map h hs hs' hk

/-- What the increments of an L1 grow leave. -/
structure Incremented (cs bits : Nat) (orig : Nat → Nat → Nat) (done : List Nat)
    (slots : List BlockSlot) : Prop where
  nodup : (slots.map BlockSlot.blockIdx).Nodup
  pending : ∀ s ∈ slots, s.final = none ∧ ∃ b, s.increment = some b
  staged : Staged cs bits 1 orig done (incrementsOf slots)

theorem Incremented.step (hst : Incremented cs bits orig done slots)
    (hput : PutIn BlockSlot.blockIdx slots ⟨c / entriesPerBlock cs bits, some block, none⟩ slots')
    (hset : Holds cs bits block (marked cs bits 1 orig (done ++ [c])
      (c / entriesPerBlock cs bits))) :
    Incremented cs bits orig (done ++ [c]) slots' := by
  refine ⟨hput.nodup, fun s hs => ?_, hst.staged.step (hput.carried rfl) hset⟩
  rcases hput.old s hs with rfl | ⟨-, hs⟩
  · exact ⟨rfl, block, rfl⟩
  · exact hst.pending s hs

include hseed in
theorem stageIncrement_step
    (hst : Incremented opts.clusterSize opts.refcountBits orig done st.slots)
    (h : stageIncrement opts st c = .ok st') :
    Incremented opts.clusterSize opts.refcountBits orig (done ++ [c]) st'.slots := by
  unfold stageIncrement at h
  dsimp only [perBlock_eq] at h
  split at h
  next slot hfind =>
    obtain ⟨hmem, hidx⟩ := find_slot hfind
    obtain ⟨hfin, inc, hinc⟩ := hst.pending slot hmem
    rw [hinc, hfin] at h
    obtain ⟨inc', hset, h⟩ := ok_of_bind h
    cases h
    have hold := hst.staged.holds _ (mem_carried.mpr ⟨slot, hmem, hidx, hinc⟩)
    exact hst.step (.replace hst.nodup hmem hidx) (Holds.set (by decide) rfl hold hset)
  next hfind =>
    have hnew := find_no_slot hfind
    simp only [bind_eq_ok, failIf_eq_ok, exists_const] at h
    obtain ⟨-, next, -, block, hblock, inc', hset, h⟩ := h
    cases h
    have hunstaged : ∀ s ∈ incrementsOf st.slots,
        s.1 ≠ c / entriesPerBlock opts.clusterSize opts.refcountBits := by
      rintro ⟨k, b⟩ hs
      obtain ⟨s, hs', rfl, -⟩ := mem_carried.mp hs
      exact hnew s hs'
    exact hst.step (.append hst.nodup hnew)
      (Holds.set (by decide) rfl (hst.staged.fresh hunstaged (hseed _ _ hblock)) hset)

/-- What the decrements of an L1 grow leave, over the increments `incs`. -/
structure Decremented (cs bits : Nat) (orig : Nat → Nat → Nat) (incs : List (Nat × Buffer))
    (done : List Nat) (slots : List BlockSlot) : Prop where
  nodup : (slots.map BlockSlot.blockIdx).Nodup
  pending : ∀ s ∈ slots, s.final = none → ∃ b, s.increment = some b
  increments : ∀ s, s ∈ incrementsOf slots ↔ s ∈ incs
  staged : Staged cs bits 0 orig done (finalsOf slots)

/-- The slot of `c` gets a final block and keeps its increments. -/
theorem Decremented.step {inc : Option Buffer} (hst : Decremented cs bits orig incs done slots)
    (hput : PutIn BlockSlot.blockIdx slots ⟨c / entriesPerBlock cs bits, inc, some block⟩ slots')
    (hinc : ∀ b, inc = some b ↔ (c / entriesPerBlock cs bits, b) ∈ incs)
    (hset : Holds cs bits block (marked cs bits 0 orig (done ++ [c])
      (c / entriesPerBlock cs bits))) :
    Decremented cs bits orig incs (done ++ [c]) slots' := by
  refine ⟨hput.nodup, fun s hs hnone => ?_, ?_, hst.staged.step (hput.carried rfl) hset⟩
  · rcases hput.old s hs with rfl | ⟨-, hs⟩
    · cases hnone
    · exact hst.pending s hs hnone
  · rintro ⟨k, b⟩
    constructor
    · intro hs
      obtain ⟨s, hmem, rfl, hb⟩ := mem_carried.mp hs
      rcases hput.old s hmem with rfl | ⟨-, hmem⟩
      · exact (hinc b).mp hb
      · exact (hst.increments _).mp (mem_carried.mpr ⟨s, hmem, rfl, hb⟩)
    · intro hs
      by_cases hk : k = c / entriesPerBlock cs bits
      · subst hk
        exact mem_carried.mpr ⟨_, hput.mem, rfl, (hinc b).mpr hs⟩
      · obtain ⟨s, hmem, rfl, hb⟩ := mem_carried.mp ((hst.increments _).mpr hs)
        exact mem_carried.mpr ⟨s, hput.kept s hmem hk, rfl, hb⟩

theorem stageDecrement_step
    (hinc : ∀ s ∈ incs, Holds opts.clusterSize opts.refcountBits s.2 (orig s.1))
    (hseed : ∀ k b, (∀ s ∈ incs, s.1 ≠ k) → ensureBlockStaged opts k = .ok b →
      Holds opts.clusterSize opts.refcountBits b (orig k))
    (hst : Decremented opts.clusterSize opts.refcountBits orig incs done st.slots)
    (h : stageDecrement opts st c = .ok st') :
    Decremented opts.clusterSize opts.refcountBits orig incs (done ++ [c]) st'.slots := by
  unfold stageDecrement at h
  dsimp only [perBlock_eq] at h
  split at h
  next slot hfind =>
    obtain ⟨hmem, hidx⟩ := find_slot hfind
    have hincs : ∀ b, slot.increment = some b ↔
        (c / entriesPerBlock opts.clusterSize opts.refcountBits, b) ∈ incs := by
      intro b
      rw [← hst.increments]
      refine ⟨fun hb => mem_carried.mpr ⟨slot, hmem, hidx, hb⟩, fun hb => ?_⟩
      obtain ⟨s, hs, hk, hb⟩ := mem_carried.mp hb
      exact slot_unique hst.nodup hs hmem (hk.trans hidx.symm) ▸ hb
    split at h
    next fin hfin =>
      obtain ⟨fin', hset, h⟩ := ok_of_bind h
      cases h
      have hold := hst.staged.holds _ (mem_carried.mpr ⟨slot, hmem, hidx, hfin⟩)
      exact hst.step (.replace hst.nodup hmem hidx) hincs (Holds.set (by decide) rfl hold hset)
    next hfin =>
      obtain ⟨next, -, h⟩ := ok_of_bind h
      split at h
      · cases h
      next inc hslot =>
        obtain ⟨fin', hset, h⟩ := ok_of_bind h
        cases h
        -- the block has increments only: the final state starts from them
        have hunstaged : ∀ s ∈ finalsOf st.slots,
            s.1 ≠ c / entriesPerBlock opts.clusterSize opts.refcountBits := by
          rintro ⟨k, b⟩ hs hk
          obtain ⟨s, hs, hsk, hsb⟩ := mem_carried.mp hs
          rw [slot_unique hst.nodup hs hmem ((hsk.trans hk).trans hidx.symm), hfin] at hsb
          cases hsb
        have hholds := hinc _ ((hincs inc).mp hslot)
        exact hst.step (.replace hst.nodup hmem hidx) hincs
          (Holds.set (by decide) rfl (hst.staged.fresh hunstaged hholds) hset)
  next hfind =>
    have hnew := find_no_slot hfind
    simp only [bind_eq_ok, failIf_eq_ok, exists_const] at h
    obtain ⟨-, next, -, block, hblock, fin', hset, h⟩ := h
    cases h
    have hunstaged : ∀ s ∈ finalsOf st.slots,
        s.1 ≠ c / entriesPerBlock opts.clusterSize opts.refcountBits := by
      rintro ⟨k, b⟩ hs
      obtain ⟨s, hs', rfl, -⟩ := mem_carried.mp hs
      exact hnew s hs'
    have hplain : ∀ s ∈ incs, s.1 ≠ c / entriesPerBlock opts.clusterSize opts.refcountBits := by
      rintro ⟨k, b⟩ hs
      obtain ⟨s, hs', rfl, -⟩ := mem_carried.mp ((hst.increments _).mpr hs)
      exact hnew s hs'
    exact hst.step (.append hst.nodup hnew) (fun b => ⟨nofun, fun hs => absurd rfl (hplain _ hs)⟩)
      (Holds.set (by decide) rfl (hst.staged.fresh hunstaged (hseed _ _ hplain hblock)) hset)

end Instar.Resize
