import Instar.Qcow2.Image
import Instar.Write.Counts

/-!
# The ledger of references

`Ledger` ties the staged refcounts to the references held through the active L1: every counted
cluster has one reference per pointer of the L1 and its tables, on top of the references `fixed`
that a write leaves alone and the references `held` by the write in progress.  The lemmas say what
allocating, dropping, and replacing one pointer do to it, and that a cluster with a single
reference belongs to its pointer alone.
-/

namespace Instar.Write

open Instar.Qcow2 Instar.RefCount

section

variable (geo : Geometry)

/-- One reference to the cluster at `host`. -/
def oneRef (host c : Nat) : Nat := if c = host / geo.clusterSize then 1 else 0

section

variable (host : Nat → Nat) (tab : Nat → Nat → Nat)

/-- The references of one pointer of the active L1. -/
def refNames : Nat × Nat → Nat → Nat :=
  chainNames geo.clusterBits geo.clusterSize geo.entriesPerL2 host tab

/-- The references held through the active L1. -/
def refTotal (c : Nat) : Nat :=
  chainRefs geo.clusterBits geo.clusterSize geo.l1Size geo.entriesPerL2 host tab c

end

/-- The pointers of the active L1. -/
def refPointers : Finset (Nat × Nat) := chainPointers geo.l1Size geo.entriesPerL2

/-- Every count is the number of references. -/
structure Ledger (fixed held : Nat → Nat) (rb : Buffer) (host : Nat → Nat)
    (tab : Nat → Nat → Nat) : Prop where
  hostOk : ∀ i < geo.l1Size, HostOk geo (host i)
  entryOk : ∀ i < geo.l1Size, ∀ j < geo.entriesPerL2, EntryAligned geo.clusterSize (tab i j)
  count : ∀ c < counted geo rb, rcAt rb.bytes c = fixed c + refTotal geo host tab c + held c
  covered : ∀ c, counted geo rb ≤ c → refTotal geo host tab c = 0

end

section

variable {geo : Geometry} {fixed held held' : Nat → Nat} {rb rb' : Buffer} {host host' : Nat → Nat}
  {tab tab' : Nat → Nat → Nat} {i j c h : Nat} {p q : Nat × Nat}

theorem oneRef_self (geo : Geometry) (h : Nat) : oneRef geo h (h / geo.clusterSize) = 1 := by
  simp [oneRef]

theorem tableRef_eq_oneRef (hne : h ≠ 0) : tableRef geo.clusterSize h c = oneRef geo h c := by
  simp only [tableRef, oneRef, hne, ne_eq, not_false_eq_true, true_and]
  exact if_congr eq_comm rfl rfl

/-- A plain entry refers to its host cluster. -/
theorem entryRefs_plain {bits cs entry : Nat} (hplain : entry &&& oflagCompressed = 0) :
    entryRefs bits cs entry c = tableRef cs (hostOf entry) c := by
  simp [entryRefs, hplain]

theorem tableRef_zero (cs c : Nat) : tableRef cs 0 c = 0 := by
  simp [tableRef]

@[simp] theorem refNames_table : refNames geo host tab (i, geo.entriesPerL2) c
    = tableRef geo.clusterSize (host i) c :=
  chainNames_table ..

theorem refNames_entry (hj : j < geo.entriesPerL2) : refNames geo host tab (i, j) c
    = entryRefs geo.clusterBits geo.clusterSize (tab i j) c :=
  chainNames_entry hj

/-- The ledger reads the tables of the L1 only. -/
theorem Ledger.congr (h : Ledger geo fixed held rb host tab)
    (hhost : ∀ i < geo.l1Size, host' i = host i)
    (htab : ∀ i < geo.l1Size, ∀ j < geo.entriesPerL2, tab' i j = tab i j) :
    Ledger geo fixed held rb host' tab' := by
  have htotal : ∀ c, refTotal geo host' tab' c = refTotal geo host tab c :=
    fun c => chainRefs_congr hhost htab c
  refine ⟨fun i hi => ?_, fun i hi j hj => ?_, fun c hc => ?_, fun c hc => ?_⟩
  · rw [hhost i hi]
    exact h.hostOk i hi
  · rw [htab i hi j hj]
    exact h.entryOk i hi j hj
  · rw [htotal]
    exact h.count c hc
  · rw [htotal]
    exact h.covered c hc

/-! ## Clusters with a single reference -/

variable (hled : Ledger geo fixed held rb host tab)

include hled

/-- A pointer that holds the only reference to a cluster. -/
theorem Ledger.alone (hp : p ∈ refPointers geo) (hcount : CountIs geo rb h 1)
    (hname : refNames geo host tab p (h / geo.clusterSize) = 1) :
    fixed (h / geo.clusterSize) = 0 ∧ held (h / geo.clusterSize) = 0 ∧
      ∀ q ∈ refPointers geo, q ≠ p → refNames geo host tab q (h / geo.clusterSize) = 0 := by
  have hc := hled.count _ hcount.covered
  rw [hcount.count] at hc
  have hle : refNames geo host tab p (h / geo.clusterSize)
      ≤ refTotal geo host tab (h / geo.clusterSize) := le_total hp
  refine ⟨by omega, by omega, fun q hq hne => ?_⟩
  have hadd : refNames geo host tab p (h / geo.clusterSize) +
      refNames geo host tab q (h / geo.clusterSize)
      ≤ refTotal geo host tab (h / geo.clusterSize) := add_le_total hp hq hne.symm
  omega

/-- A cluster that only something outside the L1 refers to. -/
theorem Ledger.unnamed (hcount : CountIs geo rb h 1)
    (hout : fixed (h / geo.clusterSize) + held (h / geo.clusterSize) ≠ 0) :
    ∀ q ∈ refPointers geo, refNames geo host tab q (h / geo.clusterSize) = 0 := by
  intro q hq
  have hc := hled.count _ hcount.covered
  rw [hcount.count] at hc
  refine names_eq_zero hq (c := h / geo.clusterSize) ?_
  show refTotal geo host tab (h / geo.clusterSize) = 0
  omega

/-! ## Allocating and dropping -/

/-- A new cluster is held by the write that allocated it. -/
theorem Ledger.alloc (hlen : rb'.len = rb.len) (hfree : rcAt rb.bytes (h / geo.clusterSize) = 0)
    (hrc : ∀ c, rcAt rb'.bytes c = if c = h / geo.clusterSize then 1 else rcAt rb.bytes c) :
    Ledger geo fixed (fun c => held c + oneRef geo h c) rb' host tab := by
  have hcounted : counted geo rb' = counted geo rb := by rw [counted, counted, hlen]
  refine ⟨hled.hostOk, hled.entryOk, fun c hc => ?_, fun c hc => ?_⟩
  · have hold := hled.count c (hcounted ▸ hc)
    rw [hrc]
    unfold oneRef
    split
    next heq =>
      rw [heq] at hold ⊢
      omega
    · omega
  · exact hled.covered c (hcounted ▸ hc)

omit hled

/-- Dropping a reference that the write held. -/
theorem Ledger.drop (hled : Ledger geo fixed (fun c => held c + oneRef geo h c) rb host tab)
    (hlen : rb'.len = rb.len)
    (hrc : ∀ c, rcAt rb'.bytes c = if c = h / geo.clusterSize then rcAt rb.bytes c - 1
      else rcAt rb.bytes c) :
    Ledger geo fixed held rb' host tab := by
  have hcounted : counted geo rb' = counted geo rb := by rw [counted, counted, hlen]
  refine ⟨hled.hostOk, hled.entryOk, fun c hc => ?_, fun c hc => ?_⟩
  · have hold := hled.count c (hcounted ▸ hc)
    rw [hrc]
    unfold oneRef at hold
    split
    next heq =>
      rw [if_pos heq] at hold
      omega
    next hne =>
      rw [if_neg hne] at hold
      omega
  · exact hled.covered c (hcounted ▸ hc)

/-! ## Replacing a pointer -/

/-- What replacing one pointer does to the references. -/
theorem refTotal_update (hp : p ∈ refPointers geo)
    (hne : ∀ q ∈ refPointers geo, q ≠ p → refNames geo host' tab' q c = refNames geo host tab q c) :
    refTotal geo host' tab' c + refNames geo host tab p c
      = refTotal geo host tab c + refNames geo host' tab' p c :=
  total_update hp hne

include hled

/-- Replacing one pointer against references held by the write. -/
theorem Ledger.replace (hp : p ∈ refPointers geo) (hhost : ∀ i < geo.l1Size, HostOk geo (host' i))
    (htab : ∀ i < geo.l1Size, ∀ j < geo.entriesPerL2, EntryAligned geo.clusterSize (tab' i j))
    (hne : ∀ q ∈ refPointers geo, q ≠ p →
      ∀ c, refNames geo host' tab' q c = refNames geo host tab q c)
    (hheld : ∀ c < counted geo rb, held' c + refNames geo host' tab' p c =
      held c + refNames geo host tab p c)
    (hcov : ∀ c, counted geo rb ≤ c → refNames geo host' tab' p c = 0) :
        Ledger geo fixed held' rb host' tab' := by
  refine ⟨hhost, htab, fun c hc => ?_, fun c hc => ?_⟩
  · have hupd := refTotal_update hp fun q hq hqp => hne q hq hqp c
    have hold := hled.count c hc
    have := hheld c hc
    omega
  · have hupd := refTotal_update hp fun q hq hqp => hne q hq hqp c
    have hold := hled.covered c hc
    have hnew := hcov c hc
    omega

theorem Ledger.setEntry (hi : i < geo.l1Size) (hj : j < geo.entriesPerL2)
    (hal : EntryAligned geo.clusterSize (tab' i j)) (hhost : ∀ i < geo.l1Size, host' i = host i)
    (hother : ∀ i' < geo.l1Size, ∀ j' < geo.entriesPerL2, (i', j') ≠ (i, j) →
      tab' i' j' = tab i' j')
    (hheld : ∀ c, held' c + entryRefs geo.clusterBits geo.clusterSize (tab' i j) c
      = held c + entryRefs geo.clusterBits geo.clusterSize (tab i j) c)
    (hcov : ∀ c, counted geo rb ≤ c → entryRefs geo.clusterBits geo.clusterSize (tab' i j) c = 0) :
    Ledger geo fixed held' rb host' tab' := by
  refine hled.replace (p := (i, j)) (entry_mem hi hj) (fun i' hi' => ?_) (fun i' hi' j' hj' => ?_)
    (fun q hq hqp c => ?_) (fun c _ => ?_) (fun c hc => ?_)
  · rw [hhost i' hi']
    exact hled.hostOk i' hi'
  · by_cases heq : (i', j') = (i, j)
    · cases heq
      exact hal
    · rw [hother i' hi' j' hj' heq]
      exact hled.entryOk i' hi' j' hj'
  · obtain ⟨hq1, hq2⟩ := mem_chainPointers hq
    obtain ⟨i', j'⟩ := q
    rcases hq2 with rfl | hq2
    · rw [refNames_table, refNames_table, hhost i' hq1]
    · rw [refNames_entry hq2, refNames_entry hq2, hother i' hq1 j' hq2 hqp]
  · rw [refNames_entry hj, refNames_entry hj]
    exact hheld c
  · rw [refNames_entry hj]
    exact hcov c hc

theorem Ledger.setTable (hi : i < geo.l1Size) (hok : HostOk geo (host' i))
    (hother : ∀ i' < geo.l1Size, i' ≠ i → host' i' = host i')
    (htab : ∀ i < geo.l1Size, ∀ j < geo.entriesPerL2, tab' i j = tab i j)
    (hheld : ∀ c, held' c + tableRef geo.clusterSize (host' i) c
      = held c + tableRef geo.clusterSize (host i) c)
    (hcov : ∀ c, counted geo rb ≤ c → tableRef geo.clusterSize (host' i) c = 0) :
    Ledger geo fixed held' rb host' tab' := by
  refine hled.replace (p := (i, geo.entriesPerL2)) (table_mem hi) (fun i' hi' => ?_)
    (fun i' hi' j' hj' => ?_) (fun q hq hqp c => ?_) (fun c _ => ?_) (fun c hc => ?_)
  · by_cases heq : i' = i
    · rw [heq]
      exact hok
    · rw [hother i' hi' heq]
      exact hled.hostOk i' hi'
  · rw [htab i' hi' j' hj']
    exact hled.entryOk i' hi' j' hj'
  · obtain ⟨hq1, hq2⟩ := mem_chainPointers hq
    obtain ⟨i', j'⟩ := q
    rcases hq2 with rfl | hq2
    · have hne : i' ≠ i := fun heq => hqp (by rw [heq])
      rw [refNames_table, refNames_table, hother i' hq1 hne]
    · rw [refNames_entry hq2, refNames_entry hq2, htab i' hq1 j' hq2]
  · rw [refNames_table, refNames_table]
    exact hheld c
  · rw [refNames_table]
    exact hcov c hc

end

end Instar.Write
