import Instar.Qcow2.Format

/-!
# Header extensions

A header is followed by records of a type, a length and a body padded to eight bytes, up to a record
of type zero.  `recordsFrom` are the records a reader goes through, `headerExtensionAreaEnd` is
where the chain ends if it is closed inside the cluster.  Both only look at the bytes from the start
of the chain on, and a closed chain can be moved: the records are the same and the end moves along.
-/

namespace Instar.Qcow2

open ByteMap

/-- Where the record after one at `off` starts: the body is padded to eight bytes. -/
def nextRecord (off len : Nat) : Nat := off + 8 + (len + 7) / 8 * 8

/-- The type of the bitmaps extension, which only version 3 has. -/
def extBitmaps : Nat := 0x23852875

/-- A record of the extension area: its type, and where its body is. -/
structure ExtensionRecord where
  type : Nat
  body : Nat
  len : Nat
  deriving DecidableEq, Repr

/-- The records of the loop of `parse_header_extensions` from `off` on. -/
def recordsFrom (header : Buffer) : Nat → Nat → List ExtensionRecord
  | 0, _ => []
  | fuel + 1, off =>
    if header.len < off + 8 then []
    else
      let type := header.be off 4
      let len := header.be (off + 4) 4
      if type = 0 then []
      else if header.len < off + 8 + len then []
      else ⟨type, off + 8, len⟩ :: recordsFrom header fuel (nextRecord off len)

/-- The type and the body of each of them. -/
def extensionsFrom (header : Buffer) (fuel off : Nat) : List (Nat × List UInt8) :=
  (recordsFrom header fuel off).map fun r => (r.type, header.bytes.window r.body r.len)

/-- The records `parse_header_extensions` goes through.  Each takes at least eight bytes. -/
def headerExtensions (header : Buffer) : List (Nat × List UInt8) :=
  if header.be 4 4 < 3 then []
  else if header.len < 104 then []
  else extensionsFrom header (header.len / 8 + 1) (header.be 100 4)

/-- The loop of `header_extension_area_end`. -/
def areaEndFrom (cluster : Buffer) : Nat → Nat → Option Nat
  | 0, _ => none
  | fuel + 1, off =>
    if cluster.len < off + 8 then none
    else if cluster.be off 4 = 0 then some (off + 8)
    else if cluster.len < nextRecord off (cluster.be (off + 4) 4) then none
    else areaEndFrom cluster fuel (nextRecord off (cluster.be (off + 4) 4))

/-- `header_extension_area_end`.  Each record takes at least eight bytes. -/
def headerExtensionAreaEnd (cluster : Buffer) (start : Nat) : Option Nat :=
  areaEndFrom cluster (cluster.len / 8 + 1) start

section Walk

variable {n : Nat} {m m' : ByteMap} {fuel off e : Nat}

theorem recordsFrom_succ : recordsFrom ⟨n, m⟩ (fuel + 1) off =
    if n < off + 8 ∨ m.be off 4 = 0 ∨ n < off + 8 + m.be (off + 4) 4 then []
    else ⟨m.be off 4, off + 8, m.be (off + 4) 4⟩ ::
      recordsFrom ⟨n, m⟩ fuel (nextRecord off (m.be (off + 4) 4)) := by
  rw [recordsFrom, ite_or, ite_or]
  rfl

theorem extensionsFrom_end (h : m.be off 4 = 0) : extensionsFrom ⟨n, m⟩ fuel off = [] := by
  cases fuel with
  | zero => rfl
  | succ fuel => rw [extensionsFrom, recordsFrom_succ, if_pos (.inr (.inl h)), List.map_nil]

/-- What one step of the search for the end comes to. -/
theorem areaEndFrom_cases (h : areaEndFrom ⟨n, m⟩ (fuel + 1) off = some e) :
    off + 8 ≤ n ∧ (m.be off 4 = 0 ∧ e = off + 8 ∨ m.be off 4 ≠ 0 ∧
      nextRecord off (m.be (off + 4) 4) ≤ n ∧
        areaEndFrom ⟨n, m⟩ fuel (nextRecord off (m.be (off + 4) 4)) = some e) := by
  rw [areaEndFrom] at h
  split at h
  · cases h
  rename_i hroom
  refine ⟨not_lt.mp hroom, ?_⟩
  split at h
  next htype =>
    exact .inl ⟨htype, (Option.some.inj h).symm⟩
  rename_i htype
  split at h
  · cases h
  rename_i hbody
  exact .inr ⟨htype, not_lt.mp hbody, h⟩

section

variable (hroom : off + 8 ≤ n) (htype : m.be off 4 ≠ 0)
  (hbody : nextRecord off (m.be (off + 4) 4) ≤ n)

include hroom htype hbody

theorem areaEndFrom_step :
    areaEndFrom ⟨n, m⟩ (fuel + 1) off = areaEndFrom ⟨n,
      m⟩ fuel (nextRecord off (m.be (off + 4) 4)) := by
  rw [areaEndFrom, if_neg (Nat.not_lt_of_le hroom)]
  exact (if_neg htype).trans (if_neg (Nat.not_lt_of_le hbody))

theorem extensionsFrom_step :
    extensionsFrom ⟨n, m⟩ (fuel + 1) off = (m.be off 4, m.window (off + 8) (m.be (off + 4) 4)) ::
        extensionsFrom ⟨n, m⟩ fuel (nextRecord off (m.be (off + 4) 4)) := by
  have hlen : ¬ n < off + 8 + m.be (off + 4) 4 := by
    unfold nextRecord at hbody
    omega
  rw [extensionsFrom, recordsFrom_succ, if_neg (by omega), List.map_cons]
  rfl

end

theorem areaEndFrom_bounds (h : areaEndFrom ⟨n, m⟩ fuel off = some e) : off + 8 ≤ e ∧ e ≤ n := by
  induction fuel generalizing off with
  | zero => cases h
  | succ fuel ih =>
    obtain ⟨hroom, ⟨-, rfl⟩ | ⟨-, -, hrest⟩⟩ := areaEndFrom_cases h
    · exact ⟨le_rfl, hroom⟩
    · have hbounds := ih hrest
      unfold nextRecord at hbounds
      omega

/-- A closed chain read from a copy of its bytes at another place: the same records, and the end
moves along.  `k` is where the walk has come to. -/
theorem chain_moved {src dst k : Nat} (hend : areaEndFrom ⟨n, m⟩ fuel (src + k) = some e)
    (hroom : dst + (e - src) ≤ n) (hcopy : ∀ i < e - src, m' (dst + i) = m (src + i)) :
    areaEndFrom ⟨n, m'⟩ fuel (dst + k) = some (dst + (e - src)) ∧
      extensionsFrom ⟨n, m'⟩ fuel (dst + k) = extensionsFrom ⟨n, m⟩ fuel (src + k) := by
  induction fuel generalizing k with
  | zero => cases hend
  | succ fuel ih =>
    have hbounds := areaEndFrom_bounds hend
    have hfield : ∀ a w, a + w ≤ e - src → m'.be (dst + a) w = m.be (src + a) w := fun a w ha =>
      be_congr fun i hi => by
        rw [add_assoc, add_assoc]
        exact hcopy _ (by omega)
    have htype : m'.be (dst + k) 4 = m.be (src + k) 4 := hfield _ _ (by omega)
    have hlen : m'.be (dst + k + 4) 4 = m.be (src + k + 4) 4 := by
      rw [add_assoc, add_assoc]
      exact hfield _ _ (by omega)
    obtain ⟨hfits, ⟨hzero, he⟩ | ⟨hne, hbody, hrest⟩⟩ := areaEndFrom_cases hend
    · -- the end marker
      have hmarker : m'.be (dst + k) 4 = 0 := htype.trans hzero
      refine ⟨?_, ?_⟩
      · rw [areaEndFrom, if_neg (show ¬ n < dst + k + 8 by omega)]
        refine (if_pos hmarker).trans (congrArg some ?_)
        omega
      · have hnew : extensionsFrom ⟨n, m'⟩ (fuel + 1) (dst + k) = [] := extensionsFrom_end hmarker
        have hold : extensionsFrom ⟨n, m⟩ (fuel + 1) (src + k) = [] := extensionsFrom_end hzero
        rw [hnew, hold]
    · -- a record, and the rest of the chain
      have hnext : nextRecord (src + k) (m.be (src + k + 4) 4) =
          src + (k + 8 + (m.be (src + k + 4) 4 + 7) / 8 * 8) := by
        unfold nextRecord
        omega
      have hnext' : nextRecord (dst + k) (m'.be (dst + k + 4) 4) =
          dst + (k + 8 + (m.be (src + k + 4) 4 + 7) / 8 * 8) := by
        unfold nextRecord
        omega
      rw [hnext] at hrest hbody
      have hstop := areaEndFrom_bounds hrest
      obtain ⟨hend', hexts⟩ := ih hrest
      have hne' : m'.be (dst + k) 4 ≠ 0 := by
        rw [htype]
        exact hne
      have hbody' : nextRecord (dst + k) (m'.be (dst + k + 4) 4) ≤ n := by
        omega
      refine ⟨?_, ?_⟩
      · rw [areaEndFrom_step (by omega) hne' hbody', hnext']
        exact hend'
      · rw [extensionsFrom_step (by omega) hne' hbody',
          extensionsFrom_step hfits hne (by rw [hnext]; exact hbody), hnext, hnext',
          hexts, htype, hlen]
        congr 2
        refine window_congr fun i hi => ?_
        have hi' := hcopy (k + 8 + i) (by omega)
        rw [show dst + k + 8 + i = dst + (k + 8 + i) by omega,
          show src + k + 8 + i = src + (k + 8 + i) by omega]
        exact hi'

/-- The records depend on the bytes from the start of the chain on. -/
theorem extensionsFrom_congr (h : ∀ b, off ≤ b → m' b = m b) :
    extensionsFrom ⟨n, m'⟩ fuel off = extensionsFrom ⟨n, m⟩ fuel off := by
  induction fuel generalizing off with
  | zero => rfl
  | succ fuel ih =>
    have hfield : ∀ a w, off ≤ a → m'.be a w = m.be a w := fun a w ha =>
      be_congr fun i _ => h _ (by omega)
    have hbody : m'.window (off + 8) (m.be (off + 4) 4) = m.window (off + 8) (m.be (off + 4) 4) :=
      window_congr fun i _ => h _ (by omega)
    have hrest : extensionsFrom ⟨n, m'⟩ fuel (nextRecord off (m.be (off + 4) 4)) = _ :=
      ih fun b hb => h b (by unfold nextRecord at hb; omega)
    unfold extensionsFrom at hrest ⊢
    rw [recordsFrom_succ, recordsFrom_succ, hfield off 4 le_rfl, hfield (off + 4) 4 (by omega)]
    split
    · rfl
    · rw [List.map_cons, List.map_cons, hrest]
      exact congrArg (fun body => (_, body) :: _) hbody

/-- So does the end of the chain, and only on those inside the cluster. -/
theorem areaEndFrom_congr (h : ∀ b, off ≤ b → b < n → m' b = m b) :
    areaEndFrom ⟨n, m'⟩ fuel off = areaEndFrom ⟨n, m⟩ fuel off := by
  induction fuel generalizing off with
  | zero => rfl
  | succ fuel ih =>
    have hrest : ∀ len, areaEndFrom ⟨n, m'⟩ fuel (nextRecord off len) =
        areaEndFrom ⟨n, m⟩ fuel (nextRecord off len) :=
      fun len => ih fun b hb => h b (by unfold nextRecord at hb; omega)
    unfold areaEndFrom Buffer.be
    by_cases hroom : n < off + 8
    · rw [if_pos hroom, if_pos hroom]
    have hfield : ∀ a, off ≤ a → a ≤ off + 4 → m'.be a 4 = m.be a 4 := fun a ha ha' =>
      be_congr fun i _ => h _ (by omega) (by omega)
    rw [hfield off (by omega) (by omega), hfield (off + 4) (by omega) (by omega), hrest]

/-! ## Records in place -/

variable {r : ExtensionRecord}

/-- A body lies behind the head of its record and inside the cluster. -/
theorem recordsFrom_body (h : r ∈ recordsFrom ⟨n, m⟩ fuel off) :
    off + 8 ≤ r.body ∧ r.body + r.len ≤ n := by
  induction fuel generalizing off with
  | zero => cases h
  | succ fuel ih =>
    rw [recordsFrom_succ] at h
    split at h
    · cases h
    · rcases List.mem_cons.mp h with rfl | h
      · dsimp only
        omega
      · have := ih h
        unfold nextRecord at this
        omega

/-- The records do not depend on what is in the bodies. -/
theorem recordsFrom_congr
    (h : ∀ b, off ≤ b → b < n →
      (∀ r ∈ recordsFrom ⟨n, m⟩ fuel off, ¬ (r.body ≤ b ∧ b < r.body + r.len)) →
      m' b = m b) : recordsFrom ⟨n, m'⟩ fuel off = recordsFrom ⟨n, m⟩ fuel off := by
  induction fuel generalizing off with
  | zero => rfl
  | succ fuel ih =>
    have hfield : ∀ a, off ≤ a → a + 4 ≤ off + 8 → off + 8 ≤ n → m'.be a 4 = m.be a 4 :=
      fun a ha hend hroom => be_congr fun i hi => h _ (by omega) (by omega) fun r hr hin => by
        have := (recordsFrom_body hr).1
        omega
    rw [recordsFrom_succ, recordsFrom_succ]
    by_cases hroom : off + 8 ≤ n
    swap
    · rw [if_pos (.inl (by omega)), if_pos (.inl (by omega))]
    rw [hfield off (by omega) (by omega) hroom, hfield (off + 4) (by omega) (by omega) hroom]
    split
    · rfl
    next hstep =>
      refine congrArg _ (ih fun b hlo hb hout => ?_)
      unfold nextRecord at hlo
      refine h b (by omega) hb fun r hr hin => ?_
      rw [recordsFrom_succ, if_neg hstep] at hr
      rcases List.mem_cons.mp hr with rfl | hr
      · dsimp only at hin
        omega
      · exact hout r hr hin

end Walk

end Instar.Qcow2
