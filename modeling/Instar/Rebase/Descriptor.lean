import Mathlib.Data.List.TakeWhile
import Instar.Rebase.Vmdk

/-!
# What a rebase makes of the descriptor

The rewrite emits a text that does not depend on the room there is: `rewriteDescriptor_opts` says
that it fails exactly if the text does not fit.  Line by line the text is `outLines`, as long as
what is put in after the last line is not glued to it (`texts_rewriting_open`,
`not_rewritten_open`).  Counting its parent lines and comparing a second rewrite come out right
exactly for a `Rewritable` source (`ParentLines.rewritten_iff`).
-/

namespace Instar.Rebase

open Text List VmdkRebaseOpts

/-! ## The emitted text -/

/-- The parent CID line. -/
def parentCidLine (cid : Nat) : List UInt8 := parentCidKey ++ formatU32Hex8 cid

/-- The parent file name line. -/
def parentHintLine (path : List UInt8) (detach : Bool) : List UInt8 :=
  parentHintKey ++ [quote] ++ (if detach then [] else path) ++ [quote]

variable {cap : Nat} {dest line path source : List UInt8} {cid : Nat} {detach : Bool}

variable {st : Rewrite} {text last put : List UInt8} {rest : List (List UInt8)} {x : UInt8}

theorem copyLine_copyLine (a b : List UInt8) :
    (copyLine cap dest a >>= fun dest => copyLine cap dest b) = copyLine cap dest (a ++ b) := by
  unfold copyLine
  by_cases ha : cap < dest.length + a.length
  · have hab : cap < dest.length + (a ++ b).length := by
      rw [length_append]
      omega
    rw [if_pos ha, if_pos hab]
    rfl
  · rw [if_neg ha]
    show (if cap < (dest ++ a).length + b.length then _ else _) = _
    rw [length_append, length_append, append_assoc, Nat.add_assoc]

theorem writeParentCidLine_eq :
    writeParentCidLine cap dest cid = copyLine cap dest (parentCidLine cid) :=
  copyLine_copyLine _ _

theorem writeParentHintLine_eq :
    writeParentHintLine cap dest path detach = copyLine cap dest (parentHintLine path detach) := by
  cases detach with
  | true =>
    show (copyLine cap dest (parentHintKey ++ [quote]) >>= fun dest =>
      copyLine cap dest [quote]) = _
    rw [copyLine_copyLine]
    rfl
  | false =>
    show (copyLine cap dest (parentHintKey ++ [quote]) >>= fun dest =>
      copyLine cap dest path >>= fun dest => copyLine cap dest [quote]) = _
    simp only [copyLine_copyLine]
    rfl

/-- What a line is to the rewrite. -/
inductive LineKind where
  | parentCid
  | parentHint
  | cid
  | other
deriving DecidableEq, Repr

/-- The kind of a line. -/
def kindOf (line : List UInt8) : LineKind :=
  if parentCidKey.isPrefixOf line then .parentCid
  else if parentHintKey.isPrefixOf line then .parentHint
  else if cidKey.isPrefixOf line then .cid
  else .other

/-- What a line is replaced by: `c` and `h` are the parent lines. -/
def replaced (c h line : List UInt8) : List UInt8 :=
  match kindOf line with
  | .parentCid => c
  | .parentHint => h
  | _ => line

section

variable (saw : Bool) (line : List UInt8)

/-- Whether the parent CID line is put in after a line. -/
def putsCid : Bool := decide (kindOf line = .cid) && !saw

/-- Whether a parent CID line has been written once a line is done. -/
def sawCid : Bool := saw || decide (kindOf line = .parentCid) || decide (kindOf line = .cid)

/-- Whether a parent file name line has been written once a line is done. -/
def sawHint : Bool := saw || decide (kindOf line = .parentHint)

end

/-- What one round emits. -/
def emittedLine (c h : List UInt8) (saw : Bool) (line : Line UInt8) : List UInt8 :=
  Line.symbols newline (replaced c h line.1, line.2) ++ if putsCid saw line.1 then c ++ [newline]
    else []

/-- What the rounds from some line on and the end emit. -/
def emitted (c h : List UInt8) : (sawC sawH : Bool) → List (Line UInt8) → List UInt8
  | sawC, sawH, [] => (if sawC then [] else c ++ [newline]) ++ if sawH then [] else h ++ [newline]
  | sawC, sawH, line :: rest =>
    emittedLine c h sawC line ++ emitted c h (sawCid sawC line.1) (sawHint sawH line.1) rest

/-- A line with one key does not have another. -/
theorem cidKey_apart (h : parentCidKey.isPrefixOf line = true ∨
    parentHintKey.isPrefixOf line = true) : cidKey.isPrefixOf line = false := by
  cases line with
  | nil => rcases h with h | h <;> cases h
  | cons x line =>
    have hfirst : (112 : UInt8) = x := by
      rcases h with h | h
      · exact eq_of_beq (Bool.and_eq_true_iff.mp h).1
      · exact eq_of_beq (Bool.and_eq_true_iff.mp h).1
    subst hfirst
    rfl

theorem replaceLine_eq (st : Rewrite) (line : List UInt8) :
      replaceLine cap path cid detach st line =
      (fun dest => (⟨dest, st.sawParentCid || decide (kindOf line = .parentCid),
        sawHint st.sawParentHint line⟩ : Rewrite)) <$>
          copyLine cap st.dest (replaced (parentCidLine cid) (parentHintLine path detach)
            line) := by
  unfold replaceLine replaced sawHint kindOf
  rw [writeParentCidLine_eq, writeParentHintLine_eq]
  by_cases hcid : parentCidKey.isPrefixOf line = true
  · simp only [hcid, if_true, bind_pure_comp]
    simp
  · by_cases hhint : parentHintKey.isPrefixOf line = true
    · simp only [hcid, hhint, if_true, bind_pure_comp]
      simp
    · by_cases hown : cidKey.isPrefixOf line = true
      · simp only [hcid, hhint, hown, if_true, bind_pure_comp]
        simp
      · simp only [hcid, hhint, hown, bind_pure_comp]
        simp

theorem copyLine_closeLine (closed : Bool) (a : List UInt8) :
    (copyLine cap dest a >>= fun dest => closeLine cap dest closed) =
      copyLine cap dest (a ++ if closed then [newline] else []) := by
  cases closed with
  | true => exact copyLine_copyLine a [newline]
  | false =>
    show copyLine cap dest a >>= pure = copyLine cap dest (a ++ [])
    rw [bind_pure, append_nil]

theorem kindOf_cid : kindOf line = .cid ↔ cidKey.isPrefixOf line = true := by
  unfold kindOf
  constructor
  · intro h
    split at h
    · cases h
    split at h
    · cases h
    split at h
    · assumption
    · cases h
  · intro h
    rw [if_neg fun h' => by simp [cidKey_apart (.inl h')] at h,
      if_neg fun h' => by simp [cidKey_apart (.inr h')] at h, if_pos h]

theorem copyLine_insertParentCid (a : List UInt8) (c h : Bool) :
    (copyLine cap dest a >>= fun dest => insertParentCid cap cid line ⟨dest, c, h⟩) =
      (fun dest => (⟨dest, c || decide (kindOf line = .cid), h⟩ : Rewrite)) <$>
        copyLine cap dest (a ++ if putsCid c line then parentCidLine cid ++ [newline] else []) := by
  unfold insertParentCid putsCid
  rw [show (decide (kindOf line = .cid)) = cidKey.isPrefixOf line by
    rw [Bool.eq_iff_iff, decide_eq_true_iff, kindOf_cid]]
  by_cases hput : (cidKey.isPrefixOf line && !c) = true
  · have hflag : (c || cidKey.isPrefixOf line) = true := by
      rw [(Bool.and_eq_true_iff.mp hput).1, Bool.or_true]
    simp only [hput, hflag, if_true, writeParentCidLine_eq, ← copyLine_copyLine,
      bind_pure_comp, map_bind]
  · have hflag : (c || cidKey.isPrefixOf line) = c := by
      generalize cidKey.isPrefixOf line = p at hput ⊢
      cases c <;> cases p <;> first | rfl | exact absurd rfl hput
    simp only [hput, hflag, Bool.false_eq_true, if_false, append_nil, bind_pure_comp]

/-- One round emits its text, if it fits, and sets its flags. -/
theorem rewriteLine_eq (st : Rewrite) (line : Line UInt8) :
      rewriteLine cap path cid detach st line =
      (fun dest => (⟨dest, sawCid st.sawParentCid line.1,
        sawHint st.sawParentHint line.1⟩ : Rewrite)) <$>
        copyLine cap st.dest (emittedLine (parentCidLine cid) (parentHintLine path detach)
          st.sawParentCid line) := by
  obtain ⟨text, closed⟩ := line
  have hflag : (st.sawParentCid || decide (kindOf text = .parentCid) ||
      decide (kindOf text = .cid)) = sawCid st.sawParentCid text := rfl
  have hputs : putsCid (st.sawParentCid || decide (kindOf text = .parentCid)) text =
      putsCid st.sawParentCid text := by
    unfold putsCid
    cases kindOf text <;> simp
  unfold rewriteLine
  simp only [replaceLine_eq, bind_map_left]
  rw [← bind_assoc (f := fun dest => closeLine cap dest closed), copyLine_closeLine,
    copyLine_insertParentCid, hflag, hputs]
  rfl

theorem copyLine_bind_congr {β : Type} {a : List UInt8} {f g : List UInt8 → Except RebaseError β}
    (h : ∀ dest', dest'.length ≤ cap → f dest' = g dest') :
    (copyLine cap dest a >>= f) = (copyLine cap dest a >>= g) := by
  unfold copyLine
  by_cases hfit : cap < dest.length + a.length
  · rw [if_pos hfit]
    rfl
  · rw [if_neg hfit]
    exact h (dest ++ a) (by rw [length_append]; omega)

/-- Writing nothing. -/
theorem copyLine_nil (hdest : dest.length ≤ cap) : copyLine cap dest [] = .ok dest := by
  unfold copyLine
  rw [length_nil, if_neg (by omega), append_nil]

theorem appendMissing_eq (hdest : st.dest.length ≤ cap) :
    appendMissing cap path cid detach st = copyLine cap st.dest
      (emitted (parentCidLine cid) (parentHintLine path detach) st.sawParentCid
        st.sawParentHint []) := by
  unfold appendMissing emitted
  have hcid : (writeParentCidLine cap st.dest cid >>= fun dest => copyLine cap dest [newline]) =
      copyLine cap st.dest (parentCidLine cid ++ [newline]) := by
    rw [writeParentCidLine_eq, copyLine_copyLine]
  have hhint : ∀ dest', writeParentHintLine cap dest' path detach >>= (fun dest =>
      copyLine cap dest [newline]) =
      copyLine cap dest' (parentHintLine path detach ++ [newline]) := fun dest' => by
    rw [writeParentHintLine_eq, copyLine_copyLine]
  cases hc : st.sawParentCid with
  | true =>
    cases hh : st.sawParentHint with
    | true => exact (copyLine_nil hdest).symm
    | false => exact hhint st.dest
  | false =>
    cases hh : st.sawParentHint with
    | true =>
      show (writeParentCidLine cap st.dest cid >>= fun dest =>
        copyLine cap dest [newline] >>= pure) = _
      simp only [bind_pure, hcid]
      exact congrArg (copyLine cap st.dest) (append_nil _).symm
    | false =>
      show (writeParentCidLine cap st.dest cid >>= fun dest =>
          copyLine cap dest [newline] >>= fun dest =>
        writeParentHintLine cap dest path detach >>= fun dest => copyLine cap dest [newline]) = _
      simp only [hhint]
      rw [← bind_assoc, hcid, copyLine_copyLine]
      rfl

/-- The rounds from some line on and the end emit their text, if it fits. -/
theorem rewriteLines_eq (lines : List (Line UInt8)) (hdest : st.dest.length ≤ cap) :
    (lines.foldlM (rewriteLine cap path cid detach) st >>= appendMissing cap path cid detach) =
      copyLine cap st.dest (emitted (parentCidLine cid) (parentHintLine path detach) st.sawParentCid
        st.sawParentHint lines) := by
  induction lines generalizing st with
  | nil => exact appendMissing_eq hdest
  | cons line rest ih =>
    rw [foldlM_cons, bind_assoc, rewriteLine_eq, bind_map_left]
    rw [copyLine_bind_congr fun dest' hdest' => ih hdest']
    dsimp only
    rw [copyLine_copyLine]
    rfl

/-! ## The lines of the emitted text -/

/-- The lines the rewrite makes of the lines of the source. -/
def outLines (c h : List UInt8) : (sawC sawH : Bool) → List (List UInt8) → List (List UInt8)
  | sawC, sawH, [] => (if sawC then [] else [c]) ++ if sawH then [] else [h]
  | sawC, sawH, line :: rest =>
    replaced c h line :: (if putsCid sawC line then [c] else []) ++
      outLines c h (sawCid sawC line) (sawHint sawH line) rest

variable {c h : List UInt8} {sawC sawH : Bool} {lines : List (List UInt8)}

theorem not_mem_replaced (hc : x ∉ c) (hh : x ∉ h) (hline : x ∉ line) : x ∉ replaced c h line := by
  unfold replaced
  split
  · exact hc
  · exact hh
  · exact hline

/-- If every line of the source ends, so does every line of the result. -/
theorem emitted_closed (lines : List (List UInt8)) (sawC sawH : Bool) :
    emitted c h sawC sawH (lines.map (·, true)) =
      ofLines newline ((outLines c h sawC sawH lines).map (·, true)) := by
  induction lines generalizing sawC sawH with
  | nil => cases sawC <;> cases sawH <;> simp [emitted, outLines, ofLines, Line.symbols]
  | cons line rest ih =>
    rw [map_cons, emitted, ih, outLines, cons_append, map_cons, map_append, ofLines_cons,
      ofLines_append, ← append_assoc]
    unfold emittedLine
    cases putsCid sawC line <;> simp [ofLines, Line.symbols]

theorem outLines_plain (hc : newline ∉ c) (hh : newline ∉ h) (lines : List (List UInt8))
    (sawC sawH : Bool)
    (hlines : ∀ l ∈ lines, newline ∉ l) : ∀ l ∈ outLines c h sawC sawH lines, newline ∉ l := by
  induction lines generalizing sawC sawH with
  | nil =>
    intro l hl
    rcases mem_append.mp hl with hl | hl <;> split at hl
    · cases hl
    · rwa [mem_singleton.mp hl]
    · cases hl
    · rwa [mem_singleton.mp hl]
  | cons line rest ih =>
    obtain ⟨hline, hrest⟩ := forall_mem_cons.mp hlines
    intro l hl
    rcases mem_append.mp hl with hl | hl
    · rcases mem_cons.mp hl with rfl | hl
      · exact not_mem_replaced hc hh hline
      · split at hl
        · rwa [mem_singleton.mp hl]
        · cases hl
    · exact ih _ _ hrest l hl

/-- The lines before some line of the source. -/
def bodyLines (c h : List UInt8) : (sawC : Bool) → List (List UInt8) → List (List UInt8)
  | _, [] => []
  | sawC, line :: rest =>
    replaced c h line :: (if putsCid sawC line then [c] else []) ++
      bodyLines c h (sawCid sawC line) rest

theorem outLines_append (lines lines' : List (List UInt8)) (sawC sawH : Bool) :
    outLines c h sawC sawH (lines ++ lines') = bodyLines c h sawC lines ++
      outLines c h (lines.foldl sawCid sawC) (lines.foldl sawHint sawH) lines' := by
  induction lines generalizing sawC sawH with
  | nil => rfl
  | cons line rest ih =>
    rw [cons_append, outLines, ih, bodyLines, append_assoc]
    rfl

theorem emitted_append (lines : List (List UInt8)) (lines' : List (Line UInt8)) (sawC sawH : Bool) :
    emitted c h sawC sawH (lines.map (·, true) ++ lines') =
      ofLines newline ((bodyLines c h sawC lines).map (·, true)) ++
        emitted c h (lines.foldl sawCid sawC) (lines.foldl sawHint sawH) lines' := by
  induction lines generalizing sawC sawH with
  | nil => rfl
  | cons line rest ih =>
    rw [map_cons, cons_append, emitted, ih, bodyLines, cons_append, map_cons,
      map_append, ofLines_cons, ofLines_append, ← append_assoc]
    unfold emittedLine
    cases putsCid sawC line <;> simp [ofLines, Line.symbols]

theorem bodyLines_plain (hc : newline ∉ c) (hh : newline ∉ h) (lines : List (List UInt8))
    (sawC : Bool)
    (hlines : ∀ l ∈ lines, newline ∉ l) : ∀ l ∈ bodyLines c h sawC lines, newline ∉ l := by
  intro l hl
  refine outLines_plain hc hh lines sawC true hlines l ?_
  have happ := @outLines_append c h lines [] sawC true
  rw [append_nil] at happ
  rw [happ]
  exact mem_append_left _ hl

/-! ## Parent lines -/

/-- Neither of the two parent lines. -/
def isOther (line : List UInt8) : Bool :=
  decide (kindOf line ≠ .parentCid) && decide (kindOf line ≠ .parentHint)

theorem kindOf_parentCid : kindOf line = .parentCid ↔ parentCidKey <+: line := by
  rw [← isPrefixOf_iff_prefix]
  unfold kindOf
  constructor
  · intro hkind
    split at hkind
    · assumption
    split at hkind
    · cases hkind
    split at hkind <;> cases hkind
  · exact fun hkey => if_pos hkey

theorem kindOf_parentHint : kindOf line = .parentHint ↔ parentHintKey <+: line := by
  constructor
  · intro hkind
    rw [← isPrefixOf_iff_prefix]
    unfold kindOf at hkind
    split at hkind
    · cases hkind
    split at hkind
    · assumption
    split at hkind <;> cases hkind
  · rintro ⟨rest, rfl⟩
    rfl

theorem kindOf_append (extra : List UInt8)
    (hkind : kindOf line = .parentCid ∨ kindOf line = .parentHint) :
    kindOf (line ++ extra) = kindOf line := by
  rcases hkind with hkind | hkind
  · rw [hkind, kindOf_parentCid]
    exact (kindOf_parentCid.mp hkind).trans (prefix_append ..)
  · rw [hkind, kindOf_parentHint]
    exact (kindOf_parentHint.mp hkind).trans (prefix_append ..)

/-- The two lines a rewrite puts in. -/
structure ParentLines (c h : List UInt8) : Prop where
  cid : kindOf c = .parentCid
  hint : kindOf h = .parentHint
  cidPlain : newline ∉ c
  hintPlain : newline ∉ h

theorem kindOf_nil : kindOf [] = .other := rfl

namespace ParentLines

variable (hp : ParentLines c h)
include hp

theorem cid_ne_nil : c ≠ [] := by
  rintro rfl
  exact (nomatch hp.cid)

theorem hint_ne_nil : h ≠ [] := by
  rintro rfl
  exact (nomatch hp.hint)

omit hp in
theorem replaced_other (hother : isOther line = true) : replaced c h line = line := by
  unfold replaced
  unfold isOther at hother
  cases hkind : kindOf line with
  | parentCid => simp [hkind] at hother
  | parentHint => simp [hkind] at hother
  | cid => rfl
  | other => rfl

theorem kindOf_replaced : kindOf (replaced c h line) = kindOf line := by
  unfold replaced
  split
  next hkind =>
    rw [hkind, hp.cid]
  next hkind =>
    rw [hkind, hp.hint]
  · rfl

/-- The lines that are neither stay as they are and in order. -/
theorem others_body (lines : List (List UInt8)) (sawC : Bool) :
    (bodyLines c h sawC lines).filter isOther = lines.filter isOther := by
  have hc : isOther c = false := by simp [isOther, hp.cid]
  induction lines generalizing sawC with
  | nil => rfl
  | cons line rest ih =>
    have hput : (if putsCid sawC line then [c] else []).filter isOther = [] := by
      split <;> simp [hc]
    rw [bodyLines, cons_append, filter_cons, filter_append, hput, ih, nil_append, filter_cons]
    have hsame : isOther (replaced c h line) = isOther line := by
      unfold isOther
      rw [hp.kindOf_replaced]
    rw [hsame]
    split
    next hother =>
      rw [replaced_other hother]
    · rfl

end ParentLines

/-- The parent lines that are missing at the end. -/
def missing (c h : List UInt8) (sawC sawH : Bool) : List (List UInt8) :=
  (if sawC then [] else [c]) ++ if sawH then [] else [h]

/-- A last line without its end, and what is put behind it. -/
theorem emitted_open (last : List UInt8) (sawC sawH : Bool) :
    emitted c h sawC sawH [(last, false)] = replaced c h last ++ ofLines newline
      ((missing c h (sawC || decide (kindOf last = .parentCid)) (sawHint sawH last)).map (·,
        true)) := by
  unfold emitted emittedLine emitted missing putsCid sawCid
  cases kindOf last <;> cases sawC <;> cases sawHint sawH last <;> simp [ofLines, Line.symbols]

theorem outLines_last (last : List UInt8) (sawC sawH : Bool) :
    outLines c h sawC sawH [last] = replaced c h last ::
      missing c h (sawC || decide (kindOf last = .parentCid)) (sawHint sawH last) := by
  unfold outLines outLines missing putsCid sawCid
  cases kindOf last <;> cases sawC <;> cases sawHint sawH last <;> rfl

/-! ## Counting -/

/-- A parent CID line. -/
def isCidLine (line : List UInt8) : Bool := decide (kindOf line = .parentCid)

/-- A parent file name line. -/
def isHintLine (line : List UInt8) : Bool := decide (kindOf line = .parentHint)

/-- A parent CID line is put in after a `CID=` line: there is one with no parent CID line before
it. -/
def inserts : List (List UInt8) → Bool
  | [] => false
  | line :: rest =>
    match kindOf line with
    | .cid => true
    | .parentCid => false
    | _ => inserts rest

namespace ParentLines

variable (hp : ParentLines c h)
include hp

/-- The parent CID lines of the result are the new one, once for each there was, and once more if it
is put in after a `CID=` line or at the end. -/
theorem cids_outLines (lines : List (List UInt8)) (sawC sawH : Bool) :
    (outLines c h sawC sawH lines).filter isCidLine =
      replicate (lines.countP isCidLine + if sawC then 0 else if inserts lines then 1
        else if lines.countP isCidLine = 0 then 1 else 0) c := by
  have hc : isCidLine c = true := by simp [isCidLine, hp.cid]
  have hh : isCidLine h = false := by simp [isCidLine, hp.hint]
  induction lines generalizing sawC sawH with
  | nil => cases sawC <;> cases sawH <;> simp [outLines, inserts, hc, hh]
  | cons line rest ih =>
    rw [outLines, cons_append, filter_cons, filter_append, ih, countP_cons]
    have hsame : isCidLine (replaced c h line) = isCidLine line := by
      unfold isCidLine
      rw [hp.kindOf_replaced]
    rw [hsame, inserts]
    unfold putsCid sawCid replaced
    cases hkind : kindOf line <;> cases sawC <;>
      simp [isCidLine, hkind, hp.cid, replicate_succ]

theorem hints_outLines (lines : List (List UInt8)) (sawC sawH : Bool) :
    (outLines c h sawC sawH lines).filter isHintLine =
      replicate (lines.countP isHintLine + if sawH then 0 else if lines.countP isHintLine = 0 then 1
        else 0) h := by
  have hc : isHintLine c = false := by simp [isHintLine, hp.cid]
  have hh : isHintLine h = true := by simp [isHintLine, hp.hint]
  induction lines generalizing sawC sawH with
  | nil => cases sawC <;> cases sawH <;> simp [outLines, hc, hh]
  | cons line rest ih =>
    have hput : (if putsCid sawC line then [c] else []).filter isHintLine = [] := by
      split <;> simp [hc]
    rw [outLines, cons_append, filter_cons, filter_append, hput, ih, countP_cons, nil_append]
    have hsame : isHintLine (replaced c h line) = isHintLine line := by
      unfold isHintLine
      rw [hp.kindOf_replaced]
    rw [hsame]
    unfold sawHint replaced
    cases hkind : kindOf line <;> cases sawH <;>
      simp [isHintLine, hkind, replicate_succ]

theorem others_outLines (lines : List (List UInt8)) (sawC sawH : Bool) :
    (outLines c h sawC sawH lines).filter isOther = lines.filter isOther := by
  have happ := @outLines_append c h lines [] sawC sawH
  rw [append_nil] at happ
  have hc : isOther c = false := by simp [isOther, hp.cid]
  have hh : isOther h = false := by simp [isOther, hp.hint]
  have hend : ∀ a b, (outLines c h a b []).filter isOther = [] := by
    intro a b
    cases a <;> cases b <;> simp [outLines, hc, hh]
  rw [happ, filter_append, hp.others_body, hend, append_nil]

/-- The result has a `CID=` line without a parent CID line before it exactly if the source had. -/
theorem inserts_outLines (lines : List (List UInt8)) (sawH : Bool) :
    inserts (outLines c h false sawH lines) = inserts lines := by
  induction lines generalizing sawH with
  | nil => cases sawH <;> simp [outLines, inserts, hp.cid]
  | cons line rest ih =>
    rw [outLines, cons_append, inserts, inserts, hp.kindOf_replaced]
    unfold putsCid sawCid
    cases hkind : kindOf line with
    | parentCid => rfl
    | cid => rfl
    | parentHint => exact ih _
    | other => exact ih _

end ParentLines

/-! ## One rewrite -/

/-- The parent lines of a text are these two, each once, and its other lines are those of
`source`. -/
structure Rewritten (c h source text : List UInt8) : Prop where
  cid : (texts newline text).filter isCidLine = [c]
  hint : (texts newline text).filter isHintLine = [h]
  others : (texts newline text).filter isOther = (texts newline source).filter isOther

/-- What a source has to be for a rewrite and a second one to come out right: each parent line at
most once, the parent CID line before every `CID=` line, and nothing put behind an unfinished last
line. -/
structure Rewritable (text : List UInt8) : Prop where
  order : inserts (texts newline text) = false
  cids : (texts newline text).countP isCidLine ≤ 1
  hints : (texts newline text).countP isHintLine ≤ 1
  finished : Closed newline text ∨
    (texts newline text).countP isCidLine = 1 ∧ (texts newline text).countP isHintLine = 1

/-- The text of the rewrite of a text. -/
def rewriting (c h text : List UInt8) : List UInt8 := emitted c h false false (linesOf newline text)

theorem foldl_sawCid_true (lines : List (List UInt8)) : lines.foldl sawCid true = true := by
  induction lines with
  | nil => rfl
  | cons line rest ih => exact ih

theorem foldl_sawHint_true (lines : List (List UInt8)) : lines.foldl sawHint true = true := by
  induction lines with
  | nil => rfl
  | cons line rest ih => exact ih

/-- Where no parent CID line is put in after a `CID=` line, the flag says whether there was one. -/
theorem sawCid_iff (lines : List (List UInt8)) (last : List UInt8)
    (hno : inserts (lines ++ [last]) = false) :
    (lines.foldl sawCid false || decide (kindOf last = .parentCid)) = true ↔
      0 < (lines ++ [last]).countP isCidLine := by
  induction lines with
  | nil => by_cases hkind : kindOf last = .parentCid <;> simp [isCidLine, hkind]
  | cons line rest ih =>
    rw [cons_append, inserts] at hno
    rw [foldl_cons, cons_append, countP_cons]
    cases hkind : kindOf line with
    | cid =>
      rw [hkind] at hno
      cases hno
    | parentCid =>
      have hsaw : sawCid false line = true := by simp [sawCid, hkind]
      rw [hsaw, foldl_sawCid_true]
      simp [isCidLine, hkind]
    | parentHint | other =>
      rw [hkind] at hno
      have hsaw : sawCid false line = false := by simp [sawCid, hkind]
      have hnot : isCidLine line = false := by simp [isCidLine, hkind]
      rw [hsaw, hnot, ih hno]
      rfl

theorem sawHint_iff (lines : List (List UInt8)) (last : List UInt8) :
    sawHint (lines.foldl sawHint false) last = true ↔ 0 < (lines ++ [last]).countP isHintLine := by
  induction lines with
  | nil => by_cases hkind : kindOf last = .parentHint <;> simp [isHintLine, sawHint, hkind]
  | cons line rest ih =>
    rw [foldl_cons, cons_append, countP_cons]
    by_cases hkind : kindOf line = .parentHint
    · have hsaw : sawHint false line = true := by simp [sawHint, hkind]
      rw [hsaw, foldl_sawHint_true]
      simp [isHintLine, hkind, sawHint]
    · have hsaw : sawHint false line = false := by simp [sawHint, hkind]
      have hnot : isHintLine line = false := by simp [isHintLine, hkind]
      rw [hsaw, hnot, ih]
      rfl

theorem texts_map_closed (lines : List (List UInt8)) :
    (lines.map (·, true)).map Prod.fst = lines := by
  rw [map_map]
  exact map_id lines

/-- The lines of a text of finished lines. -/
theorem linesOf_finished (hplain : ∀ l ∈ lines, newline ∉ l) (text : List UInt8) :
    linesOf newline (ofLines newline (lines.map (·, true)) ++ text) =
      lines.map (·, true) ++ linesOf newline text := by
  refine linesOf_append fun l hl => ?_
  obtain ⟨line, hline, rfl⟩ := mem_map.mp hl
  exact ⟨hplain line hline, rfl⟩

variable (hp : ParentLines c h) {n : Nat}

include hp

theorem ParentLines.rewriting_closed (hplain : ∀ l ∈ lines, newline ∉ l)
    (hlines : linesOf newline text = lines.map (·, true)) :
    linesOf newline (rewriting c h text) = (outLines c h false false lines).map (·, true) := by
  have hfin := linesOf_finished (outLines_plain hp.cidPlain hp.hintPlain lines false false hplain)
    []
  unfold rewriting
  rw [hlines, emitted_closed]
  rw [append_nil] at hfin
  exact hfin.trans (append_nil _)

theorem ParentLines.rewriting_open (hplain : ∀ l ∈ lines, newline ∉ l)
    (hlines : linesOf newline text = lines.map (·, true) ++ [(last, false)]) :
    linesOf newline (rewriting c h text) = (bodyLines c h false lines).map (·, true) ++
      linesOf newline (replaced c h last ++ ofLines newline ((missing c h
        (lines.foldl sawCid false || decide (kindOf last = .parentCid))
        (sawHint (lines.foldl sawHint false) last)).map (·, true))) := by
  unfold rewriting
  rw [hlines, emitted_append, emitted_open, linesOf_finished]
  exact bodyLines_plain hp.cidPlain hp.hintPlain lines false hplain

omit hp

/-! ## A second rewrite -/

theorem emittedLine_same {line : Line UInt8} (hline : replaced c h line.1 = line.1) :
    emittedLine c h sawC line =
      Line.symbols newline line ++ if putsCid sawC line.1 then c ++ [newline] else [] := by
  unfold emittedLine
  rw [hline]

/-- A rewrite that replaces nothing and puts nothing in gives back its source. -/
theorem emitted_same (lines : List (Line UInt8)) (sawC sawH : Bool)
    (hsame : ∀ l ∈ lines, replaced c h l.1 = l.1)
    (hc : sawC = true ∨ inserts (lines.map Prod.fst) = false ∧
      0 < (lines.map Prod.fst).countP isCidLine)
    (hh : sawH = true ∨ 0 < (lines.map Prod.fst).countP isHintLine) :
    emitted c h sawC sawH lines = ofLines newline lines := by
  induction lines generalizing sawC sawH with
  | nil =>
    have hc' : sawC = true := hc.resolve_right fun h => lt_irrefl _ h.2
    have hh' : sawH = true := hh.resolve_right (lt_irrefl _)
    rw [hc', hh']
    rfl
  | cons line rest ih =>
    obtain ⟨hline, hrest⟩ := forall_mem_cons.mp hsame
    rw [map_cons, countP_cons] at hh
    rw [map_cons, inserts, countP_cons] at hc
    have hputs : putsCid sawC line.1 = false := by
      unfold putsCid
      rcases hc with rfl | ⟨hno, -⟩
      · simp
      · cases hkind : kindOf line.1 with
        | cid =>
          rw [hkind] at hno
          cases hno
        | _ => simp
    rw [emitted, ofLines_cons]
    rw [emittedLine_same hline, hputs, ih (sawCid sawC line.1) (sawHint sawH line.1) hrest ?_ ?_]
    · simp
    · unfold sawCid
      rcases hc with rfl | ⟨hno, hpos⟩
      · exact .inl rfl
      · cases hkind : kindOf line.1 with
        | parentCid => exact .inl (by simp)
        | cid => exact .inl (by simp)
        | _ =>
          rw [hkind] at hno
          have hnot : isCidLine line.1 = false := by simp [isCidLine, hkind]
          rw [hnot] at hpos
          exact .inr ⟨hno, hpos⟩
    · unfold sawHint
      rcases hh with rfl | hpos
      · exact .inl rfl
      · by_cases hkind : kindOf line.1 = .parentHint
        · exact .inl (by simp [hkind])
        · have hnot : isHintLine line.1 = false := by simp [isHintLine, hkind]
          rw [hnot] at hpos
          exact .inr hpos

/-- A rewrite that replaces nothing is no shorter than its source, and longer if it puts a line in
after a `CID=` line. -/
theorem le_emitted (lines : List (Line UInt8)) (sawC sawH : Bool)
    (hsame : ∀ l ∈ lines, replaced c h l.1 = l.1) :
    (ofLines newline lines).length + (if !sawC && inserts (lines.map Prod.fst) then 1 else 0) ≤
      (emitted c h sawC sawH lines).length := by
  induction lines generalizing sawC sawH with
  | nil => simp [ofLines, inserts]
  | cons line rest ih =>
    obtain ⟨hline, hrest⟩ := forall_mem_cons.mp hsame
    have hle := ih (sawCid sawC line.1) (sawHint sawH line.1) hrest
    rw [emitted, ofLines_cons, length_append, length_append, emittedLine_same hline,
      length_append, map_cons, inserts]
    unfold putsCid
    cases hkind : kindOf line.1 <;> cases sawC <;> simp [sawCid, hkind] at hle ⊢ <;> omega

theorem Rewritten.replaced_eq (hr : Rewritten c h source text) :
    ∀ l ∈ linesOf newline text, replaced c h l.1 = l.1 := by
  intro l hl
  have hmem : l.1 ∈ texts newline text := mem_map_of_mem hl
  unfold replaced
  cases hkind : kindOf l.1 with
  | parentCid =>
    have hin : l.1 ∈ (texts newline text).filter isCidLine :=
      mem_filter.mpr ⟨hmem, by simp [isCidLine, hkind]⟩
    rw [hr.cid] at hin
    exact (mem_singleton.mp hin).symm
  | parentHint =>
    have hin : l.1 ∈ (texts newline text).filter isHintLine :=
      mem_filter.mpr ⟨hmem, by simp [isHintLine, hkind]⟩
    rw [hr.hint] at hin
    exact (mem_singleton.mp hin).symm
  | cid => rfl
  | other => rfl

/-- A second rewrite gives the same text exactly if it does not put a line in after a `CID=`
line. -/
theorem Rewritten.rewriting_iff (hr : Rewritten c h source text) :
    rewriting c h text = text ↔ inserts (texts newline text) = false := by
  constructor
  · intro hsame
    by_contra hins
    have hlt := le_emitted (linesOf newline text) false false hr.replaced_eq
    have hput : (!false && inserts ((linesOf newline text).map Prod.fst)) = true :=
      eq_true_of_ne_false hins
    rw [ofLines_linesOf, if_pos hput] at hlt
    have hlen : (emitted c h false false (linesOf newline text)).length = text.length :=
      congrArg _ hsame
    omega
  · intro hno
    have hcid : 0 < (texts newline text).countP isCidLine := by
      rw [countP_eq_length_filter, hr.cid]
      exact Nat.one_pos
    have hhint : 0 < (texts newline text).countP isHintLine := by
      rw [countP_eq_length_filter, hr.hint]
      exact Nat.one_pos
    exact (emitted_same _ false false hr.replaced_eq (.inr ⟨hno, hcid⟩) (.inr hhint)).trans
      ofLines_linesOf

/-! ## Both together -/

theorem replicate_eq_singleton {x : List UInt8} : replicate n x = [x] ↔ n = 1 := by
  constructor
  · intro heq
    have hlen := congrArg length heq
    rwa [length_replicate] at hlen
  · rintro rfl
    rfl

include hp

/-- A result without anything put behind an unfinished line comes out right exactly if there were
not too many parent lines. -/
theorem ParentLines.rewritten_outLines
    (htexts : texts newline text = outLines c h false false (texts newline source)) :
    Rewritten c h source text ∧ inserts (texts newline text) = false ↔
      inserts (texts newline source) = false ∧ (texts newline source).countP isCidLine ≤ 1 ∧
        (texts newline source).countP isHintLine ≤ 1 := by
  have hins : inserts (texts newline text) = inserts (texts newline source) := by
    rw [htexts, hp.inserts_outLines]
  have hcid := hp.cids_outLines (texts newline source) false false
  have hhint := hp.hints_outLines (texts newline source) false false
  rw [← htexts] at hcid hhint
  rw [hins]
  constructor
  · rintro ⟨hr, hno⟩
    rw [hr.cid, hno] at hcid
    rw [hr.hint] at hhint
    have h1 := replicate_eq_singleton.mp hcid.symm
    have h2 := replicate_eq_singleton.mp hhint.symm
    exact ⟨hno, by omega, by omega⟩
  · rintro ⟨hno, hcids, hhints⟩
    rw [hno] at hcid
    refine ⟨⟨hcid.trans (replicate_eq_singleton.mpr ?_),
      hhint.trans (replicate_eq_singleton.mpr ?_), ?_⟩, hno⟩
    · simp only [Bool.false_eq_true, if_false]
      split <;> omega
    · simp only [Bool.false_eq_true, if_false]
      split <;> omega
    · rw [htexts, hp.others_outLines]

theorem ParentLines.not_rewritten_other (hr : Rewritten c h source text)
    (hsource : texts newline source = lines ++ [last]) (hrest : rest.filter isOther = [])
    (htext : texts newline text = bodyLines c h false lines ++ (replaced c h last ++ put) :: rest)
    (hother : isOther last = true) (hlonger : ∀ x : List UInt8, x ++ put ≠ x) : False := by
  have hothers := hr.others
  rw [hsource, htext, replaced_other hother, filter_append, filter_append, hp.others_body,
    append_cancel_left_eq, filter_cons, hrest, filter_cons, if_pos hother] at hothers
  split at hothers
  · exact hlonger last (cons.inj hothers).1
  · cases hothers

theorem ParentLines.not_rewritten_of_glued (hsource : texts newline source = lines ++ [last])
    (hput : put ≠ []) (hrest : rest.filter isOther = [])
    (htext : texts newline text = bodyLines c h false lines ++ (replaced c h last ++ put) :: rest) :
    ¬ Rewritten c h source text := by
  intro hr
  have hmem : replaced c h last ++ put ∈ texts newline text := by
    rw [htext]
    exact mem_append_right _ (mem_cons_self ..)
  have hlonger : ∀ x : List UInt8, x ++ put ≠ x := fun x heq => hput (append_right_eq_self.mp heq)
  cases hkind : kindOf last with
  | parentCid =>
    have hreplaced : replaced c h last = c := by
      unfold replaced
      rw [hkind]
    have hin : c ++ put ∈ (texts newline text).filter isCidLine := by
      refine mem_filter.mpr ⟨hreplaced ▸ hmem, ?_⟩
      simp [isCidLine, kindOf_append put (.inl hp.cid), hp.cid]
    rw [hr.cid] at hin
    exact hlonger c (mem_singleton.mp hin)
  | parentHint =>
    have hreplaced : replaced c h last = h := by
      unfold replaced
      rw [hkind]
    have hin : h ++ put ∈ (texts newline text).filter isHintLine := by
      refine mem_filter.mpr ⟨hreplaced ▸ hmem, ?_⟩
      simp [isHintLine, kindOf_append put (.inr hp.hint), hp.hint]
    rw [hr.hint] at hin
    exact hlonger h (mem_singleton.mp hin)
  | cid | other =>
    exact hp.not_rewritten_other hr hsource hrest htext (by simp [isOther, hkind]) hlonger

theorem ParentLines.of_mem_missing (hmem : line ∈ missing c h sawC sawH) :
    line ≠ [] ∧ newline ∉ line ∧ isOther line = false := by
  have hcases : line = c ∨ line = h := by
    rcases mem_append.mp hmem with hmem | hmem <;> split at hmem
    · cases hmem
    · exact .inl (mem_singleton.mp hmem)
    · cases hmem
    · exact .inr (mem_singleton.mp hmem)
  rcases hcases with rfl | rfl
  · exact ⟨hp.cid_ne_nil, hp.cidPlain, by simp [isOther, hp.cid]⟩
  · exact ⟨hp.hint_ne_nil, hp.hintPlain, by simp [isOther, hp.hint]⟩

omit hp

/-- The first of the lines put behind an unfinished one is glued to it. -/
theorem linesOf_glued {first : List UInt8} (hfirst : newline ∉ first) (hput : newline ∉ put)
    (hrest : ∀ l ∈ rest, newline ∉ l) :
    linesOf newline (first ++ ofLines newline ((put :: rest).map (·, true))) =
      (first ++ put, true) :: rest.map (·, true) := by
  have hplain : newline ∉ first ++ put := fun hin => (mem_append.mp hin).elim hfirst hput
  have hfin := linesOf_finished hrest []
  rw [append_nil] at hfin
  rw [map_cons, ofLines_cons]
  show linesOf newline (first ++ ((put ++ [newline]) ++ _)) = _
  rw [append_assoc, ← append_assoc, singleton_append, linesOf_line hplain, hfin]
  exact congrArg _ (append_nil _)

include hp in
theorem ParentLines.replaced_ne_nil (hne : last ≠ []) : replaced c h last ≠ [] := by
  intro hnil
  have hkind : kindOf (replaced c h last) = kindOf last := hp.kindOf_replaced
  rw [hnil, kindOf_nil] at hkind
  have hother : isOther last = true := by simp [isOther, ← hkind]
  rw [ParentLines.replaced_other hother] at hnil
  exact hne hnil

theorem missing_eq_nil : missing c h sawC sawH = [] ↔ sawC = true ∧ sawH = true := by
  unfold missing
  cases sawC <;> cases sawH <;> simp

theorem texts_open (hlines : linesOf newline text = lines.map (·, true) ++ [(last, false)]) :
    texts newline text = lines ++ [last] := by
  unfold texts
  rw [hlines, map_append, texts_map_closed]
  rfl

section Open

variable (hp : ParentLines c h) {text last : List UInt8} {lines : List (List UInt8)}
  (hplain : ∀ l ∈ lines, newline ∉ l) (hlast : newline ∉ last)
  (hlines : linesOf newline text = lines.map (·, true) ++ [(last, false)])
include hp hplain hlast hlines

theorem texts_rewriting_open (hne : last ≠ [])
    (hmiss : missing c h (lines.foldl sawCid false || decide (kindOf last = .parentCid))
      (sawHint (lines.foldl sawHint false) last) = []) :
    texts newline (rewriting c h text) = outLines c h false false (texts newline text) := by
  have hrun := hp.rewriting_open hplain hlines
  have hend : linesOf newline (replaced c h last ++ []) = [(replaced c h last, false)] := by
    rw [append_nil]
    exact linesOf_open (not_mem_replaced hp.cidPlain hp.hintPlain hlast) (hp.replaced_ne_nil hne)
  rw [texts_open hlines, outLines_append, outLines_last, hmiss]
  rw [hmiss, map_nil] at hrun
  unfold texts
  rw [hrun, map_append, texts_map_closed]
  exact congrArg (_ ++ map Prod.fst ·) hend

theorem not_rewritten_open {put : List UInt8} {rest : List (List UInt8)}
    (hmiss : missing c h (lines.foldl sawCid false || decide (kindOf last = .parentCid))
      (sawHint (lines.foldl sawHint false) last) = put :: rest) :
      ¬ Rewritten c h text (rewriting c h text) := by
  have hrun := hp.rewriting_open hplain hlines
  have hsafe : ∀ l ∈ put :: rest, l ≠ [] ∧ newline ∉ l ∧ isOther l = false := by
    intro l hl
    rw [← hmiss] at hl
    exact hp.of_mem_missing hl
  obtain ⟨hput, hputPlain, -⟩ := hsafe put (mem_cons_self ..)
  have hrest : ∀ l ∈ rest, newline ∉ l ∧ isOther l = false :=
    fun l hl => (hsafe l (mem_cons_of_mem _ hl)).2
  have hothers : rest.filter isOther = [] :=
    filter_eq_nil_iff.mpr fun l hl => by rw [(hrest l hl).2]; exact Bool.false_ne_true
  refine hp.not_rewritten_of_glued (texts_open hlines) hput hothers ?_
  have hglued := linesOf_glued (not_mem_replaced hp.cidPlain hp.hintPlain hlast) hputPlain
    fun l hl => (hrest l hl).1
  unfold texts
  rw [hrun, hmiss, hglued, map_append, texts_map_closed, map_cons, texts_map_closed]

end Open

include hp in
/-- The rewrite and a second one come out right exactly if the source is `Rewritable`. -/
theorem ParentLines.rewritten_iff (text : List UInt8) :
    Rewritten c h text (rewriting c h text) ∧
    rewriting c h (rewriting c h text) = rewriting c h text ↔
      Rewritable text := by
  have hsecond : Rewritten c h text (rewriting c h text) ∧
        rewriting c h (rewriting c h text) = rewriting c h text ↔
      Rewritten c h text (rewriting c h text) ∧
          inserts (texts newline (rewriting c h text)) = false :=
    and_congr_right fun hr => hr.rewriting_iff
  rw [hsecond]
  obtain ⟨lines, hplain, hlines | ⟨last, hlast, hne, hlines⟩⟩ := linesOf_cases newline text
  · have hclosed : Closed newline text := by
      intro l hl
      rw [hlines] at hl
      obtain ⟨line, -, rfl⟩ := mem_map.mp hl
      rfl
    have hnew : texts newline (rewriting c h text) =
        outLines c h false false (texts newline text) := by
      unfold texts
      rw [hp.rewriting_closed hplain hlines, texts_map_closed, hlines, texts_map_closed]
    rw [hp.rewritten_outLines hnew]
    exact ⟨fun ⟨h1, h2, h3⟩ => ⟨h1, h2, h3, .inl hclosed⟩, fun hr => ⟨hr.order, hr.cids, hr.hints⟩⟩
  · have htext := texts_open hlines
    cases hmiss : missing c h (lines.foldl sawCid false || decide (kindOf last = .parentCid))
        (sawHint (lines.foldl sawHint false) last) with
    | nil =>
      have hflags := missing_eq_nil.mp hmiss
      rw [hp.rewritten_outLines (texts_rewriting_open hp hplain hlast hlines hne hmiss)]
      constructor
      · rintro ⟨hno, hcids, hhints⟩
        have hno' : inserts (lines ++ [last]) = false := htext ▸ hno
        have h1 := (sawCid_iff lines last hno').mp hflags.1
        have h2 := (sawHint_iff lines last).mp hflags.2
        rw [← htext] at h1 h2
        exact ⟨hno, hcids, hhints, .inr ⟨by omega, by omega⟩⟩
      · exact fun hr => ⟨hr.order, hr.cids, hr.hints⟩
    | cons put rest =>
      refine ⟨fun hr => absurd hr.1 (not_rewritten_open hp hplain hlast hlines hmiss), fun hr => ?_⟩
      -- With both parent lines in the source nothing is missing.
      have hopen : ¬ Closed newline text := by
        intro hclosed
        have hmem : (last, false) ∈ linesOf newline text := by
          rw [hlines]
          simp
        exact (nomatch hclosed _ hmem)
      obtain ⟨hcid, hhint⟩ := hr.finished.resolve_left hopen
      have hno := hr.order
      rw [htext] at hno hcid hhint
      have h1 := (sawCid_iff lines last hno).mpr (by omega)
      have h2 := (sawHint_iff lines last).mpr (by omega)
      rw [missing_eq_nil.mpr ⟨h1, h2⟩] at hmiss
      cases hmiss

/-! ## The plan -/

/-- A symbol that neither the parent lines nor the source have is not emitted, unless it ends a
line. -/
theorem not_mem_emitted (hx : x ≠ newline) (hc : x ∉ c) (hh : x ∉ h) (lines : List (Line UInt8))
    (sawC sawH : Bool) (hlines : ∀ l ∈ lines, x ∉ l.1) : x ∉ emitted c h sawC sawH lines := by
  induction lines generalizing sawC sawH with
  | nil =>
    rw [emitted]
    cases sawC <;> cases sawH <;> simp [hc, hh, hx]
  | cons line rest ih =>
    have hreplaced := not_mem_replaced hc hh (hlines line (mem_cons_self ..))
    have hround : x ∉ emittedLine c h sawC line := by
      unfold emittedLine Line.symbols
      cases line.2 <;> split <;> simp [hreplaced, hc, hx]
    intro hmem
    rcases mem_append.mp hmem with hmem | hmem
    · exact hround hmem
    · exact ih _ _ (fun l hl => hlines l (mem_cons_of_mem _ hl)) hmem

theorem le_of_mem_formatU32Hex8 {val : Nat} (hx : x ∈ formatU32Hex8 val) : 48 ≤ x.toNat := by
  obtain ⟨i, -, rfl⟩ := mem_map.mp hx
  have hnibble : val >>> ((7 - i) * 4) &&& 0xf < 16 := by
    rw [Nat.and_two_pow_sub_one_eq_mod _ 4]
    exact Nat.mod_lt _ (by decide)
  dsimp only
  split <;> (rw [UInt8.toNat_ofNat_of_lt' (by rw [UInt8.size]; omega)]; omega)

theorem le_of_all {l : List UInt8} (h : l.all (n ≤ ·.toNat)) : ∀ y ∈ l, n ≤ y.toNat := by
  simpa using h

theorem not_mem_parentCidLine (hx : x.toNat < 48) (cid : Nat) : x ∉ parentCidLine cid := by
  intro hmem
  rcases mem_append.mp hmem with hmem | hmem
  · exact absurd (le_of_all (show parentCidKey.all (48 ≤ ·.toNat) from rfl) x hmem) (by omega)
  · exact absurd (le_of_mem_formatU32Hex8 hmem) (by omega)

theorem not_mem_parentHintLine (hx : x.toNat < 34) (hpath : x ∉ path) :
    x ∉ parentHintLine path detach := by
  intro hmem
  have hkey := le_of_all (show (parentHintKey ++ [quote]).all (34 ≤ ·.toNat) from rfl)
  rcases mem_append.mp hmem with hmem | hmem
  · rcases mem_append.mp hmem with hmem | hmem
    · exact absurd (hkey x hmem) (by omega)
    · cases detach with
      | true => cases hmem
      | false => exact hpath hmem
  · exact absurd (hkey x (mem_append_right _ hmem)) (by omega)

/-- The lines a rebase puts in are parent lines, if the path does not end a line. -/
theorem parentLines (hpath : newline ∉ path) (cid : Nat) (detach : Bool) :
    ParentLines (parentCidLine cid) (parentHintLine path detach) where
  cid := kindOf_parentCid.mpr (prefix_append ..)
  hint := by
    apply kindOf_parentHint.mpr
    exact prefix_append ..
  cidPlain := not_mem_parentCidLine (by decide) cid
  hintPlain := not_mem_parentHintLine (by decide) hpath

theorem not_mem_trimNul : (0 : UInt8) ∉ trimNul source := by
  intro hmem
  have := mem_takeWhile_imp hmem
  simp at this

/-- A text without NUL is what is read back of it from a slot padded with zeroes. -/
theorem trimNul_padded (htext : (0 : UInt8) ∉ text) (n : Nat) :
    trimNul (text ++ replicate n 0) = text := by
  unfold trimNul
  rw [takeWhile_append_of_pos fun x hx => by
    simpa using fun h0 : x = 0 => htext (h0 ▸ hx)]
  cases n with
  | zero => exact append_nil _
  | succ n => simp [replicate_succ]

/-- The bytes a plan puts in the descriptor's slot. -/
def VmdkRebaseOutput.descriptor (out : VmdkRebaseOutput) : List UInt8 :=
  out.plan.patches.flatMap (·.bytes)

section

variable (opts : VmdkRebaseOpts)

/-- The parent CID line of a rebase. -/
def VmdkRebaseOpts.cidLine : List UInt8 :=
  parentCidLine (if opts.detach then 0xffffffff else opts.newParentCid)

/-- The parent file name line of a rebase. -/
def VmdkRebaseOpts.hintLine : List UInt8 := parentHintLine opts.newBackingPath opts.detach

/-- The text a rebase makes of the descriptor. -/
def VmdkRebaseOpts.newText : List UInt8 :=
  rewriting opts.cidLine opts.hintLine (trimNul opts.overlayDescriptor)

/-- The bytes of the slot: the text and zeroes. -/
def VmdkRebaseOpts.newSlot : List UInt8 :=
  opts.newText ++ replicate (opts.overlayDescriptorSize - opts.newText.length) 0

end

section Plan

variable {opts : VmdkRebaseOpts} {scratch : Nat} {out : VmdkRebaseOutput} {plan : RebasePlan}

theorem rewriteDescriptor_opts (cap : Nat) :
    rewriteDescriptor opts.overlayDescriptor opts.newBackingPath opts.newParentCid opts.detach cap =
      copyLine cap [] opts.newText :=
  rewriteLines_eq _ (Nat.zero_le _)

/-- The plan for the descriptor is there as soon as the text and the slot fit. -/
theorem descriptorPlan_eq (hfits : opts.newText.length ≤ opts.overlayDescriptorSize)
    (hwide : opts.overlayDescriptorOffset + opts.overlayDescriptorSize < 2 ^ 64)
    (hfile : opts.overlayDescriptorOffset + opts.overlayDescriptorSize ≤ opts.overlayFileSize) :
    descriptorPlan opts = .ok ⟨opts.overlayFileSize,
      [⟨opts.overlayDescriptorOffset, opts.newSlot⟩]⟩ := by
  have hrewrite : rewriteDescriptor opts.overlayDescriptor opts.newBackingPath
      opts.newParentCid opts.detach opts.overlayDescriptorSize = .ok opts.newText := by
    rw [rewriteDescriptor_opts]
    exact if_neg (by simpa using hfits)
  have hlen : opts.newSlot.length = opts.overlayDescriptorSize := by
    rw [newSlot, length_append, length_replicate]
    omega
  unfold descriptorPlan
  dsimp only
  rw [hrewrite]
  show RebasePlan.push ⟨opts.overlayFileSize, []⟩ ⟨opts.overlayDescriptorOffset, opts.newSlot⟩ = _
  unfold RebasePlan.push
  rw [failIf_of_not (by exact Nat.not_succ_le_zero 15), failIf_of_not (by dsimp only; omega),
    failIf_of_not (by dsimp only; omega)]
  rfl

theorem fits_of_descriptorPlan (h : descriptorPlan opts = .ok plan) :
    opts.newText.length ≤ opts.overlayDescriptorSize := by
  obtain ⟨dest, hdest, -⟩ := ok_of_bind h
  rw [rewriteDescriptor_opts, copyLine] at hdest
  split at hdest
  · cases hdest
  next hfits =>
    rw [length_nil, Nat.zero_add] at hfits
    exact not_lt.mp hfits

theorem descriptorPlan_of_plan (h : planRebaseVmdk opts scratch = .ok out) :
    descriptorPlan opts = .ok out.plan ∧
    opts.overlayDescriptorOffset + opts.overlayDescriptorSize < 2 ^ 64 ∧
      opts.overlayDescriptorOffset + opts.overlayDescriptorSize ≤ opts.overlayFileSize := by
  simp only [planRebaseVmdk, bind_eq_ok, failIf_eq_ok, exists_const] at h
  obtain ⟨-, -, -, hwide, hfile, h⟩ := h
  refine ⟨?_, by omega, by omega⟩
  split at h
  · simp only [planVmdkUnsafe, bind_eq_ok, failIf_eq_ok, exists_const] at h
    obtain ⟨-, plan, hplan, hout⟩ := h
    cases hout
    exact hplan
  · simp only [planVmdkSafe, bind_eq_ok, failIf_eq_ok, exists_const] at h
    obtain ⟨-, -, -, -, -, -, -, plan, hplan, hout⟩ := h
    cases hout
    exact hplan

/-- What else the planner looks at does not depend on the text of the descriptor. -/
theorem plan_of_descriptorPlan {descriptor : List UInt8} (h : planRebaseVmdk opts scratch = .ok out)
    (hplan : descriptorPlan { opts with overlayDescriptor := descriptor } = .ok plan) :
    ∃ out', planRebaseVmdk { opts with overlayDescriptor := descriptor } scratch = .ok out' ∧
      out'.plan = plan := by
  simp only [planRebaseVmdk, bind_eq_ok, failIf_eq_ok, exists_const] at h ⊢
  obtain ⟨h1, h2, h3, h4, h5, h⟩ := h
  simp only [h1, h2, h3, h4, h5, not_false_eq_true, true_and]
  split at h
  · simp only [planVmdkUnsafe, bind_eq_ok, failIf_eq_ok, exists_const] at h ⊢
    exact ⟨_, ⟨h.1, plan, hplan, rfl⟩, rfl⟩
  · simp only [planVmdkSafe, bind_eq_ok, failIf_eq_ok, exists_const] at h ⊢
    obtain ⟨h1, h2, h3, h4, h5, h6, h7, -⟩ := h
    exact ⟨_, ⟨h1, h2, h3, h4, h5, h6, h7, plan, hplan, rfl⟩, rfl⟩

theorem descriptor_of_plan (h : planRebaseVmdk opts scratch = .ok out) :
    out.descriptor = opts.newSlot := by
  obtain ⟨hplan, hwide, hfile⟩ := descriptorPlan_of_plan h
  rw [descriptorPlan_eq (fits_of_descriptorPlan hplan) hwide hfile] at hplan
  unfold VmdkRebaseOutput.descriptor
  rw [← Except.ok.inj hplan]
  exact append_nil _

theorem trimNul_newSlot (hpath : (0 : UInt8) ∉ opts.newBackingPath) :
    trimNul opts.newSlot = opts.newText := by
  apply trimNul_padded
  refine not_mem_emitted (by decide) (not_mem_parentCidLine (by decide) _)
    (not_mem_parentHintLine (by decide) hpath) _ _ _ fun l hl hmem => ?_
  exact not_mem_trimNul (mem_of_mem_linesOf hl hmem)

/-- A second rebase from the slot of the first. -/
theorem second_plan (hpath : (0 : UInt8) ∉ opts.newBackingPath)
    (h : planRebaseVmdk opts scratch = .ok out) :
    (∃ out', planRebaseVmdk { opts with overlayDescriptor := out.descriptor } scratch = .ok out' ∧
        out'.descriptor = out.descriptor) ↔
      rewriting opts.cidLine opts.hintLine opts.newText = opts.newText := by
  obtain ⟨hplan, hwide, hfile⟩ := descriptorPlan_of_plan h
  have hfits := fits_of_descriptorPlan hplan
  rw [descriptor_of_plan h]
  have htext : ({ opts with overlayDescriptor := opts.newSlot } : VmdkRebaseOpts).newText =
      rewriting opts.cidLine opts.hintLine opts.newText := by
    show rewriting opts.cidLine opts.hintLine (trimNul opts.newSlot) = _
    rw [trimNul_newSlot hpath]
  constructor
  · intro hsecond
    obtain ⟨out', hout', hsame⟩ := hsecond
    rw [descriptor_of_plan hout'] at hsame
    have hboth := congrArg trimNul hsame
    have hpath' : (0 : UInt8) ∉ ({ opts with overlayDescriptor :=
        opts.newSlot } : VmdkRebaseOpts).newBackingPath :=
      hpath
    rw [trimNul_newSlot hpath', trimNul_newSlot hpath, htext] at hboth
    exact hboth
  · intro hsame
    rw [hsame] at htext
    have hslot : ({ opts with overlayDescriptor := opts.newSlot } : VmdkRebaseOpts).newSlot =
        opts.newSlot := by
      unfold newSlot at htext ⊢
      rw [htext]
    have hfits' : ({ opts with overlayDescriptor :=
        opts.newSlot } : VmdkRebaseOpts).newText.length ≤
        opts.overlayDescriptorSize := htext ▸ hfits
    obtain ⟨out', hout', -⟩ := plan_of_descriptorPlan h (descriptorPlan_eq hfits' hwide hfile)
    exact ⟨out', hout', (descriptor_of_plan hout').trans hslot⟩

/-- A rebase leaves one line of each kind and the other lines alone, and a second one changes
nothing, exactly if the descriptor has each parent line at most once, the parent CID line before
every `CID=` line, and ends in a newline or has both parent lines. -/
theorem planRebaseVmdk_rewrites_iff (hnewline : newline ∉ opts.newBackingPath)
    (hnul : (0 : UInt8) ∉ opts.newBackingPath) (h : planRebaseVmdk opts scratch = .ok out) :
    (Rewritten opts.cidLine opts.hintLine (trimNul opts.overlayDescriptor)
      (trimNul out.descriptor) ∧
        ∃ out', planRebaseVmdk { opts with overlayDescriptor :=
          out.descriptor } scratch = .ok out' ∧ out'.descriptor = out.descriptor) ↔
      Rewritable (trimNul opts.overlayDescriptor) := by
  rw [second_plan hnul h, descriptor_of_plan h, trimNul_newSlot hnul]
  exact (parentLines hnewline _ _).rewritten_iff _

end Plan

/-- A rebase of a descriptor, without safe mode's tables. -/
def rebaseOf (descriptor path : List UInt8) (cid : Nat) : VmdkRebaseOpts where
  mode := .unsafeMode
  overlayVirtualSize := 65536
  overlayDescriptor := descriptor
  overlayDescriptorSize := 512
  overlayDescriptorOffset := 512
  newBackingVirtualSize := 65536
  newBackingPath := path
  newParentCid := cid
  detach := false
  overlayGrainSizeSectors := 0
  numGtesPerGt := 0
  numGdEntries := 0
  gdOffsetSectors := 0
  overlayFileSize := 65536
  overlayGrainDirectory := []
  overlayGrainTables := []
  allocatedGtHostSectors := []
  allocatedGtCount := 0

theorem rebaseOf_plan (descriptor path : List UInt8) (cid : Nat) (hpath : path.length ≤ 512)
    (hfits : (rebaseOf descriptor path cid).newText.length ≤ 512) :
    ∃ out, planRebaseVmdk (rebaseOf descriptor path cid) 512 = .ok out := by
  generalize hopts : rebaseOf descriptor path cid = opts at hfits ⊢
  have hoffset : opts.overlayDescriptorOffset = 512 := by rw [← hopts]; rfl
  have hsize : opts.overlayDescriptorSize = 512 := by rw [← hopts]; rfl
  have hfile : opts.overlayFileSize = 65536 := by rw [← hopts]; rfl
  have hbacking : opts.newBackingVirtualSize = opts.overlayVirtualSize := by rw [← hopts]; rfl
  have hpath' : opts.newBackingPath.length ≤ 512 := by rw [← hopts]; exact hpath
  have hlong : ¬ maxDescriptorRewriteLen < opts.newBackingPath.length := by
    unfold maxDescriptorRewriteLen
    omega
  have hattach : ¬ (opts.detach = true ∧ opts.newBackingPath ≠ []) := by
    rw [← hopts]
    exact fun h => nomatch h.1
  have hmode : opts.mode = .unsafeMode := by rw [← hopts]; rfl
  have hplan := descriptorPlan_eq (show opts.newText.length ≤ _ by omega) (by omega) (by omega)
  refine ⟨.unsafeMode ⟨opts.overlayFileSize, [⟨opts.overlayDescriptorOffset, opts.newSlot⟩]⟩, ?_⟩
  rw [planRebaseVmdk, failIf_of_not hattach, failIf_of_not hlong, failIf_of_not (by omega),
    failIf_of_not (by omega), failIf_of_not (by omega), hmode]
  show planVmdkUnsafe opts 512 = _
  rw [planVmdkUnsafe, failIf_of_not (by omega), hplan]
  rfl

/-- The parent CID line stands before the `CID=` line. -/
theorem planRebaseVmdk_rewrites_parent_first :
    ∃ out, planRebaseVmdk (rebaseOf (ascii "parentCID=11111111\nCID=22222222\nRW 128\n")
      (ascii "b") 7) 512 =
        .ok out ∧
      Rewritten (parentCidLine 7) (parentHintLine (ascii "b") false)
        (ascii "parentCID=11111111\nCID=22222222\nRW 128\n") (trimNul out.descriptor) := by
  obtain ⟨out, hout⟩ := rebaseOf_plan (ascii "parentCID=11111111\nCID=22222222\nRW 128\n")
    (ascii "b") 7 (by decide) (by decide +kernel)
  have hiff := planRebaseVmdk_rewrites_iff (by decide) (by decide) hout
  have hrewritable : Rewritable (ascii "parentCID=11111111\nCID=22222222\nRW 128\n") :=
    ⟨by decide +kernel, by decide +kernel, by decide +kernel, .inl (by decide +kernel)⟩
  have hgood := (hiff.mpr (by
    show Rewritable (trimNul (ascii _))
    exact hrewritable)).1
  change Rewritten _ _ (trimNul (ascii _)) _ at hgood
  exact ⟨out, hout, hgood⟩

/-- In the order a descriptor is written in, the `CID=` line first, the parent CID line is put in
after it and the old one replaced too: there are two. -/
theorem planRebaseVmdk_two_parentCID : ∃ out, planRebaseVmdk (rebaseOf
        (ascii "CID=22222222\nparentCID=11111111\nparentFileNameHint=\"a\"\nRW 128\n")
        (ascii "b") 7) 512 = .ok out ∧
      (texts newline (trimNul out.descriptor)).filter isCidLine = [parentCidLine 7,
          parentCidLine 7] := by
  obtain ⟨out, hout⟩ := rebaseOf_plan
    (ascii "CID=22222222\nparentCID=11111111\nparentFileNameHint=\"a\"\nRW 128\n")
    (ascii "b") 7 (by decide) (by decide +kernel)
  refine ⟨out, hout, ?_⟩
  rw [descriptor_of_plan hout]
  decide +kernel

end Instar.Rebase
