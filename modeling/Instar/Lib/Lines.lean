import Mathlib.Data.List.Basic

/-!
# Lines of a text

A text is a list of symbols, one of which ends a line.  `linesOf` is the text line by line, each
with whether its end is there: only the last line of a text can lack it, and then it is not empty.
The text is its lines one after the other (`ofLines_linesOf`), and a text whose lines all end can be
read apart from what follows it (`linesOf_append`).
-/

namespace Instar.Text

variable {α : Type}

/-- A line, and whether its end is there. -/
abbrev Line (α : Type) := List α × Bool

/-- The symbols of a line; `nl` ends it. -/
def Line.symbols (nl : α) (line : Line α) : List α := line.1 ++ if line.2 then [nl] else []

/-- The text of a list of lines. -/
def ofLines (nl : α) (lines : List (Line α)) : List α := lines.flatMap (Line.symbols nl)

variable {nl : α} {text line : List α} {lines : List (Line α)}

theorem ofLines_cons (l : Line α) : ofLines nl (l :: lines) = l.symbols nl ++ ofLines nl lines :=
  rfl

theorem ofLines_append (lines' : List (Line α)) :
    ofLines nl (lines ++ lines') = ofLines nl lines ++ ofLines nl lines' := List.flatMap_append

variable [DecidableEq α]

/-- The lines of a text. -/
def linesOf (nl : α) : List α → List (Line α)
  | [] => []
  | x :: text =>
    if x = nl then ([], true) :: linesOf nl text
    else
      match linesOf nl text with
      | [] => [([x], false)]
      | (line, closed) :: rest => (x :: line, closed) :: rest

/-- A text is its lines. -/
theorem ofLines_linesOf : ofLines nl (linesOf nl text) = text := by
  induction text with
  | nil => rfl
  | cons x text ih =>
    rw [linesOf]
    split
    next hx =>
      rw [ofLines_cons, ih, hx]
      rfl
    · split
      next hnil =>
        rw [hnil] at ih
        rw [← ih]
        rfl
      next line closed rest hcons =>
        rw [hcons, ofLines_cons] at ih
        rw [ofLines_cons, ← ih]
        rfl

/-- A line that ends, and the text after it. -/
theorem linesOf_line (h : nl ∉ line) :
    linesOf nl (line ++ nl :: text) = (line, true) :: linesOf nl text := by
  induction line with
  | nil => exact if_pos rfl
  | cons x line ih =>
    have hx : x ≠ nl := fun hx => h (hx ▸ List.mem_cons_self ..)
    rw [List.cons_append, linesOf, if_neg hx, ih fun hmem => h (List.mem_cons_of_mem _ hmem)]

/-- A last line without its end. -/
theorem linesOf_open (h : nl ∉ line) (hne : line ≠ []) : linesOf nl line = [(line, false)] := by
  induction line with
  | nil => exact absurd rfl hne
  | cons x line ih =>
    have hx : x ≠ nl := fun hx => h (hx ▸ List.mem_cons_self ..)
    rw [linesOf, if_neg hx]
    by_cases hnil : line = []
    · rw [hnil]
      rfl
    · rw [ih (fun hmem => h (List.mem_cons_of_mem _ hmem)) hnil]

theorem mem_of_mem_linesOf {l : Line α} {x : α} (hl : l ∈ linesOf nl text) (hx : x ∈ l.1) :
    x ∈ text := by
  have htext : ofLines nl (linesOf nl text) = text := ofLines_linesOf
  rw [← htext]
  exact List.mem_flatMap.mpr ⟨l, hl, List.mem_append_left _ hx⟩

/-- A text of lines that all end, followed by another text. -/
theorem linesOf_append (h : ∀ l ∈ lines, nl ∉ l.1 ∧ l.2 = true) :
    linesOf nl (ofLines nl lines ++ text) = lines ++ linesOf nl text := by
  induction lines with
  | nil => rfl
  | cons l lines ih =>
    obtain ⟨line, closed⟩ := l
    obtain ⟨hline, hclosed⟩ := h (line, closed) (List.mem_cons_self ..)
    have hclosed' : closed = true := hclosed
    subst hclosed'
    rw [ofLines_cons, List.append_assoc]
    show linesOf nl ((line ++ [nl]) ++ (ofLines nl lines ++ text)) = _
    rw [List.append_assoc, List.singleton_append, linesOf_line hline,
      ih fun l hl => h l (List.mem_cons_of_mem _ hl)]
    rfl

/-- The lines of a text hold no end, all but the last one end, and one that does not is not
empty. -/
theorem linesOf_cases (nl : α) (text : List α) : ∃ closed : List (List α), (∀ l ∈ closed, nl ∉ l) ∧
      (linesOf nl text = closed.map (·, true) ∨
        ∃ line, nl ∉ line ∧ line ≠ [] ∧ linesOf nl text = closed.map (·,
          true) ++ [(line, false)]) := by
  induction text with
  | nil => exact ⟨[], fun _ h => (nomatch h), .inl rfl⟩
  | cons x text ih =>
    obtain ⟨closed, hplain, hcases⟩ := ih
    rw [linesOf]
    by_cases hx : x = nl
    · rw [if_pos hx]
      refine ⟨[] :: closed, List.forall_mem_cons.mpr ⟨List.not_mem_nil, hplain⟩, ?_⟩
      rcases hcases with hlines | ⟨line, hline, hne, hlines⟩
      · exact .inl (by rw [hlines]; rfl)
      · exact .inr ⟨line, hline, hne, by rw [hlines]; rfl⟩
    · rw [if_neg hx]
      have hcons : ∀ line, nl ∉ line → nl ∉ x :: line := fun line hline hmem =>
        (List.mem_cons.mp hmem).elim (fun h => hx h.symm) hline
      cases closed with
      | nil =>
        refine ⟨[], hplain, .inr ?_⟩
        rcases hcases with hlines | ⟨line, hline, -, hlines⟩
        · exact ⟨[x], hcons [] List.not_mem_nil, List.cons_ne_nil _ _, by rw [hlines]; rfl⟩
        · exact ⟨x :: line, hcons line hline, List.cons_ne_nil _ _, by rw [hlines]; rfl⟩
      | cons first closed =>
        obtain ⟨hfirst, hrest⟩ := List.forall_mem_cons.mp hplain
        refine ⟨(x :: first) :: closed, List.forall_mem_cons.mpr ⟨hcons first hfirst, hrest⟩, ?_⟩
        rcases hcases with hlines | ⟨line, hline, hne, hlines⟩
        · exact .inl (by rw [hlines]; rfl)
        · exact .inr ⟨line, hline, hne, by rw [hlines]; rfl⟩

/-- The texts of the lines. -/
def texts (nl : α) (text : List α) : List (List α) := (linesOf nl text).map (·.1)

/-- Every line of the text ends. -/
def Closed (nl : α) (text : List α) : Prop := ∀ l ∈ linesOf nl text, l.2 = true

instance (text : List α) : Decidable (Closed nl text) := inferInstanceAs (Decidable (∀ _ ∈ _, _))

end Instar.Text
