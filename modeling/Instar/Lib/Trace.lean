import Mathlib.Data.List.Basic

/-!
# Order in traces

A trace is a list of events in the order they happened.  `Guarded P Q` says that what comes before
an event with `P` satisfies `Q`, and `Awaits P Q` that what comes after one does.  Both are kept up
one event at a time.
-/

namespace Instar.Trace

variable {α : Type} {P : α → Prop} {l : List α} {t : α}

/-- An event of an extended trace is the new one or an old one. -/
theorem snoc_split {pre post : List α} {a : α} (h : l ++ [t] = pre ++ a :: post) :
    (post = [] ∧ a = t ∧ pre = l) ∨ ∃ post', post = post' ++ [t] ∧ l = pre ++ a :: post' := by
  rcases List.eq_nil_or_concat post with rfl | ⟨post', b, rfl⟩
  · have h' : l ++ [t] = pre ++ [a] := h
    obtain ⟨rfl, hlast⟩ := List.append_inj' h' rfl
    cases hlast
    exact .inl ⟨rfl, rfl, rfl⟩
  · have h' : l ++ [t] = (pre ++ a :: post') ++ [b] := by simpa using h
    obtain ⟨rfl, hlast⟩ := List.append_inj' h' rfl
    cases hlast
    exact .inr ⟨post', by simp, rfl⟩

/-- Before every event with `P`, the trace so far satisfies `Q`. -/
def Guarded (P : α → Prop) (Q : List α → α → Prop) (l : List α) : Prop :=
  ∀ pre a post, l = pre ++ a :: post → P a → Q pre a

theorem Guarded.nil (P : α → Prop) (Q : List α → α → Prop) : Guarded P Q [] := by
  intro pre a post h
  simp at h

theorem Guarded.snoc {Q : List α → α → Prop} (h : Guarded P Q l) (ht : P t → Q l t) :
    Guarded P Q (l ++ [t]) := by
  intro pre a post heq ha
  rcases snoc_split heq with ⟨-, rfl, rfl⟩ | ⟨post', -, rfl⟩
  · exact ht ha
  · exact h pre a post' rfl ha

/-- After every event with `P`, the trace so far satisfies `Q`. -/
def Awaits (P : α → Prop) (Q : α → List α → Prop) (l : List α) : Prop :=
  ∀ pre a post, l = pre ++ a :: post → P a → Q a post

theorem Awaits.nil (P : α → Prop) (Q : α → List α → Prop) : Awaits P Q [] := by
  intro pre a post h
  simp at h

theorem Awaits.snoc {Q Q' : α → List α → Prop} (h : Awaits P Q l)
    (hold : ∀ a post, P a → Q a post → Q' a (post ++ [t])) (hnew : P t → Q' t []) :
    Awaits P Q' (l ++ [t]) := by
  intro pre a post heq ha
  rcases snoc_split heq with ⟨rfl, rfl, -⟩ | ⟨post', rfl, rfl⟩
  · exact hnew ha
  · exact hold a post' ha (h pre a post' rfl ha)

theorem Awaits.mono {Q Q' : α → List α → Prop} (h : Awaits P Q l)
    (himp : ∀ pre a post, l = pre ++ a :: post → P a → Q a post → Q' a post) : Awaits P Q' l :=
  fun pre a post heq ha => himp pre a post heq ha (h pre a post heq ha)

end Instar.Trace
