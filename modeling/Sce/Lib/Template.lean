/-
# Templates: what part of an output is fixed

A template is a list in which some elements are given and the others are left open.  Two lists
that match one template have its length and agree wherever it gives the element; so a template
that depends on public data alone shows that everything else about the output is hidden in its
blanks.

Section 1 builds matches the way the output is put together.  Section 2 goes the other way: a
blank of a composite lies in one of its parts, at an offset that depends on their lengths only.
-/
import Mathlib.Data.List.Forall2

namespace Template

variable {α : Type}

/-! ## 1. Matching -/

/-- An element the template gives, or anything where it gives none. -/
def Fits (o : Option α) (a : α) : Prop := ∀ b ∈ o, a = b

/-- **The list matches the template**, element by element. -/
def Matches (t : List (Option α)) (x : List α) : Prop := List.Forall₂ Fits t x

/-- The template that gives everything. -/
def clear (x : List α) : List (Option α) := x.map some

/-- The template of `n` elements that gives none. -/
def blank (n : Nat) : List (Option α) := List.replicate n none

@[simp] theorem clear_length (x : List α) : (clear x).length = x.length := List.length_map some

@[simp] theorem blank_length (n : Nat) : (blank n : List (Option α)).length = n :=
  List.length_replicate

theorem matches_clear_iff {c x : List α} : Matches (clear c) x ↔ x = c := by
  rw [Matches, clear, List.forall₂_map_left_iff]
  constructor
  · intro h
    induction h with
    | nil => rfl
    | cons hfits _ ih => rw [ih, hfits _ rfl]
  · rintro rfl
    refine List.forall₂_same.mpr fun a _ b hb => ?_
    exact Option.some.inj hb

theorem matches_clear (c : List α) : Matches (clear c) c := matches_clear_iff.mpr rfl

theorem matches_blank {x : List α} {n : Nat} (h : x.length = n) : Matches (blank n) x := by
  subst h
  induction x with
  | nil => exact .nil
  | cons a x ih => exact .cons (fun b hb => absurd hb (by simp)) ih

namespace Matches

variable {t u : List (Option α)} {x y : List α}

theorem length_eq (h : Matches t x) : x.length = t.length := (List.Forall₂.length_eq h).symm

theorem append (h : Matches t x) (h' : Matches u y) : Matches (t ++ u) (x ++ y) :=
  List.rel_append h h'

theorem flatten {ts : List (List (Option α))} {xs : List (List α)}
    (h : List.Forall₂ Matches ts xs) : Matches ts.flatten xs.flatten := List.rel_flatten h

/-- A match of a composite splits where the template does. -/
theorem split (h : Matches (t ++ u) x) : ∃ y z, x = y ++ z ∧ Matches t y ∧ Matches u z := by
  induction t generalizing x with
  | nil => exact ⟨[], x, rfl, .nil, h⟩
  | cons o t ih =>
    cases h with
    | cons hfits hrest =>
      obtain ⟨y, z, rfl, hy, hz⟩ := ih hrest
      exact ⟨_ :: y, z, rfl, .cons hfits hy, hz⟩

/-- **A part the template gives can be read off at its offset.** -/
theorem read {c : List α} (h : Matches (t ++ (clear c ++ u)) x) :
    ∃ y z, x = y ++ (c ++ z) ∧ y.length = t.length := by
  obtain ⟨y, rest, rfl, hy, hrest⟩ := h.split
  obtain ⟨c', z, rfl, hc, -⟩ := hrest.split
  obtain rfl := matches_clear_iff.mp hc
  exact ⟨y, z, rfl, hy.length_eq⟩

/-- **Two matches of one template agree outside its blanks.** -/
theorem agree (h : Matches t x) (h' : Matches t y) {p : Nat} (hp : t[p]? ≠ some none) :
    x[p]? = y[p]? := by
  induction h generalizing y p with
  | nil =>
    cases h' with
    | nil => rfl
  | @cons o a t x hfits _ ih =>
    cases h' with
    | @cons _ b _ y hfits' hrest =>
      cases p with
      | zero =>
        cases o with
        | none => exact absurd rfl hp
        | some c => simp only [List.getElem?_cons_zero, hfits c rfl, hfits' c rfl]
      | succ p => exact ih hrest hp

end Matches

/-! ## 2. Where the blanks are -/

theorem clear_ne_blank {c : List α} {p : Nat} : (clear c)[p]? ≠ some none := by
  simp [clear]

theorem lt_of_blank {n p : Nat} (h : (blank n : List (Option α))[p]? = some none) : p < n := by
  obtain ⟨hlt, -⟩ := List.getElem?_eq_some_iff.mp h
  rwa [blank_length] at hlt

/-- A position of a composite lies in its first part or in its second. -/
theorem append_cases {t u : List (Option α)} {p : Nat} {o : Option α}
    (h : (t ++ u)[p]? = some o) :
    t[p]? = some o ∨ ∃ q, p = t.length + q ∧ u[q]? = some o := by
  by_cases hp : p < t.length
  · rw [List.getElem?_append_left hp] at h
    exact .inl h
  · rw [List.getElem?_append_right (Nat.not_lt.mp hp)] at h
    exact .inr ⟨p - t.length, by omega, h⟩

/-- **A position of a concatenation lies in one of its parts.** -/
theorem flatten_cases {ts : List (List (Option α))} {p : Nat} {o : Option α}
    (h : ts.flatten[p]? = some o) :
    ∃ j t q, ts[j]? = some t ∧ t[q]? = some o ∧ p = (ts.take j).flatten.length + q := by
  induction ts generalizing p with
  | nil => exact absurd h (by simp)
  | cons t ts ih =>
    rw [List.flatten_cons] at h
    rcases append_cases h with hhead | ⟨q, rfl, htail⟩
    · exact ⟨0, t, p, rfl, hhead, by simp⟩
    · obtain ⟨j, t', q', hj, hq, rfl⟩ := ih htail
      refine ⟨j + 1, t', q', hj, hq, ?_⟩
      rw [List.take_succ_cons, List.flatten_cons, List.length_append, Nat.add_assoc]

/-- Parts of one length each stand at multiples of it. -/
theorem length_flatten_take {ts : List (List (Option α))} {m i : Nat}
    (h : ∀ j < i, ∃ t, ts[j]? = some t ∧ t.length = m) :
    (ts.take i).flatten.length = i * m := by
  induction i with
  | zero => simp
  | succ i ih =>
    obtain ⟨t, ht, rfl⟩ := h i (Nat.lt_succ_self i)
    rw [List.take_add_one, ht, List.flatten_append, List.length_append,
      ih fun j hj => h j (Nat.lt_succ_of_lt hj), Nat.succ_mul]
    simp

end Template
