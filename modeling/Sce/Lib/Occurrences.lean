/-
# Counting a pattern in a text

How often a pattern occurs in a list, found from the left and without overlaps.

* `countFrom_append_cons`: an element that the pattern does not have separates what is counted, so
  a text can be counted piece by piece.
* `countFrom_pattern`, `countFrom_eq_zero`: the pattern counts as one, and what lacks one of its
  elements as nothing.
-/
import Mathlib.Data.List.Infix
import Mathlib.Tactic.Common

namespace Occurrences

variable {α : Type} [DecidableEq α]

/-- How often `sub` occurs after `skip` more elements. -/
def countFrom (sub : List α) : (skip : Nat) → List α → Nat
  | _, [] => 0
  | skip + 1, _ :: s => countFrom sub skip s
  | 0, c :: s =>
    if sub.isPrefixOf (c :: s) then countFrom sub (sub.length - 1) s + 1 else countFrom sub 0 s

variable {sub : List α}

theorem isPrefixOf_append_cons_iff {a b : List α} {c : α} (hc : c ∉ sub) :
    sub.isPrefixOf (a ++ c :: b) = sub.isPrefixOf a := by
  rw [Bool.eq_iff_iff, List.isPrefixOf_iff_prefix, List.isPrefixOf_iff_prefix]
  constructor
  · intro h
    rcases List.prefix_or_prefix_of_prefix h (List.prefix_append a (c :: b)) with ha | ha
    · exact ha
    · -- a longer pattern would reach the separator
      obtain ⟨rest, rfl⟩ := ha
      rw [List.prefix_append_right_inj] at h
      cases rest with
      | nil => simp
      | cons d rest =>
        obtain ⟨rfl, -⟩ := List.cons_prefix_cons.mp h
        exact absurd (List.mem_append_right a List.mem_cons_self) hc
  · exact fun h => h.trans (List.prefix_append a (c :: b))

/-- **An element that the pattern does not have separates what is counted.** -/
theorem countFrom_append_cons (hne : sub ≠ []) {c : α} (hc : c ∉ sub) (b : List α) :
    ∀ {a : List α} {skip : Nat}, skip ≤ a.length →
      countFrom sub skip (a ++ c :: b) = countFrom sub skip a + countFrom sub 0 b := by
  intro a
  induction a with
  | nil =>
    intro skip hskip
    obtain rfl : skip = 0 := Nat.le_zero.mp hskip
    obtain ⟨d, sub', rfl⟩ := List.exists_cons_of_ne_nil hne
    have hhead : ¬ (d :: sub').isPrefixOf (c :: b) := by
      rw [List.isPrefixOf_iff_prefix, List.cons_prefix_cons]
      rintro ⟨rfl, -⟩
      exact hc List.mem_cons_self
    have hnil : countFrom (d :: sub') 0 [] = 0 := rfl
    rw [List.nil_append, hnil, Nat.zero_add, countFrom, if_neg hhead]
  | cons d a ih =>
    intro skip hskip
    cases skip with
    | succ skip => exact ih (Nat.le_of_succ_le_succ hskip)
    | zero =>
      have hsame := isPrefixOf_append_cons_iff (a := d :: a) (b := b) hc
      rw [List.cons_append] at hsame ⊢
      by_cases hstart : sub.isPrefixOf (d :: a)
      · have hlength := (List.isPrefixOf_iff_prefix.mp hstart).length_le
        rw [List.length_cons] at hlength
        rw [countFrom, countFrom, if_pos hstart, if_pos (hsame.trans hstart), ih (by omega)]
        omega
      · rw [countFrom, countFrom, if_neg hstart, if_neg (hsame ▸ hstart), ih (Nat.zero_le _)]

/-- The pattern itself counts as one. -/
theorem countFrom_pattern (hne : sub ≠ []) (b : List α) :
    countFrom sub 0 (sub ++ b) = 1 + countFrom sub 0 b := by
  have hskip : ∀ a : List α, countFrom sub a.length (a ++ b) = countFrom sub 0 b := by
    intro a
    induction a with
    | nil => rfl
    | cons d a ih => exact ih
  have hstart : sub.isPrefixOf (sub ++ b) := List.isPrefixOf_iff_prefix.mpr (List.prefix_append _ _)
  obtain ⟨d, a, hsub⟩ := List.exists_cons_of_ne_nil hne
  have hlength : sub.length - 1 = a.length := by rw [hsub]; rfl
  conv_lhs => rw [hsub, List.cons_append]
  rw [← hsub, countFrom, ← List.cons_append, ← hsub, if_pos hstart, hlength, hskip a, Nat.add_comm]

/-- What lacks a character of the pattern counts as nothing. -/
theorem countFrom_eq_zero {c : α} (hc : c ∈ sub) : ∀ {s : List α} {skip : Nat}, c ∉ s →
    countFrom sub skip s = 0 := by
  intro s
  induction s with
  | nil =>
    intro skip _
    cases skip <;> rfl
  | cons d s ih =>
    intro skip hs
    have hrest : c ∉ s := fun h => hs (List.mem_cons_of_mem d h)
    cases skip with
    | succ skip => exact ih hrest
    | zero =>
      have hstart : ¬ sub.isPrefixOf (d :: s) := fun h =>
        hs ((List.isPrefixOf_iff_prefix.mp h).subset hc)
      rw [countFrom, if_neg hstart, ih hrest]

end Occurrences
