/-
# Finite maps as association lists, and their sorted form

An association list with distinct keys denotes a finite map, read with `List.lookup`.  Two such
lists denote the same map exactly when one is a permutation of the other (`perm_iff_lookup`).
Sorting by an injective key picks one list out of each such class (`sort_eq_iff_perm`), so the
sorted list is a complete invariant of the map.
-/
import Mathlib.Data.List.Sort
import Mathlib.Data.List.Nodup
import Mathlib.Data.List.Perm.Basic

namespace FiniteMap

variable {κ ν : Type} [BEq κ] [LawfulBEq κ] {l l₁ l₂ : List (κ × ν)}

/-! ## 1. Lookup and permutation -/

/-- With distinct keys, lookup is membership. -/
theorem lookup_eq_some_iff {k : κ} {v : ν} (h : (l.map Prod.fst).Nodup) :
    l.lookup k = some v ↔ (k, v) ∈ l := by
  induction l with
  | nil => simp
  | cons kv l ih =>
    obtain ⟨k', v'⟩ := kv
    rw [List.map_cons, List.nodup_cons] at h
    by_cases hk : k = k'
    · subst hk
      have hnot : (k, v) ∉ l := fun hm => h.1 (List.mem_map.mpr ⟨_, hm, rfl⟩)
      simp [hnot, eq_comm]
    · have hb : (k == k') = false := by simpa using hk
      rw [List.lookup_cons, hb]
      simpa [hk] using ih h.2

omit [BEq κ] [LawfulBEq κ] in
/-- Distinct keys make distinct entries. -/
theorem nodup_of_keys (h : (l.map Prod.fst).Nodup) : l.Nodup := List.Nodup.of_map _ h

/-- **The same map is the same entries in some order.** -/
theorem perm_iff_lookup (h₁ : (l₁.map Prod.fst).Nodup) (h₂ : (l₂.map Prod.fst).Nodup) :
    l₁.Perm l₂ ↔ ∀ k, l₁.lookup k = l₂.lookup k := by
  rw [List.perm_ext_iff_of_nodup (nodup_of_keys h₁) (nodup_of_keys h₂)]
  constructor
  · intro h k
    apply Option.ext
    intro v
    rw [lookup_eq_some_iff h₁, lookup_eq_some_iff h₂, h]
  · rintro h ⟨k, v⟩
    rw [← lookup_eq_some_iff h₁, ← lookup_eq_some_iff h₂, h]

/-! ## 2. The sorted form -/

section Sorted

variable {α σ : Type} [LE σ] [DecidableLE σ]

/-- Sort by a key, ascending. -/
def sortBy (key : α → σ) (l : List α) : List α := l.insertionSort fun a b => key a ≤ key b

theorem sortBy_perm (key : α → σ) (l : List α) : (sortBy key l).Perm l :=
  List.perm_insertionSort _ l

theorem sortBy_pairwise [Std.IsLinearOrder σ] (key : α → σ) (l : List α) :
    (sortBy key l).Pairwise fun a b => key a ≤ key b := by
  have : Std.Total fun a b : α => key a ≤ key b := ⟨fun _ _ => Std.le_total⟩
  have : IsTrans α fun a b => key a ≤ key b := ⟨fun _ _ _ h h' => Std.le_trans h h'⟩
  exact List.pairwise_insertionSort _ l

/-- **Sorting is a canonical form**: when the key tells the entries apart, two lists sort to
the same list exactly when they are permutations of each other. -/
theorem sort_eq_iff_perm [Std.IsLinearOrder σ] {key : α → σ} {m₁ m₂ : List α}
    (hinj : ∀ a ∈ m₁, ∀ b ∈ m₁, key a = key b → a = b) :
    sortBy key m₁ = sortBy key m₂ ↔ m₁.Perm m₂ := by
  constructor
  · intro h
    exact ((sortBy_perm key m₁).symm.trans (List.Perm.of_eq h)).trans (sortBy_perm key m₂)
  · intro h
    refine List.Perm.eq_of_pairwise ?_ (sortBy_pairwise key m₁) (sortBy_pairwise key m₂)
      (((sortBy_perm key m₁).trans h).trans (sortBy_perm key m₂).symm)
    intro a b ha hb hab hba
    have ha' : a ∈ m₁ := (sortBy_perm key m₁).mem_iff.mp ha
    have hb' : b ∈ m₁ := h.mem_iff.mpr ((sortBy_perm key m₂).mem_iff.mp hb)
    exact hinj a ha' b hb' (Std.le_antisymm hab hba)

/-- Sorting through a map that keeps the key. -/
theorem map_sortBy {β : Type} (f : α → β) (key : β → σ) (l : List α) :
    (sortBy (fun a => key (f a)) l).map f = sortBy key (l.map f) :=
  List.map_insertionSort _ _ f l fun _ _ _ _ => Iff.rfl

end Sorted

end FiniteMap
