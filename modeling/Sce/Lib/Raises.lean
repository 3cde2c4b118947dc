/-
# What a computation may raise

`RaisesOnly E` says of a computation that every failure of it is one of `E`, and nothing of its
successes.  The rules follow the way the computation is put together, so a claim about a whole
function is split into one about each step, and a step that cannot fail where it stands is
discharged by its value there.
-/
import Sce.Lib.Logged

namespace Except

variable {ε α β : Type} {E : ε → Prop}

/-! ## 1. Without a log -/

/-- Every failure is one of `E`. -/
def RaisesOnly (E : ε → Prop) (x : Except ε α) : Prop := ∀ e, x = .error e → E e

namespace RaisesOnly

theorem ok (a : α) : RaisesOnly E (.ok a) := fun _ h => absurd h (by simp)

theorem pure (a : α) : RaisesOnly E (Pure.pure a : Except ε α) := ok a

theorem error {e : ε} (h : E e) : RaisesOnly E (.error e : Except ε α) := by
  intro e' he
  obtain rfl := Except.error.inj he
  exact h

theorem of_ok {x : Except ε α} {a : α} (h : x = .ok a) : RaisesOnly E x := h ▸ ok a

/-- **The second half is only asked about what the first returned.** -/
theorem bind {x : Except ε α} {f : α → Except ε β} (hx : RaisesOnly E x)
    (hf : ∀ a, x = .ok a → RaisesOnly E (f a)) : RaisesOnly E (x >>= f) := by
  intro e he
  rcases Except.bind_eq_error.mp he with h | ⟨a, ha, h⟩
  · exact hx e h
  · exact hf a ha e h

/-- A composite raises what its halves raise. -/
theorem bind_iff {x : Except ε α} {f : α → Except ε β} :
    RaisesOnly E (x >>= f) ↔ RaisesOnly E x ∧ ∀ a, x = .ok a → RaisesOnly E (f a) := by
  refine ⟨fun h => ⟨fun e he => ?_, fun a ha e he => ?_⟩, fun h => bind h.1 h.2⟩
  · exact h e (Except.bind_eq_error.mpr (.inl he))
  · exact h e (Except.bind_eq_error.mpr (.inr ⟨a, ha, he⟩))

theorem error_iff {e : ε} : RaisesOnly E (.error e : Except ε α) ↔ E e :=
  ⟨fun h => h e rfl, error⟩

theorem ite {c : Prop} [Decidable c] {x y : Except ε α} (hx : c → RaisesOnly E x)
    (hy : ¬ c → RaisesOnly E y) : RaisesOnly E (if c then x else y) := by
  split
  · exact hx ‹_›
  · exact hy ‹_›

end RaisesOnly

end Except

namespace Logged

variable {φ ε α β : Type} {E : ε → Prop}

/-! ## 2. With a log -/

/-- Every failure is one of `E`. -/
def RaisesOnly (E : ε → Prop) (m : Logged φ ε α) : Prop := m.result.RaisesOnly E

namespace RaisesOnly

theorem pure (a : α) : RaisesOnly E (Pure.pure a : Logged φ ε α) := Except.RaisesOnly.ok a

theorem fail {e : ε} (h : E e) : RaisesOnly E (Logged.fail e : Logged φ ε α) :=
  Except.RaisesOnly.error h

theorem perform (event : φ) (a : α) : RaisesOnly E (Logged.perform event a : Logged φ ε α) :=
  Except.RaisesOnly.ok a

theorem lift {x : Except ε α} (h : x.RaisesOnly E) :
    RaisesOnly E (liftM x : Logged φ ε α) := h

/-- **The second half is only asked about what the first returned.** -/
theorem bind {m : Logged φ ε α} {f : α → Logged φ ε β} (hm : RaisesOnly E m)
    (hf : ∀ a, m.result = .ok a → RaisesOnly E (f a)) : RaisesOnly E (m >>= f) := by
  intro e he
  rcases Logged.result_bind_eq_error.mp he with h | ⟨a, ha, h⟩
  · exact hm e h
  · exact hf a ha e h

theorem ite {c : Prop} [Decidable c] {m m' : Logged φ ε α} (h : c → RaisesOnly E m)
    (h' : ¬ c → RaisesOnly E m') : RaisesOnly E (if c then m else m') := by
  split
  · exact h ‹_›
  · exact h' ‹_›

end RaisesOnly

end Logged
