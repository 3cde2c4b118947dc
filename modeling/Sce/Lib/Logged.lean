/-
# Computations that may fail and leave a log behind

`Logged φ ε α` is a computation that returns an `α` or raises an `ε`, and that records an
event of type `φ` at each point where something of interest happens.  A failure keeps what was
recorded before it, so the log of a whole history of calls is the concatenation of the logs of
the calls, whichever of them failed.

Assumptions about an oracle ("no two of the inputs it was asked about collide") quantify over
such a log.  They then speak of the finitely many questions actually asked, which is what keeps
them satisfiable.

* Section 2 inverts a successful or failed bind, for plain `Except` and for `Logged`.
* `Logged.each` runs one computation for each element of a list, in order.  Its lemmas say when
  it succeeds, where it fails, and what its log is made of.
* `NoCollision` is the assumption about an oracle, and `NoCollision.mono` restricts it.
-/
import Mathlib.Data.Set.Function
import Mathlib.Data.List.Forall2

/-! ## 1. The monad -/

/-- A log and an outcome. -/
structure Logged (φ ε α : Type) where
  log : List φ
  result : Except ε α

namespace Logged

variable {φ ε α β : Type}

/-- Run `f` on the outcome of `m`, after everything `m` recorded; stop at a failure. -/
def bind (m : Logged φ ε α) (f : α → Logged φ ε β) : Logged φ ε β :=
  match m.result with
  | .ok a => ⟨m.log ++ (f a).log, (f a).result⟩
  | .error e => ⟨m.log, .error e⟩

instance : Monad (Logged φ ε) where
  pure a := ⟨[], .ok a⟩
  bind := Logged.bind

/-- A failing computation without events, seen as a logged one. -/
instance : MonadLift (Except ε) (Logged φ ε) where
  monadLift x := ⟨[], x⟩

/-- Raise. -/
def fail (e : ε) : Logged φ ε α := ⟨[], .error e⟩

/-- Record one event and return the answer that goes with it. -/
def perform (event : φ) (answer : α) : Logged φ ε α := ⟨[event], .ok answer⟩

/-- Give every failure another form. -/
def mapError {ε' : Type} (f : ε → ε') (m : Logged φ ε α) : Logged φ ε' α :=
  ⟨m.log, m.result.mapError f⟩

/-- Go on with `handler` after a failure, keeping what was recorded. -/
def handle (m : Logged φ ε α) (handler : ε → Logged φ ε α) : Logged φ ε α :=
  match m.result with
  | .ok a => ⟨m.log, .ok a⟩
  | .error e => ⟨m.log ++ (handler e).log, (handler e).result⟩

/-! ## 2. Computing a run -/

theorem bind_def (m : Logged φ ε α) (f : α → Logged φ ε β) : (m >>= f) = Logged.bind m f := rfl

@[simp] theorem pure_log (a : α) : (pure a : Logged φ ε α).log = [] := rfl

@[simp] theorem pure_result (a : α) : (pure a : Logged φ ε α).result = .ok a := rfl

@[simp] theorem pure_bind (a : α) (f : α → Logged φ ε β) : (pure a >>= f) = f a := by
  simp [bind_def, Logged.bind]

@[simp] theorem fail_log (e : ε) : (fail e : Logged φ ε α).log = [] := rfl

@[simp] theorem fail_result (e : ε) : (fail e : Logged φ ε α).result = .error e := rfl

@[simp] theorem fail_bind (e : ε) (f : α → Logged φ ε β) : (fail e >>= f) = fail e := rfl

@[simp] theorem liftM_ok (a : α) :
    (liftM (.ok a : Except ε α) : Logged φ ε α) = pure a := rfl

@[simp] theorem liftM_error (e : ε) :
    (liftM (.error e : Except ε α) : Logged φ ε α) = fail e := rfl

@[simp] theorem liftM_log (x : Except ε α) : (liftM x : Logged φ ε α).log = [] := rfl

@[simp] theorem liftM_result (x : Except ε α) : (liftM x : Logged φ ε α).result = x := rfl

@[simp] theorem perform_bind (event : φ) (a : α) (f : α → Logged φ ε β) :
    (perform event a >>= f) = ⟨event :: (f a).log, (f a).result⟩ := rfl

/-- After a success the rest runs, its events coming after those before it. -/
theorem bind_of_ok {m : Logged φ ε α} {a : α} (h : m.result = .ok a)
    (f : α → Logged φ ε β) : (m >>= f) = ⟨m.log ++ (f a).log, (f a).result⟩ := by
  simp [bind_def, Logged.bind, h]

/-- After a failure nothing more runs. -/
theorem bind_of_error {m : Logged φ ε α} {e : ε} (h : m.result = .error e)
    (f : α → Logged φ ε β) : (m >>= f) = ⟨m.log, .error e⟩ := by
  simp [bind_def, Logged.bind, h]

theorem bind_assoc {γ : Type} (m : Logged φ ε α) (f : α → Logged φ ε β)
    (g : β → Logged φ ε γ) : (m >>= f >>= g) = m >>= fun a => f a >>= g := by
  cases h : m.result with
  | error e => rw [bind_of_error h, bind_of_error h, bind_of_error rfl]
  | ok a =>
    rw [bind_of_ok h, bind_of_ok h]
    cases hf : (f a).result with
    | error e => rw [bind_of_error hf, bind_of_error rfl]
    | ok b => rw [bind_of_ok hf, bind_of_ok rfl, List.append_assoc]

/-- **A composite succeeds exactly when both halves do.** -/
theorem result_bind_eq_ok {m : Logged φ ε α} {f : α → Logged φ ε β} {b : β} :
    (m >>= f).result = .ok b ↔ ∃ a, m.result = .ok a ∧ (f a).result = .ok b := by
  cases h : m.result with
  | ok a => simp [bind_of_ok h]
  | error e => simp [bind_of_error h]

/-- A composite fails in its first half or in its second. -/
theorem result_bind_eq_error {m : Logged φ ε α} {f : α → Logged φ ε β} {e : ε} :
    (m >>= f).result = .error e ↔
      m.result = .error e ∨ ∃ a, m.result = .ok a ∧ (f a).result = .error e := by
  cases h : m.result with
  | ok a => simp [bind_of_ok h]
  | error e' => simp [bind_of_error h]

/-- What a composite records is recorded by its first half, or by its second. -/
theorem mem_log_bind {m : Logged φ ε α} {f : α → Logged φ ε β} {e : φ} :
    e ∈ (m >>= f).log ↔ e ∈ m.log ∨ ∃ a, m.result = .ok a ∧ e ∈ (f a).log := by
  cases h : m.result with
  | ok a => simp [bind_of_ok h]
  | error e' => simp [bind_of_error h]

/-- Lifted code records nothing. -/
theorem mem_log_liftM_bind {x : Except ε α} {f : α → Logged φ ε β} {e : φ} :
    e ∈ ((liftM x : Logged φ ε α) >>= f).log ↔ ∃ a, x = .ok a ∧ e ∈ (f a).log := by
  simp [mem_log_bind]

/-- Lifted code at the end records nothing. -/
theorem log_bind_liftM (m : Logged φ ε α) (g : α → Except ε β) :
    (m >>= fun a => (liftM (g a) : Logged φ ε β)).log = m.log := by
  cases h : m.result with
  | ok a => simp [bind_of_ok h]
  | error e => simp [bind_of_error h]

/-! ## 3. One computation for each element -/

/-- Run `f` on the elements in order; stop at the first failure. -/
def each (f : α → Logged φ ε β) : List α → Logged φ ε (List β)
  | [] => pure []
  | x :: xs => do
    let y ← f x
    let ys ← each f xs
    return y :: ys

@[simp] theorem each_nil (f : α → Logged φ ε β) : each f [] = pure [] := rfl

theorem each_cons (f : α → Logged φ ε β) (x : α) (xs : List α) :
    each f (x :: xs) = f x >>= fun y => each f xs >>= fun ys => pure (y :: ys) := rfl

/-- **The whole run succeeds exactly when every step does.** -/
theorem result_each_eq_ok {f : α → Logged φ ε β} {xs : List α} {ys : List β} :
    (each f xs).result = .ok ys ↔ List.Forall₂ (fun x y => (f x).result = .ok y) xs ys := by
  induction xs generalizing ys with
  | nil =>
    rw [each_nil, pure_result, Except.ok.injEq, List.forall₂_nil_left_iff]
    exact eq_comm
  | cons x xs ih =>
    rw [each_cons, List.forall₂_cons_left_iff]
    simp only [result_bind_eq_ok, ih, pure_result, Except.ok.injEq]
    constructor
    · rintro ⟨y, hy, zs, hzs, rfl⟩
      exact ⟨y, zs, hy, hzs, rfl⟩
    · rintro ⟨y, zs, hy, hzs, rfl⟩
      exact ⟨y, hy, zs, hzs, rfl⟩

/-- A failed run failed at one of its steps. -/
theorem result_each_eq_error {f : α → Logged φ ε β} {xs : List α} {e : ε}
    (h : (each f xs).result = .error e) : ∃ x ∈ xs, (f x).result = .error e := by
  induction xs with
  | nil => exact absurd h (by simp)
  | cons x xs ih =>
    rw [each_cons, result_bind_eq_error] at h
    rcases h with hx | ⟨y, -, hrest⟩
    · exact ⟨x, List.mem_cons_self, hx⟩
    · rcases result_bind_eq_error.mp hrest with hxs | ⟨ys, -, hpure⟩
      · obtain ⟨z, hz, he⟩ := ih hxs
        exact ⟨z, List.mem_cons_of_mem _ hz, he⟩
      · exact absurd hpure (by simp)

/-- **Every event of a run comes from one of its steps**, and with it the whole log of that
step. -/
theorem mem_log_each {f : α → Logged φ ε β} {xs : List α} {e : φ}
    (h : e ∈ (each f xs).log) :
    ∃ x ∈ xs, e ∈ (f x).log ∧ (f x).log ⊆ (each f xs).log := by
  induction xs with
  | nil => exact absurd h List.not_mem_nil
  | cons x xs ih =>
    rw [each_cons] at h ⊢
    cases hx : (f x).result with
    | error e' =>
      rw [bind_of_error hx] at h ⊢
      exact ⟨x, List.mem_cons_self, h, List.Subset.refl _⟩
    | ok y =>
      have hlog : (f x >>= fun y => each f xs >>= fun ys => pure (y :: ys)).log
          = (f x).log ++ (each f xs).log := by
        rw [bind_of_ok hx]
        cases hxs : (each f xs).result with
        | error e' => rw [bind_of_error hxs]
        | ok ys => rw [bind_of_ok hxs, pure_log, List.append_nil]
      rw [hlog] at h ⊢
      rcases List.mem_append.mp h with hfirst | hrest
      · exact ⟨x, List.mem_cons_self, hfirst, List.subset_append_left _ _⟩
      · obtain ⟨z, hz, he, hsub⟩ := ih hrest
        exact ⟨z, List.mem_cons_of_mem _ hz, he,
          List.Subset.trans hsub (List.subset_append_right _ _)⟩

/-- **A run succeeds with something exactly when every step does.** -/
theorem exists_result_each_eq_ok {f : α → Logged φ ε β} {xs : List α} :
    (∃ ys, (each f xs).result = .ok ys) ↔ ∀ x ∈ xs, ∃ y, (f x).result = .ok y := by
  simp only [result_each_eq_ok]
  induction xs with
  | nil => simp
  | cons x xs ih =>
    simp only [List.forall₂_cons_left_iff, List.forall_mem_cons, ← ih]
    constructor
    · rintro ⟨_, y, ys, hy, hys, -⟩
      exact ⟨⟨y, hy⟩, ys, hys⟩
    · rintro ⟨⟨y, hy⟩, ys, hys⟩
      exact ⟨_, y, ys, hy, hys, rfl⟩

/-- **Where a run stops.**  It records what its first `k` steps do; all of these but the last
succeed, and the last fails if there are more. -/
theorem log_each (f : α → Logged φ ε β) (xs : List α) :
    ∃ k ≤ xs.length, (each f xs).log = (xs.take k).flatMap (fun x => (f x).log) ∧
      (∀ i x, i + 1 < k → xs[i]? = some x → ∃ y, (f x).result = .ok y) ∧
      (k < xs.length → ∃ i x e, k = i + 1 ∧ xs[i]? = some x ∧ (f x).result = .error e) := by
  induction xs with
  | nil => exact ⟨0, le_rfl, rfl, by simp, by simp⟩
  | cons x xs ih =>
    cases hx : (f x).result with
    | error e =>
      refine ⟨1, by simp, ?_, by simp, fun _ => ⟨0, x, e, rfl, rfl, hx⟩⟩
      rw [each_cons, bind_of_error hx]
      simp
    | ok y =>
      obtain ⟨k, hk, hlog, hopen, hstop⟩ := ih
      refine ⟨k + 1, by simpa using hk, ?_, ?_, ?_⟩
      · rw [each_cons, bind_of_ok hx, List.take_succ_cons, List.flatMap_cons, ← hlog]
        cases hxs : (each f xs).result with
        | error e => rw [bind_of_error hxs]
        | ok ys => rw [bind_of_ok hxs, pure_log, List.append_nil]
      · intro i z hi hz
        cases i with
        | zero =>
          obtain rfl := Option.some.inj hz
          exact ⟨y, hx⟩
        | succ i => exact hopen i z (by omega) hz
      · intro hlt
        obtain ⟨i, z, e, rfl, hz, he⟩ := hstop (by simpa using hlt)
        exact ⟨i + 1, z, e, rfl, hz, he⟩

/-- A run whose steps all succeed, in closed form. -/
theorem each_of_ok {f : α → Logged φ ε β} {g : α → β} {xs : List α}
    (h : ∀ x ∈ xs, (f x).result = .ok (g x)) :
    each f xs = ⟨xs.flatMap fun x => (f x).log, .ok (xs.map g)⟩ := by
  induction xs with
  | nil => rfl
  | cons x xs ih =>
    rw [each_cons, bind_of_ok (h x List.mem_cons_self),
      ih fun z hz => h z (List.mem_cons_of_mem _ hz)]
    simp [bind_of_ok]

/-- The log of a successful run has the log of every step. -/
theorem log_subset_log_each {f : α → Logged φ ε β} {xs : List α} {ys : List β}
    (h : (each f xs).result = .ok ys) {x : α} (hx : x ∈ xs) : (f x).log ⊆ (each f xs).log := by
  induction xs generalizing ys with
  | nil => exact absurd hx List.not_mem_nil
  | cons z xs ih =>
    rw [each_cons] at h ⊢
    obtain ⟨y, hy, hrest⟩ := result_bind_eq_ok.mp h
    obtain ⟨zs, hzs, -⟩ := result_bind_eq_ok.mp hrest
    rw [bind_of_ok hy, bind_of_ok hzs]
    rcases List.mem_cons.mp hx with rfl | hx
    · exact List.subset_append_left _ _
    · intro e he
      exact List.mem_append_right _ (List.mem_append_left _ (ih hzs hx he))

end Logged

namespace Except

variable {ε α β : Type}

/-- A composite succeeds exactly when both halves do. -/
theorem bind_eq_ok {x : Except ε α} {f : α → Except ε β} {b : β} :
    (x >>= f) = .ok b ↔ ∃ a, x = .ok a ∧ f a = .ok b := by
  cases x <;> simp [bind, Except.bind]

/-- A composite fails in its first half or in its second. -/
theorem bind_eq_error {x : Except ε α} {f : α → Except ε β} {e : ε} :
    (x >>= f) = .error e ↔ x = .error e ∨ ∃ a, x = .ok a ∧ f a = .error e := by
  cases x <;> simp [bind, Except.bind]

@[simp] theorem pure_eq_ok {a b : α} : (pure a : Except ε α) = .ok b ↔ a = b := by
  simp [pure, Except.pure]

/-- A guarded answer. -/
theorem ite_eq_ok {c : Prop} [Decidable c] {e : ε} {a b : α} :
    (if c then .ok a else .error e : Except ε α) = .ok b ↔ c ∧ a = b := by
  split <;> simp_all

end Except

/-! ## 4. Oracles without a collision among the questions asked -/

/-- No two of the listed questions get the same answer. -/
def NoCollision {α β : Type} (oracle : α → β) (asked : List α) : Prop :=
  ∀ x ∈ asked, ∀ y ∈ asked, oracle x = oracle y → x = y

instance {α β : Type} [DecidableEq α] [DecidableEq β] (oracle : α → β) (asked : List α) :
    Decidable (NoCollision oracle asked) :=
  inferInstanceAs (Decidable (∀ x ∈ asked, ∀ y ∈ asked, oracle x = oracle y → x = y))

/-- Fewer questions, fewer collisions. -/
theorem NoCollision.mono {α β : Type} {oracle : α → β} {asked asked' : List α}
    (h : NoCollision oracle asked) (hsub : ∀ x ∈ asked', x ∈ asked) :
    NoCollision oracle asked' :=
  fun x hx y hy he => h x (hsub x hx) y (hsub y hy) he
