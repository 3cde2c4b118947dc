/-
# Self-delimiting encodings

An encoding is self-delimiting when a reader who sees the encoding followed by anything at all
can tell where it ends and what was encoded.  Formats built from such parts by concatenation
are unambiguous, however the contents imitate the framing, because each part is peeled off the
front without looking at what follows.

* `SelfDelim.of_length`, `lenPrefix_selfDelim`: the two basic parts, a fixed width and a length
  prefix.
* `SelfDelim.prod`, `SelfDelim.comap`, `SelfDelim.flatMap`: one part after another, a part seen
  through an injection, a run of parts whose number is known.
* `SelfDelim.flatMap_inj`: when no part is empty the number need not be known, provided
  nothing follows.

Every statement carries its domain `D`, since a length prefix is unambiguous only for the
lengths that fit it.
-/
import Sce.Lib.BigEndian
import Mathlib.Data.Set.Function

open BigEndian

/-- `enc` is self-delimiting on `D`. -/
def SelfDelim {α β : Type} (D : α → Prop) (enc : α → List β) : Prop :=
  ∀ ⦃x y : α⦄ ⦃s t : List β⦄, D x → D y → enc x ++ s = enc y ++ t → x = y ∧ s = t

namespace SelfDelim

variable {α β γ : Type} {D : α → Prop} {enc : α → List β}

/-! ## 1. The parts and their combinations -/

/-- Self-delimiting implies injective. -/
theorem inj (h : SelfDelim D enc) {x y : α} (hx : D x) (hy : D y) (he : enc x = enc y) :
    x = y :=
  (h (s := []) (t := []) hx hy (by rw [he])).1

/-- An injective encoding of one fixed width is self-delimiting. -/
theorem of_length {w : Nat} (hlen : ∀ x, D x → (enc x).length = w)
    (hinj : ∀ x y, D x → D y → enc x = enc y → x = y) : SelfDelim D enc := by
  intro x y s t hx hy h
  obtain ⟨he, hst⟩ := List.append_inj h ((hlen x hx).trans (hlen y hy).symm)
  exact ⟨hinj x y hx hy he, hst⟩

/-- A self-delimiting encoding stays so through an injection. -/
theorem comap (h : SelfDelim D enc) {E : γ → Prop} (f : γ → α) (hE : ∀ c, E c → D (f c))
    (hf : ∀ c d, E c → E d → f c = f d → c = d) : SelfDelim E (fun c => enc (f c)) := by
  intro c d s t hc hd he
  obtain ⟨hcd, hst⟩ := h (hE c hc) (hE d hd) he
  exact ⟨hf c d hc hd hcd, hst⟩

/-- One self-delimiting part after another. -/
theorem prod {E : γ → Prop} {enc' : γ → List β} (h : SelfDelim D enc) (h' : SelfDelim E enc') :
    SelfDelim (fun p : α × γ => D p.1 ∧ E p.2) (fun p => enc p.1 ++ enc' p.2) := by
  rintro ⟨x, c⟩ ⟨y, d⟩ s t ⟨hx, hc⟩ ⟨hy, hd⟩ he
  rw [List.append_assoc, List.append_assoc] at he
  obtain ⟨rfl, he'⟩ := h hx hy he
  obtain ⟨rfl, hst⟩ := h' hc hd he'
  exact ⟨rfl, hst⟩

/-! ## 2. Runs of parts -/

/-- Two runs of the same number of parts, whatever follows them. -/
theorem flatMap (h : SelfDelim D enc) : ∀ {xs ys : List α} {s t : List β},
    xs.length = ys.length → (∀ x ∈ xs, D x) → (∀ y ∈ ys, D y) →
    xs.flatMap enc ++ s = ys.flatMap enc ++ t → xs = ys ∧ s = t
  | [], [], s, t, _, _, _, he => ⟨rfl, by simpa using he⟩
  | [], _ :: _, _, _, hlen, _, _, _ => by simp at hlen
  | _ :: _, [], _, _, hlen, _, _, _ => by simp at hlen
  | x :: xs, y :: ys, s, t, hlen, hx, hy, he => by
    rw [List.flatMap_cons, List.flatMap_cons, List.append_assoc, List.append_assoc] at he
    obtain ⟨rfl, he'⟩ := h (hx x List.mem_cons_self) (hy y List.mem_cons_self) he
    obtain ⟨rfl, hst⟩ := flatMap h (by simpa using hlen)
      (fun z hz => hx z (List.mem_cons_of_mem _ hz))
      (fun z hz => hy z (List.mem_cons_of_mem _ hz)) he'
    exact ⟨rfl, hst⟩

/-- Two runs of nonempty parts with nothing after them: their number is read off the end. -/
theorem flatMap_inj (h : SelfDelim D enc) (hne : ∀ x, D x → enc x ≠ []) :
    ∀ {xs ys : List α}, (∀ x ∈ xs, D x) → (∀ y ∈ ys, D y) →
      xs.flatMap enc = ys.flatMap enc → xs = ys
  | [], [], _, _, _ => rfl
  | [], y :: ys, _, hy, he => by
    rw [List.flatMap_nil, List.flatMap_cons] at he
    exact absurd (List.append_eq_nil_iff.mp he.symm).1 (hne y (hy y List.mem_cons_self))
  | x :: xs, [], hx, _, he => by
    rw [List.flatMap_nil, List.flatMap_cons] at he
    exact absurd (List.append_eq_nil_iff.mp he).1 (hne x (hx x List.mem_cons_self))
  | x :: xs, y :: ys, hx, hy, he => by
    rw [List.flatMap_cons, List.flatMap_cons] at he
    obtain ⟨rfl, he'⟩ := h (hx x List.mem_cons_self) (hy y List.mem_cons_self) he
    rw [flatMap_inj h hne (fun z hz => hx z (List.mem_cons_of_mem _ hz))
      (fun z hz => hy z (List.mem_cons_of_mem _ hz)) he']

end SelfDelim

/-! ## 3. Integers and length prefixes -/

/-- A fixed-width integer is self-delimiting on the numbers that fit. -/
theorem beBytes_selfDelim (w : Nat) : SelfDelim (fun n => n < 256 ^ w) (beBytes w) :=
  SelfDelim.of_length (fun _ _ => beBytes_length w _) (fun _ _ hm hn h => beBytes_inj hm hn h)

/-- A byte string behind its length, the length written in `w` bytes. -/
def lenPrefix (w : Nat) (b : List UInt8) : List UInt8 := beBytes w b.length ++ b

@[simp] theorem lenPrefix_length (w : Nat) (b : List UInt8) :
    (lenPrefix w b).length = w + b.length := by
  simp [lenPrefix]

/-- **A length prefix is self-delimiting** on the strings whose length fits it, with no
condition on their contents. -/
theorem lenPrefix_selfDelim (w : Nat) :
    SelfDelim (fun b : List UInt8 => b.length < 256 ^ w) (lenPrefix w) := by
  intro a b s t ha hb he
  rw [lenPrefix, lenPrefix, List.append_assoc, List.append_assoc] at he
  obtain ⟨hlen, he'⟩ := beBytes_selfDelim w ha hb he
  exact List.append_inj he' hlen
