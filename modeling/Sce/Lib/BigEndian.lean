/-
# Fixed-width big-endian integers

A natural number as exactly `w` bytes, most significant byte first, and the reading back.
Nothing here knows what the bytes are for.

* `beNat_beBytes` and `beBytes_beNat` are the two halves of the round trip: a number below
  `256 ^ w` survives, and so does every byte string of length `w`.
* `beBytes_inj` is the form injectivity proofs use.
-/
import Mathlib.Data.List.Induction
import Mathlib.Algebra.Order.Ring.Nat
import Mathlib.Tactic.Ring

namespace BigEndian

/-! ## 1. Writing and reading -/

/-- `n` as `w` bytes, most significant first.  Digits beyond the width are dropped. -/
def beBytes : Nat → Nat → List UInt8
  | 0, _ => []
  | w + 1, n => beBytes w (n / 256) ++ [UInt8.ofNat n]

/-- The number a big-endian byte string denotes. -/
def beNat (bs : List UInt8) : Nat := bs.foldl (fun acc b => acc * 256 + b.toNat) 0

@[simp] theorem beBytes_length : ∀ w n : Nat, (beBytes w n).length = w
  | 0, _ => rfl
  | w + 1, n => by simp [beBytes, beBytes_length w]

@[simp] theorem beNat_nil : beNat [] = 0 := rfl

/-- Reading one more byte shifts what was read before it. -/
theorem beNat_concat (bs : List UInt8) (b : UInt8) :
    beNat (bs ++ [b]) = beNat bs * 256 + b.toNat := by
  simp [beNat, List.foldl_append]

/-! ## 2. The round trip -/

/-- **A number that fits comes back.** -/
theorem beNat_beBytes : ∀ {w n : Nat}, n < 256 ^ w → beNat (beBytes w n) = n
  | 0, n, h => by
    have h0 : n = 0 := by simpa using h
    simp [beBytes, h0]
  | w + 1, n, h => by
    have hq : n / 256 < 256 ^ w := by
      rw [pow_succ] at h
      exact Nat.div_lt_of_lt_mul (by rw [Nat.mul_comm]; exact h)
    rw [beBytes, beNat_concat, beNat_beBytes hq, UInt8.toNat_ofNat']
    omega

/-- A byte string of length `w` denotes a number below `256 ^ w`. -/
theorem beNat_lt (bs : List UInt8) : beNat bs < 256 ^ bs.length := by
  induction bs using List.reverseRecOn with
  | nil => simp
  | append_singleton bs b ih =>
    have hb : b.toNat < 256 := b.toNat_lt
    rw [beNat_concat, List.length_append, List.length_singleton, pow_succ]
    omega

/-- **Every byte string is the writing of the number it denotes.** -/
theorem beBytes_beNat (bs : List UInt8) : beBytes bs.length (beNat bs) = bs := by
  induction bs using List.reverseRecOn with
  | nil => rfl
  | append_singleton bs b ih =>
    have hb : b.toNat < 256 := b.toNat_lt
    have hdiv : (beNat bs * 256 + b.toNat) / 256 = beNat bs := by omega
    have hlow : UInt8.ofNat (beNat bs * 256 + b.toNat) = b := by
      rw [← UInt8.toNat_inj, UInt8.toNat_ofNat']
      omega
    rw [List.length_append, List.length_singleton, beBytes, beNat_concat, hdiv, ih, hlow]

/-- The same at a stated width. -/
theorem beBytes_beNat_of_length {w : Nat} {bs : List UInt8} (h : bs.length = w) :
    beBytes w (beNat bs) = bs := by
  rw [← h]; exact beBytes_beNat bs

/-- **Writing at one width is injective on the numbers that fit.** -/
theorem beBytes_inj {w m n : Nat} (hm : m < 256 ^ w) (hn : n < 256 ^ w)
    (h : beBytes w m = beBytes w n) : m = n := by
  rw [← beNat_beBytes hm, h, beNat_beBytes hn]

end BigEndian
