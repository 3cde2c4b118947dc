/-
# UTF-16

Strings as sequences of 16-bit code units.  A code point beyond the basic plane takes a pair of
surrogates; a surrogate that is not part of a pair stands for no code point.  `encode` writes the
units of a sequence of code points, `decode` reads the code points back, an unpaired surrogate as
U+FFFD.  On text without surrogates among its code points reading undoes writing
(`decode_encode`).
-/
import Mathlib.Data.Fin.Basic
import Mathlib.Data.List.Flatten

namespace Utf16

abbrev CodePoint := Fin 0x110000

/-- A code point set aside for the pairs. -/
def IsSurrogate (c : CodePoint) : Prop := 0xD800 ≤ c.val ∧ c.val ≤ 0xDFFF

/-- The first unit of a pair. -/
def IsHigh (u : UInt16) : Prop := 0xD800 ≤ u.toNat ∧ u.toNat < 0xDC00

/-- The second unit of a pair. -/
def IsLow (u : UInt16) : Prop := 0xDC00 ≤ u.toNat ∧ u.toNat < 0xE000

instance instDecidableIsHigh (u : UInt16) : Decidable (IsHigh u) :=
  inferInstanceAs (Decidable (0xD800 ≤ u.toNat ∧ u.toNat < 0xDC00))

instance instDecidableIsLow (u : UInt16) : Decidable (IsLow u) :=
  inferInstanceAs (Decidable (0xDC00 ≤ u.toNat ∧ u.toNat < 0xE000))

/-! ## 1. Writing -/

/-- The units of one code point. -/
def encodeChar (c : CodePoint) : List UInt16 :=
  if c.val < 0x10000 then [UInt16.ofNat c.val]
  else [UInt16.ofNat (0xD800 + (c.val - 0x10000) / 0x400),
    UInt16.ofNat (0xDC00 + (c.val - 0x10000) % 0x400)]

/-- The units of a sequence of code points. -/
def encode (s : List CodePoint) : List UInt16 := s.flatMap encodeChar

/-! ## 2. Reading -/

/-- The code point of a pair. -/
def pair (u v : UInt16) : CodePoint :=
  Fin.ofNat _ (0x10000 + (u.toNat - 0xD800) * 0x400 + (v.toNat - 0xDC00))

/-- The code point of a unit alone. -/
def single (u : UInt16) : CodePoint :=
  if IsHigh u ∨ IsLow u then 0xFFFD else Fin.ofNat _ u.toNat

/-- The code points of a sequence of units. -/
def decode : List UInt16 → List CodePoint
  | [] => []
  | [u] => [single u]
  | u :: v :: us =>
    if IsHigh u ∧ IsLow v then pair u v :: decode us else single u :: decode (v :: us)

theorem decode_cons_of_not_high {u : UInt16} (h : ¬ IsHigh u) (us : List UInt16) :
    decode (u :: us) = single u :: decode us := by
  cases us with
  | nil => rfl
  | cons v us => rw [decode, if_neg fun hpair => h hpair.1]

theorem toNat_ofNat_of_lt {n : Nat} (h : n < 0x10000) : (UInt16.ofNat n).toNat = n := by
  rw [UInt16.toNat_ofNat']
  exact Nat.mod_eq_of_lt h

/-- **Reading the units of one code point.** -/
theorem decode_encodeChar_append {c : CodePoint} (h : ¬ IsSurrogate c) (us : List UInt16) :
    decode (encodeChar c ++ us) = c :: decode us := by
  unfold encodeChar
  split
  · rename_i hbmp
    have hval : (UInt16.ofNat c.val).toNat = c.val := toNat_ofNat_of_lt hbmp
    have hhigh : ¬ IsHigh (UInt16.ofNat c.val) := by
      rw [IsHigh, hval]
      rw [IsSurrogate] at h
      omega
    have hlow : ¬ IsLow (UInt16.ofNat c.val) := by
      rw [IsLow, hval]
      rw [IsSurrogate] at h
      omega
    rw [List.singleton_append, decode_cons_of_not_high hhigh, single,
      if_neg (not_or.mpr ⟨hhigh, hlow⟩), hval]
    simp
  · rename_i hbmp
    have hc := c.isLt
    have hhi : (UInt16.ofNat (0xD800 + (c.val - 0x10000) / 0x400)).toNat
        = 0xD800 + (c.val - 0x10000) / 0x400 := toNat_ofNat_of_lt (by omega)
    have hlo : (UInt16.ofNat (0xDC00 + (c.val - 0x10000) % 0x400)).toNat
        = 0xDC00 + (c.val - 0x10000) % 0x400 := toNat_ofNat_of_lt (by omega)
    have hpair : IsHigh (UInt16.ofNat (0xD800 + (c.val - 0x10000) / 0x400))
        ∧ IsLow (UInt16.ofNat (0xDC00 + (c.val - 0x10000) % 0x400)) := by
      rw [IsHigh, IsLow, hhi, hlo]
      omega
    have hcode : pair (UInt16.ofNat (0xD800 + (c.val - 0x10000) / 0x400))
        (UInt16.ofNat (0xDC00 + (c.val - 0x10000) % 0x400)) = c := by
      apply Fin.ext
      rw [pair, hhi, hlo, Fin.val_ofNat]
      omega
    rw [List.cons_append, List.singleton_append, decode, if_pos hpair, hcode]

/-- **Reading undoes writing** on text without surrogates. -/
theorem decode_encode {s : List CodePoint} (h : ∀ c ∈ s, ¬ IsSurrogate c) :
    decode (encode s) = s := by
  induction s with
  | nil => rfl
  | cons c s ih =>
    obtain ⟨hc, hs⟩ := List.forall_mem_cons.mp h
    rw [encode, List.flatMap_cons, decode_encodeChar_append hc]
    exact congrArg (c :: ·) (ih hs)

end Utf16
