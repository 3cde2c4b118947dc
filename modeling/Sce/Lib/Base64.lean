/-
# Base64

Three bytes as four characters of a 64-letter alphabet, the end of the text padded with `=`.

`encode` writes the canonical text.  `decodeFrom` is the usual lenient reader, one character
after the other: it skips what is not in the alphabet, forgets padding that is followed by more
data, stops at complete padding, and complains of a quad that was left open.  It accepts much
more than `encode` writes; `decode_encode` is the half of the round trip that holds.
-/
import Mathlib.Data.List.Basic
import Mathlib.Tactic.Common

namespace Base64

/-! ## 1. The alphabet -/

/-- The letter for six bits. -/
def letter (v : Nat) : UInt8 :=
  if v < 26 then UInt8.ofNat (0x41 + v)
  else if v < 52 then UInt8.ofNat (0x61 + (v - 26))
  else if v < 62 then UInt8.ofNat (0x30 + (v - 52))
  else if v = 62 then 0x2b
  else 0x2f

/-- `=` -/
def pad : UInt8 := 0x3d

/-- The six bits of a letter. -/
def value (c : UInt8) : Option Nat :=
  let n := c.toNat
  if 0x41 ≤ n ∧ n ≤ 0x5a then some (n - 0x41)
  else if 0x61 ≤ n ∧ n ≤ 0x7a then some (n - 0x61 + 26)
  else if 0x30 ≤ n ∧ n ≤ 0x39 then some (n - 0x30 + 52)
  else if n = 0x2b then some 62
  else if n = 0x2f then some 63
  else none

theorem value_letter : ∀ v < 64, value (letter v) = some v := by decide

theorem letter_ne_pad : ∀ v < 64, letter v ≠ pad := by decide

theorem letter_lt : ∀ v < 64, letter v < 0x80 := by decide

/-! ## 2. Writing -/

/-- Quads of letters, the last one padded. -/
def encode : List UInt8 → List UInt8
  | [] => []
  | [a] => [letter (a.toNat / 4), letter (a.toNat % 4 * 16), pad, pad]
  | [a, b] =>
    [letter (a.toNat / 4), letter (a.toNat % 4 * 16 + b.toNat / 16),
      letter (b.toNat % 16 * 4), pad]
  | a :: b :: c :: bs =>
    letter (a.toNat / 4) :: letter (a.toNat % 4 * 16 + b.toNat / 16)
      :: letter (b.toNat % 16 * 4 + c.toNat / 64) :: letter (c.toNat % 64) :: encode bs

/-! ## 3. Reading -/

inductive DecodeError
  | dataCharacters
  | padding
  deriving DecidableEq, Repr

/-- **Read on**, `pos` letters into a quad with the bits `left` not yet written and `pads`
padding characters seen since the last letter. -/
def decodeFrom : (pos left pads : Nat) → List UInt8 → Except DecodeError (List UInt8)
  | pos, _, _, [] =>
    if pos = 0 then .ok [] else if pos = 1 then .error .dataCharacters else .error .padding
  | pos, left, pads, c :: cs =>
    if c = pad then
      if 2 ≤ pos then
        -- complete padding ends the text
        if 4 ≤ pos + (pads + 1) then .ok [] else decodeFrom pos left (pads + 1) cs
      else decodeFrom pos left pads cs
    else
      match value c with
      | none => decodeFrom pos left pads cs
      | some v =>
        match pos with
        | 0 => decodeFrom 1 v 0 cs
        | 1 => (decodeFrom 2 (v % 16) 0 cs).map (UInt8.ofNat (left * 4 + v / 16) :: ·)
        | 2 => (decodeFrom 3 (v % 4) 0 cs).map (UInt8.ofNat (left * 16 + v / 4) :: ·)
        | _ => (decodeFrom 0 0 0 cs).map (UInt8.ofNat (left * 64 + v) :: ·)

/-- The lenient reader. -/
def decode (text : List UInt8) : Except DecodeError (List UInt8) := decodeFrom 0 0 0 text

section Step

variable {left pads v : Nat} {cs : List UInt8}

theorem decodeFrom_letter_zero (hv : v < 64) :
    decodeFrom 0 left pads (letter v :: cs) = decodeFrom 1 v 0 cs := by
  rw [decodeFrom, if_neg (letter_ne_pad v hv), value_letter v hv]
  rfl

theorem decodeFrom_letter_one (hv : v < 64) : decodeFrom 1 left pads (letter v :: cs)
    = (decodeFrom 2 (v % 16) 0 cs).map (UInt8.ofNat (left * 4 + v / 16) :: ·) := by
  rw [decodeFrom, if_neg (letter_ne_pad v hv), value_letter v hv]
  rfl

theorem decodeFrom_letter_two (hv : v < 64) : decodeFrom 2 left pads (letter v :: cs)
    = (decodeFrom 3 (v % 4) 0 cs).map (UInt8.ofNat (left * 16 + v / 4) :: ·) := by
  rw [decodeFrom, if_neg (letter_ne_pad v hv), value_letter v hv]
  rfl

theorem decodeFrom_letter_three (hv : v < 64) : decodeFrom 3 left pads (letter v :: cs)
    = (decodeFrom 0 0 0 cs).map (UInt8.ofNat (left * 64 + v) :: ·) := by
  rw [decodeFrom, if_neg (letter_ne_pad v hv), value_letter v hv]
  rfl

end Step

/-- **Reading undoes writing.** -/
theorem decode_encode (b : List UInt8) : decode (encode b) = .ok b := by
  unfold decode
  induction b using encode.induct with
  | case1 => rfl
  | case2 a =>
    have ha : a.toNat < 256 := a.toNat_lt
    have hbyte : a.toNat / 4 * 4 + a.toNat % 4 * 16 / 16 = a.toNat := by omega
    rw [encode, decodeFrom_letter_zero (by omega), decodeFrom_letter_one (by omega), hbyte,
      UInt8.ofNat_toNat]
    rfl
  | case3 a b =>
    have ha : a.toNat < 256 := a.toNat_lt
    have hb : b.toNat < 256 := b.toNat_lt
    have hfirst : a.toNat / 4 * 4 + (a.toNat % 4 * 16 + b.toNat / 16) / 16 = a.toNat := by omega
    have hsecond : (a.toNat % 4 * 16 + b.toNat / 16) % 16 * 16 + b.toNat % 16 * 4 / 4
        = b.toNat := by omega
    rw [encode, decodeFrom_letter_zero (by omega), decodeFrom_letter_one (by omega),
      decodeFrom_letter_two (by omega), hfirst, hsecond, UInt8.ofNat_toNat, UInt8.ofNat_toNat]
    rfl
  | case4 a b c bs ih =>
    have ha : a.toNat < 256 := a.toNat_lt
    have hb : b.toNat < 256 := b.toNat_lt
    have hc : c.toNat < 256 := c.toNat_lt
    have hfirst : a.toNat / 4 * 4 + (a.toNat % 4 * 16 + b.toNat / 16) / 16 = a.toNat := by omega
    have hsecond : (a.toNat % 4 * 16 + b.toNat / 16) % 16 * 16
        + (b.toNat % 16 * 4 + c.toNat / 64) / 4 = b.toNat := by omega
    have hthird : (b.toNat % 16 * 4 + c.toNat / 64) % 4 * 64 + c.toNat % 64 = c.toNat := by omega
    rw [encode, decodeFrom_letter_zero (by omega), decodeFrom_letter_one (by omega),
      decodeFrom_letter_two (by omega), decodeFrom_letter_three (by omega), ih, hfirst, hsecond,
      hthird, UInt8.ofNat_toNat, UInt8.ofNat_toNat, UInt8.ofNat_toNat]
    rfl

/-- The text is ASCII. -/
theorem encode_lt (b : List UInt8) : ∀ c ∈ encode b, c < 0x80 := by
  have hpad : pad < 0x80 := by decide
  induction b using encode.induct with
  | case1 => simp [encode]
  | case2 a =>
    have ha : a.toNat < 256 := a.toNat_lt
    simp only [encode, List.forall_mem_cons]
    exact ⟨letter_lt _ (by omega), letter_lt _ (by omega), hpad, hpad, by simp⟩
  | case3 a b =>
    have ha : a.toNat < 256 := a.toNat_lt
    have hb : b.toNat < 256 := b.toNat_lt
    simp only [encode, List.forall_mem_cons]
    exact ⟨letter_lt _ (by omega), letter_lt _ (by omega), letter_lt _ (by omega), hpad, by simp⟩
  | case4 a b c bs ih =>
    have ha : a.toNat < 256 := a.toNat_lt
    have hb : b.toNat < 256 := b.toNat_lt
    have hc : c.toNat < 256 := c.toNat_lt
    simp only [encode, List.forall_mem_cons]
    exact ⟨letter_lt _ (by omega), letter_lt _ (by omega), letter_lt _ (by omega),
      letter_lt _ (by omega), ih⟩

theorem encode_ne_nil {b : List UInt8} (h : b ≠ []) : encode b ≠ [] := by
  match b with
  | [] => exact absurd rfl h
  | [a] => simp [encode]
  | [a, b] => simp [encode]
  | a :: b :: c :: bs => simp [encode]

end Base64
