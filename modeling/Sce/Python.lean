/-
# The Python values the package handles

`sce/core.py` and `sce/stream.py` rely on a handful of built-in types and conversions.  This
file models those, each under the behaviour the language documents, including the exceptions
they raise when used outside their range: which of them can escape is part of what the
package promises.

* A `str` is a sequence of code points, unpaired surrogates included (`PyStr`), and
  `str.encode("utf-8")` is defined exactly on the strings without a surrogate.  That encoding
  is proved injective (`utf8_inj`), not assumed.
* `int.to_bytes` and `struct.pack` fail with different exceptions on what does not fit.
* An argument of a public entry point has the type the entry point wants or some other type
  (`Arg`); the `isinstance` checks branch on this.  `bool` is one of the other types wherever
  an `int` is wanted, as the code excludes it by hand.  `bytes` and `bytearray` are one type
  here, the code copying both to `bytes` before use.
-/
import Sce.Lib.SelfDelim
import Sce.Lib.Logged

namespace Sce

open BigEndian

/-! ## 1. Bytes, strings and exceptions -/

abbrev Bytes := List UInt8

abbrev CodePoint := Fin 0x110000

instance instNeZeroCodePoints : NeZero 0x110000 := ⟨by decide⟩

/-- A Python `str`: any sequence of code points. -/
abbrev PyStr := List CodePoint

/-- What the package and the built-ins under it can raise.  The first three are the library's
own classes, of which `SCEError` is the base. -/
inductive PyExc
  | sceError (message : String)
  | stateSealMismatch (message : String)
  | malformedEnvelope (message : String)
  | overflowError
  | structError
  | unicodeEncodeError
  | typeError
  deriving DecidableEq, Repr

/-- `isinstance(e, SCEError)`. -/
def PyExc.isSCEError : PyExc → Bool
  | .sceError _ | .stateSealMismatch _ | .malformedEnvelope _ => true
  | _ => false

/-- An argument as a caller passes it: a value of the wanted type, or a value of another type,
of which only `type(value).__name__` is ever looked at. -/
inductive Arg (α : Type)
  | of (a : α)
  | other (typeName : String)
  deriving DecidableEq, Repr

/-- `b[lo:hi]` for `0 ≤ lo`, `0 ≤ hi`: slicing clamps at the end. -/
def slice (b : Bytes) (lo hi : Nat) : Bytes := (b.take hi).drop lo

theorem slice_length {b : Bytes} {lo hi : Nat} (h : hi ≤ b.length) :
    (slice b lo hi).length = hi - lo := by
  rw [slice, List.length_drop, List.length_take, Nat.min_eq_left h]

/-- Adjacent slices make one. -/
theorem slice_append_slice {b : Bytes} {lo mid hi : Nat} (h : lo ≤ mid) (h' : mid ≤ hi) :
    slice b lo mid ++ slice b mid hi = slice b lo hi := by
  have hcut : b.take mid = (b.take hi).take mid := by rw [List.take_take, Nat.min_eq_left h']
  have hsplit : (b.take hi).drop lo
      = ((b.take hi).drop lo).take (mid - lo) ++ ((b.take hi).drop lo).drop (mid - lo) :=
    (List.take_append_drop _ _).symm
  rw [slice, slice, slice, hcut, hsplit, List.drop_take, List.drop_drop, Nat.add_sub_cancel' h]

/-- A slice from the start and the rest make the whole. -/
theorem slice_append_drop (b : Bytes) (n : Nat) : slice b 0 n ++ b.drop n = b :=
  List.take_append_drop n b

/-- A slice of a slice from the start. -/
theorem slice_slice {b : Bytes} {lo hi n : Nat} (h : hi ≤ n) :
    slice (slice b 0 n) lo hi = slice b lo hi := by
  rw [slice, slice, slice, List.drop_zero, List.take_take, Nat.min_eq_left h]

/-- Cutting out a part whose place is known. -/
theorem slice_of_append {b p m r : Bytes} {lo hi : Nat} (h : b = p ++ (m ++ r))
    (hlo : p.length = lo) (hhi : lo + m.length = hi) : slice b lo hi = m := by
  subst h hlo hhi
  rw [slice, List.take_length_add_append, List.take_left, List.drop_left]

/-! ## 2. `str.encode("utf-8")` -/

/-- The code points `encode` refuses. -/
def Surrogate (c : CodePoint) : Prop := 0xD800 ≤ c.val ∧ c.val ≤ 0xDFFF

instance (c : CodePoint) : Decidable (Surrogate c) :=
  inferInstanceAs (Decidable (0xD800 ≤ c.val ∧ c.val ≤ 0xDFFF))

/-- The UTF-8 bytes of one code point. -/
def utf8Char (c : CodePoint) : Bytes :=
  let n := c.val
  if n < 0x80 then [UInt8.ofNat n]
  else if n < 0x800 then [UInt8.ofNat (0xC0 + n / 64), UInt8.ofNat (0x80 + n % 64)]
  else if n < 0x10000 then
    [UInt8.ofNat (0xE0 + n / 4096), UInt8.ofNat (0x80 + n / 64 % 64),
      UInt8.ofNat (0x80 + n % 64)]
  else
    [UInt8.ofNat (0xF0 + n / 262144), UInt8.ofNat (0x80 + n / 4096 % 64),
      UInt8.ofNat (0x80 + n / 64 % 64), UInt8.ofNat (0x80 + n % 64)]

/-- The bytes of a whole string. -/
def utf8 (s : PyStr) : Bytes := s.flatMap utf8Char

/-- `s.encode("utf-8")`. -/
def encodeUtf8 (s : PyStr) : Except PyExc Bytes :=
  if s.any fun c => Surrogate c then .error .unicodeEncodeError else .ok (utf8 s)

theorem encodeUtf8_eq_ok {s : PyStr} {b : Bytes} :
    encodeUtf8 s = .ok b ↔ (∀ c ∈ s, ¬ Surrogate c) ∧ utf8 s = b := by
  unfold encodeUtf8
  split
  · rename_i h
    obtain ⟨c, hc, hs⟩ := List.any_eq_true.mp h
    have hs : Surrogate c := of_decide_eq_true hs
    simp only [reduceCtorEq, false_iff, not_and]
    exact fun hall => absurd hs (hall c hc)
  · rename_i h
    simp only [Except.ok.injEq]
    have hall : ∀ c ∈ s, ¬ Surrogate c := fun c hc hs =>
      h (List.any_eq_true.mpr ⟨c, hc, decide_eq_true hs⟩)
    exact ⟨fun hb => ⟨hall, hb⟩, fun hb => hb.2⟩

theorem utf8Char_ne_nil (c : CodePoint) : utf8Char c ≠ [] := by
  unfold utf8Char
  dsimp only
  split_ifs <;> simp

/-- Bytes built from numbers agree exactly when the numbers do modulo 256. -/
theorem ofNat_eq_iff {m n : Nat} : UInt8.ofNat m = UInt8.ofNat n ↔ m % 256 = n % 256 := by
  rw [← UInt8.toNat_inj, UInt8.toNat_ofNat', UInt8.toNat_ofNat']

/-- **The first byte of a character tells its length**, and the bytes together the code
point. -/
theorem utf8Char_selfDelim : SelfDelim (fun _ : CodePoint => True) utf8Char := by
  rintro ⟨m, hm⟩ ⟨n, hn⟩ s t - - h
  simp only [utf8Char] at h
  -- the lead byte's range is disjoint between the four lengths, so only equal lengths survive
  split_ifs at h <;>
    simp only [List.cons_append, List.nil_append, List.cons.injEq, ofNat_eq_iff] at h <;>
    first
      | (exfalso; omega)
      | (refine ⟨Fin.ext ?_, ?_⟩
         · show m = n
           omega
         · simp_all)

/-- **UTF-8 is injective.** -/
theorem utf8_inj {s t : PyStr} (h : utf8 s = utf8 t) : s = t :=
  utf8Char_selfDelim.flatMap_inj (fun c _ => utf8Char_ne_nil c) (fun _ _ => trivial)
    (fun _ _ => trivial) h

/-! ## 3. `int.to_bytes` and `struct.pack` -/

/-- `n.to_bytes(length, "big")`. -/
def toBytes (n : Int) (length : Nat) : Except PyExc Bytes :=
  if 0 ≤ n ∧ n.toNat < 256 ^ length then .ok (beBytes length n.toNat)
  else .error .overflowError

theorem toBytes_natCast {n length : Nat} (h : n < 256 ^ length) :
    toBytes (n : Int) length = .ok (beBytes length n) := by
  simp [toBytes, h]

theorem toBytes_natCast_eq_ok {n length : Nat} {b : Bytes} :
    toBytes (n : Int) length = .ok b ↔ n < 256 ^ length ∧ beBytes length n = b := by
  simp [toBytes, Except.ite_eq_ok]

/-- An unsigned `struct` integer field of the given width (`I` is 4 bytes, `Q` is 8). -/
def packUInt (width n : Nat) : Except PyExc Bytes :=
  if n < 256 ^ width then .ok (beBytes width n) else .error .structError

theorem packUInt_of_lt {width n : Nat} (h : n < 256 ^ width) :
    packUInt width n = .ok (beBytes width n) := by
  simp [packUInt, h]

/-- A `struct` byte-string field: cut or zero-padded to its width. -/
def packS (width : Nat) (b : Bytes) : Bytes :=
  b.take width ++ List.replicate (width - b.length) 0

theorem packS_of_length {width : Nat} {b : Bytes} (h : b.length = width) :
    packS width b = b := by
  simp [packS, ← h]

@[simp] theorem packS_length (width : Nat) (b : Bytes) : (packS width b).length = width := by
  simp [packS]
  omega

/-! ## 4. Text made of bytes -/

/-- The ASCII code of a hexadecimal digit, in lower case. -/
def hexDigit (n : Nat) : Nat := if n < 10 then 0x30 + n else 0x61 + (n - 10)

/-- `b.hex()`, as ASCII codes. -/
def hexCodes (b : Bytes) : List Nat :=
  b.flatMap fun c => [hexDigit (c.toNat / 16), hexDigit (c.toNat % 16)]

/-- `b.decode("ascii", "replace")` -/
def decodeAscii (b : Bytes) : String :=
  String.ofList (b.map fun c => if c < 0x80 then Char.ofNat c.toNat else Char.ofNat 0xFFFD)

/-! ## 5. What may carry an envelope -/

/-- A `memoryview`: its bytes in C order, seen as items of `itemsize` bytes in an array of the
given shape. -/
structure MemoryView where
  itemsize : Nat
  shape : List Nat
  contents : Bytes
  contents_length : contents.length = itemsize * shape.prod

/-- The types `_require_envelope_bytes` accepts. -/
inductive Carrier
  | bytes (b : Bytes)
  | bytearray (b : Bytes)
  | memoryview (v : MemoryView)

/-- `bytes(carrier)`. -/
def Carrier.toBytes : Carrier → Bytes
  | .bytes b => b
  | .bytearray b => b
  | .memoryview v => v.contents

/-- `len(carrier)`: for a `memoryview` its first dimension, which one without dimensions does
not have. -/
def Carrier.len : Carrier → Except PyExc Nat
  | .bytes b => .ok b.length
  | .bytearray b => .ok b.length
  | .memoryview v =>
    match v.shape with
    | [] => .error .typeError
    | n :: _ => .ok n

end Sce
