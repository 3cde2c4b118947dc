/-
# The runtime of the second implementation

`tools/verify_vectors.js` re-implements the deterministic part of the format in JavaScript.  This
module models what it uses of its runtime; the functions of the file itself follow in
`JsManifest.lean` and `JsVector.lean`, all in the namespace `Js`.

* A string is a sequence of UTF-16 code units, and `Buffer.from(s, "utf8")` reads its pairs.
* An object is the list of its own properties in the order the engine lists them.  No more is
  assumed of that order than that it is some order.
* `normalize` and the two hashes are the runtime's.  `SameNfc` and `SameHashes` say that they
  are the functions Python calls.
-/
import Sce.Manifest
import Sce.Lib.Binary64
import Sce.Lib.Utf16

namespace Sce.Js

open BigEndian FiniteMap

/-! ## 1. Strings and buffers -/

/-- A JavaScript string: any sequence of code units. -/
abbrev JsStr := List UInt16

/-- The string with the same text as a Python string. -/
def utf16 (s : PyStr) : JsStr := Utf16.encode s

/-- What a script of this file can throw. -/
inductive JsError
  | rangeError
  | typeError
  deriving DecidableEq, Repr

/-- `Buffer.from(s, "utf8")`: an unpaired surrogate is written as U+FFFD. -/
def bufferFrom (s : JsStr) : Bytes := utf8 (Utf16.decode s)

/-- **Both runtimes write the same UTF-8** for text without surrogates. -/
theorem bufferFrom_utf16 {s : PyStr} (h : ∀ c ∈ s, ¬ Surrogate c) :
    bufferFrom (utf16 s) = utf8 s := by
  rw [bufferFrom, utf16, Utf16.decode_encode h]

/-- `Buffer.compare`: lexicographic. -/
def bufferCompare (a b : Bytes) : Int := if a < b then -1 else if b < a then 1 else 0

theorem bufferCompare_le_zero {a b : Bytes} : bufferCompare a b ≤ 0 ↔ a ≤ b := by
  unfold bufferCompare
  split_ifs with hlt hgt
  · exact iff_of_true (by decide) (List.le_of_lt hlt)
  · exact iff_of_false (by decide) (List.not_le.mpr hgt)
  · exact iff_of_true (Int.le_refl 0) (List.not_lt.mp hgt)

/-! ## 2. Arrays and objects -/

/-- `array.sort(compare)`, which is stable. -/
def sortWith {α : Type} (compare : α → α → Int) (l : List α) : List α :=
  l.insertionSort fun a b => compare a b ≤ 0

/-- An object with string values: its own properties, in the engine's order. -/
abbrev JsObject := List (JsStr × JsStr)

/-- `Object.keys(o)` -/
def objectKeys (o : JsObject) : List JsStr := o.map Prod.fst

/-- `o[k]`, used as a string: without such a property that is a `TypeError`. -/
def getProperty (o : JsObject) (k : JsStr) : Except JsError JsStr :=
  match o.lookup k with
  | some v => .ok v
  | none => .error .typeError

/-- **Comparing by the bytes of a key is sorting by that key.** -/
theorem sortWith_bufferCompare {α : Type} (key : α → Bytes) (l : List α) :
    sortWith (fun a b => bufferCompare (key a) (key b)) l = sortBy key l := by
  have h := List.map_insertionSort (fun a b => bufferCompare (key a) (key b) ≤ 0)
    (fun a b => key a ≤ key b) id l fun a _ b _ => bufferCompare_le_zero
  rwa [List.map_id, List.map_id] at h

/-! ## 3. Numbers and their bytes -/

/-- A number that is a non-negative integer, which is to say a double. -/
abbrev JsNumber := { n : Nat // Binary64.Representable n }

/-- What `JSON.parse` makes of an integer literal. -/
def parseInteger (n : Nat) : JsNumber := ⟨Binary64.nearest n, Binary64.representable_nearest n⟩

/-- `writeUInt32BE(n >>> 0)` -/
def u32be (n : Nat) : Bytes := beBytes 4 (n % 2 ^ 32)

theorem u32be_of_lt {n : Nat} (h : n < 2 ^ 32) : u32be n = beBytes 4 n := by
  rw [u32be, Nat.mod_eq_of_lt h]

/-- `u64be`: `writeBigUInt64BE(BigInt(n))`, which checks the range. -/
def u64be (n : JsNumber) : Except JsError Bytes :=
  if n.val < 2 ^ 64 then .ok (beBytes 8 n.val) else .error .rangeError

theorem u64be_parseInteger (n : Nat) : u64be (parseInteger n)
    = if Binary64.nearest n < 2 ^ 64 then .ok (beBytes 8 (Binary64.nearest n))
      else .error .rangeError := rfl

/-- **An integer is written as it was published exactly when a double holds it.** -/
theorem u64be_parseInteger_iff {n : Nat} (h : n < 2 ^ 64) :
    u64be (parseInteger n) = .ok (beBytes 8 n) ↔ Binary64.Representable n := by
  rw [← Binary64.nearest_eq_iff, u64be_parseInteger]
  constructor
  · intro hok
    split at hok
    · rename_i hlt
      have h256 : (2 : Nat) ^ 64 = 256 ^ 8 := by decide
      exact beBytes_inj (h256 ▸ hlt) (h256 ▸ h) (Except.ok.inj hok)
    · exact absurd hok (by simp)
  · intro heq
    rw [heq, if_pos h]

/-! ### Text and bytes -/

/-- The value of a hexadecimal digit, in either case. -/
def hexVal (u : UInt16) : Option Nat :=
  let n := u.toNat
  if 0x30 ≤ n ∧ n ≤ 0x39 then some (n - 0x30)
  else if 0x61 ≤ n ∧ n ≤ 0x66 then some (n - 0x61 + 10)
  else if 0x41 ≤ n ∧ n ≤ 0x46 then some (n - 0x41 + 10)
  else none

/-- `Buffer.from(s, "hex")`, which stops at the first pair that is not two digits. -/
def bufferFromHex : JsStr → Bytes
  | hi :: lo :: s =>
    match hexVal hi, hexVal lo with
    | some a, some b => UInt8.ofNat (a * 16 + b) :: bufferFromHex s
    | _, _ => []
  | _ => []

/-- The string `b.hex()` is in JavaScript. -/
def hexStr (b : Bytes) : JsStr := (hexCodes b).map UInt16.ofNat

theorem hexVal_hexDigit : ∀ n < 16, hexVal (UInt16.ofNat (hexDigit n)) = some n := by decide

/-- **Hexadecimal text is read back.** -/
theorem bufferFromHex_hexStr (b : Bytes) : bufferFromHex (hexStr b) = b := by
  induction b with
  | nil => rfl
  | cons c b ih =>
    have hc : c.toNat < 256 := c.toNat_lt
    have hhi := hexVal_hexDigit (c.toNat / 16) (by omega)
    have hlo := hexVal_hexDigit (c.toNat % 16) (by omega)
    have hcons : hexStr (c :: b) = UInt16.ofNat (hexDigit (c.toNat / 16))
        :: UInt16.ofNat (hexDigit (c.toNat % 16)) :: hexStr b := rfl
    have hbyte : UInt8.ofNat (c.toNat / 16 * 16 + c.toNat % 16) = c := by
      rw [Nat.div_add_mod', UInt8.ofNat_toNat]
    rw [hcons, bufferFromHex, hhi, hlo]
    dsimp only
    rw [hbyte, ih]

/-- `Buffer.from(s, "ascii")`: the low byte of each code unit. -/
def bufferFromAscii (s : JsStr) : Bytes := s.map fun u => UInt8.ofNat u.toNat

/-- The string `b.decode("ascii")` is in JavaScript, for ASCII bytes. -/
def asciiStr (b : Bytes) : JsStr := b.map UInt8.toUInt16

theorem bufferFromAscii_asciiStr (b : Bytes) : bufferFromAscii (asciiStr b) = b := by
  rw [bufferFromAscii, asciiStr, List.map_map]
  refine (List.map_congr_left fun c _ => ?_).trans (List.map_id b)
  exact (congrArg UInt8.ofNat c.toNat_toUInt16).trans c.ofNat_toNat

/-! ## 4. The runtime -/

/-- The functions the script calls and does not define. -/
structure Runtime where
  /-- `s.normalize("NFC")` -/
  normalize : JsStr → JsStr
  /-- `crypto.createHash("sha3-256").update(x).digest()` -/
  sha3_256 : Bytes → Bytes
  /-- `crypto.hkdfSync("sha3-256", ikm, salt, info, length)` -/
  hkdfSync : (ikm salt info : Bytes) → (length : Nat) → Bytes

/-- **The two normalisations are the same function**, and it neither makes a surrogate nor takes
one away. -/
structure Runtime.SameNfc (R : Runtime) (P : Platform) : Prop where
  normalize : ∀ s, (∀ c ∈ s, ¬ Surrogate c) → R.normalize (utf16 s) = utf16 (P.nfc s)
  surrogates : ∀ s, (∀ c ∈ P.nfc s, ¬ Surrogate c) ↔ ∀ c ∈ s, ¬ Surrogate c

/-- The two libraries compute the same hashes. -/
structure Runtime.SameHashes (R : Runtime) (P : Platform) : Prop where
  sha3_256 : ∀ x, R.sha3_256 x = P.sha3_256 x
  hkdfSync : ∀ ikm salt info length, R.hkdfSync ikm salt info length = P.hkdf length salt info ikm

end Sce.Js
