/-
# A platform small enough to evaluate

The theorems of this development hold of every platform that meets their hypotheses.  This file
builds one that meets them, so that the hypotheses are seen to be satisfiable together and the
model can be run inside the kernel.

The hashes multiply the input, read as a number, by a constant modulo a prime of the right
width.  The cipher leaves the plaintext readable and appends a 16-byte tag of everything that
went in.  Normalisation composes one pair, `e` and U+0301 into U+00E9, and is otherwise the
identity, as NFC is on ASCII.  None of this is secure.  It is exact (`toy_aeadExact`),
idempotent (`toy_nfcIdempotent`) and keeps sizes (`toy_nfcSize`), for all inputs.
-/
import Sce.Platform

namespace Sce

open BigEndian

/-! ## 1. Hashes and cipher -/

/-- A digest of `w` bytes. -/
def toyDigest (w modulus factor : Nat) (b : Bytes) : Bytes :=
  beBytes w (beNat (1 :: b) * factor % modulus)

@[simp] theorem toyDigest_length (w modulus factor : Nat) (b : Bytes) :
    (toyDigest w modulus factor b).length = w := beBytes_length _ _

/-- The tag of an encryption. -/
def toyTag (key nonce data aad : Bytes) : Bytes :=
  toyDigest 16 (2 ^ 128 - 159) (3 ^ 79 + 2)
    (lenPrefix 4 key ++ lenPrefix 4 nonce ++ lenPrefix 4 data ++ aad)

@[simp] theorem toyTag_length (key nonce data aad : Bytes) :
    (toyTag key nonce data aad).length = 16 := toyDigest_length _ _ _ _

/-- The plaintext with its tag behind it. -/
def toyEncrypt (key nonce data aad : Bytes) : Bytes := data ++ toyTag key nonce data aad

/-- Split the tag off and compare it. -/
def toyDecrypt (key nonce ciphertext aad : Bytes) : Option Bytes :=
  let data := ciphertext.take (ciphertext.length - 16)
  if ciphertext = toyEncrypt key nonce data aad then some data else none

/-! ## 2. Normalisation -/

/-- Compose `e` followed by a combining acute accent. -/
def toyNfc : PyStr → PyStr
  | [] => []
  | [c] => [c]
  | c :: d :: s =>
    if c = 0x65 ∧ d = 0x301 then 0xE9 :: toyNfc s else c :: toyNfc (d :: s)

/-- How many characters the full decomposition has. -/
def toySize (s : PyStr) : Nat := (s.map fun c => if c = 0xE9 then 2 else 1).sum

theorem toySize_nfc (s : PyStr) : toySize (toyNfc s) = toySize s := by
  induction s using toyNfc.induct with
  | case1 => rfl
  | case2 c => rfl
  | case3 c d s h ih =>
    obtain ⟨rfl, rfl⟩ := h
    simp only [toyNfc, and_self, if_true, toySize, List.map_cons, List.sum_cons] at ih ⊢
    rw [ih]
    have hletter : ¬ ((0x65 : CodePoint) = 0xE9) := by decide
    have haccent : ¬ ((0x301 : CodePoint) = 0xE9) := by decide
    simp only [hletter, haccent, if_false]
    omega
  | case4 c d s h ih =>
    rw [toyNfc, if_neg h]
    simp only [toySize, List.map_cons, List.sum_cons] at ih ⊢
    rw [ih]

/-- Composition starts a string with the accent only where the string already did. -/
theorem toyNfc_head {s : PyStr} (h : s.head? ≠ some 0x301) : (toyNfc s).head? ≠ some 0x301 := by
  match s with
  | [] => simp [toyNfc]
  | [c] => simpa [toyNfc] using h
  | c :: d :: s =>
    rw [toyNfc]
    split
    · simp only [List.head?_cons, ne_eq, Option.some.injEq]
      decide
    · simpa using h

theorem toyNfc_idempotent (s : PyStr) : toyNfc (toyNfc s) = toyNfc s := by
  induction s using toyNfc.induct with
  | case1 => rfl
  | case2 c => rfl
  | case3 c d s h ih =>
    obtain ⟨rfl, rfl⟩ := h
    simp only [toyNfc, and_self, if_true]
    match hs : toyNfc s with
    | [] => rfl
    | e :: r =>
      rw [hs] at ih
      rw [toyNfc, if_neg (by rintro ⟨h, -⟩; exact absurd h (by decide)), ih]
  | case4 c d s h ih =>
    rw [toyNfc, if_neg h]
    match hs : toyNfc (d :: s) with
    | [] => rfl
    | e :: r =>
      rw [hs] at ih
      have hne : ¬ (c = 0x65 ∧ e = 0x301) := by
        rintro ⟨hc, he⟩
        have hd : d ≠ 0x301 := fun hd => h ⟨hc, hd⟩
        have hhead := toyNfc_head (s := d :: s) (by simpa using hd)
        rw [hs] at hhead
        exact hhead (by rw [he]; rfl)
      rw [toyNfc, if_neg hne, ih]

/-! ## 3. The platform -/

/-- All of it together. -/
def toy : Platform where
  sha3_256 := toyDigest 32 (2 ^ 256 - 189) (5 ^ 107 + 6)
  sha3_256_length _ := toyDigest_length _ _ _ _
  hkdf length salt info ikm :=
    toyDigest length (2 ^ 512 - 569) (7 ^ 179 + 8) (lenPrefix 4 salt ++ lenPrefix 4 info ++ ikm)
  hkdf_length _ _ _ _ := toyDigest_length _ _ _ _
  encrypt := toyEncrypt
  decrypt := toyDecrypt
  nfc := toyNfc
  strRepr _ := "..."
  bytesHash b := beNat b

theorem toy_aeadExact : toy.AeadExact := by
  intro key nonce ciphertext aad data
  have hdecrypt : toy.decrypt = toyDecrypt := rfl
  have hencrypt : toy.encrypt = toyEncrypt := rfl
  rw [hdecrypt, hencrypt]
  unfold toyDecrypt
  dsimp only
  constructor
  · intro h
    split at h
    · rename_i hc
      rw [← Option.some.inj h]
      exact hc
    · exact absurd h (by simp)
  · intro h
    have hdata : ciphertext.take (ciphertext.length - 16) = data := by
      rw [h, toyEncrypt, List.length_append, toyTag_length, Nat.add_sub_cancel,
        List.take_left]
    rw [hdata, if_pos h]

theorem toy_aeadTag : toy.AeadTag := by
  intro key nonce data aad
  have hencrypt : toy.encrypt = toyEncrypt := rfl
  rw [hencrypt, toyEncrypt, List.length_append, toyTag_length]

theorem toy_nfcIdempotent : toy.NfcIdempotent := toyNfc_idempotent

theorem toy_nfcSize : toy.NfcSize toySize where
  append s t := by simp [toySize]
  pos s hs := by
    match s with
    | [] => exact absurd rfl hs
    | c :: s =>
      simp only [toySize, List.map_cons, List.sum_cons]
      split <;> omega
  invariant s t h := by
    rw [← toySize_nfc s, ← toySize_nfc t]
    exact congrArg toySize h

end Sce
