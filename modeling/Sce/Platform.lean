/-
# The code outside the repository, and what is recorded of its use

The package computes nothing cryptographic itself.  SHA3-256 comes from `hashlib`, HKDF and
AES-GCM-SIV from the `cryptography` package, NFC from `unicodedata`.  `Platform` collects these
as parameters.  The only facts built into it are the output lengths of the two hashes; every
other property is a named hypothesis of the theorems that need it.

One assumption is in the types: the functions are total.  The real cipher raises exceptions of
its own: on a key or a nonce of the wrong size, which `PrimitiveUse.lean` shows it is never given,
and on more data than it takes, a limit that the package does not check and the model leaves out.
What is said of states beyond that limit is said of a cipher without it.

The functions of the package run in `Py`, which records each evaluation of a primitive as an
`Event`.  The assumptions of section 3 quantify over such logs:

* a collision-freeness assumption speaks of the inputs evaluated, not of all inputs, since a
  function to 32 bytes has collisions somewhere;
* authenticity of the AEAD speaks of the decryptions attempted, since a cipher that decrypts
  what it encrypts accepts infinitely many ciphertexts nobody ever made.
-/
import Sce.Python

namespace Sce

/-! ## 1. The platform -/

/-- The functions the package calls and does not define. -/
structure Platform where
  /-- `hashlib.sha3_256(x).digest()` -/
  sha3_256 : Bytes → Bytes
  sha3_256_length : ∀ x, (sha3_256 x).length = 32
  /-- `HKDF(algorithm=SHA3_256(), length, salt, info).derive(ikm)` -/
  hkdf : (length : Nat) → (salt info ikm : Bytes) → Bytes
  hkdf_length : ∀ length salt info ikm, (hkdf length salt info ikm).length = length
  /-- `AESGCMSIV(key).encrypt(nonce, data, aad)` -/
  encrypt : (key nonce data aad : Bytes) → Bytes
  /-- `AESGCMSIV(key).decrypt(nonce, ciphertext, aad)`; `none` is `InvalidTag` -/
  decrypt : (key nonce ciphertext aad : Bytes) → Option Bytes
  /-- `unicodedata.normalize("NFC", s)` -/
  nfc : PyStr → PyStr
  /-- `repr(s)`, which one error message quotes -/
  strRepr : PyStr → String
  /-- `hash(b)` of a `bytes` object -/
  bytesHash : Bytes → Int

/-! ## 2. Events -/

/-- One call of `AESGCMSIV.encrypt`. -/
structure Encryption where
  key : Bytes
  nonce : Bytes
  data : Bytes
  aad : Bytes
  deriving DecidableEq

/-- One call of `AESGCMSIV.decrypt`. -/
structure Decryption where
  key : Bytes
  nonce : Bytes
  ciphertext : Bytes
  aad : Bytes
  deriving DecidableEq

/-- One call of `HKDF.derive`. -/
structure HkdfInput where
  length : Nat
  salt : Bytes
  info : Bytes
  ikm : Bytes
  deriving DecidableEq

/-- What a run records. -/
inductive Event
  | sha3 (input : Bytes)
  | hkdf (input : HkdfInput)
  | encrypt (call : Encryption)
  | decrypt (call : Decryption)
  | streamId (id : Bytes)
  deriving DecidableEq

/-- Code that may raise and that leaves its evaluations of the primitives behind. -/
abbrev Py := Logged Event PyExc

namespace Platform

variable (P : Platform)

def sha3 (input : Bytes) : Py Bytes := .perform (.sha3 input) (P.sha3_256 input)

def hkdfOf (q : HkdfInput) : Bytes := P.hkdf q.length q.salt q.info q.ikm

def deriveHkdf (q : HkdfInput) : Py Bytes := .perform (.hkdf q) (P.hkdfOf q)

/-- The ciphertext an encryption produces. -/
def ciphertextOf (e : Encryption) : Bytes := P.encrypt e.key e.nonce e.data e.aad

def aeadEncrypt (e : Encryption) : Py Bytes := .perform (.encrypt e) (P.ciphertextOf e)

/-- The plaintext a decryption releases, if any. -/
def plaintextOf (d : Decryption) : Option Bytes := P.decrypt d.key d.nonce d.ciphertext d.aad

def aeadDecrypt (d : Decryption) : Py (Option Bytes) := .perform (.decrypt d) (P.plaintextOf d)

end Platform

/-- The inputs SHA3-256 was evaluated at. -/
def sha3Inputs (log : List Event) : List Bytes :=
  log.filterMap fun | .sha3 x => some x | _ => none

/-- The inputs HKDF was evaluated at. -/
def hkdfInputs (log : List Event) : List HkdfInput :=
  log.filterMap fun | .hkdf q => some q | _ => none

/-- The encryptions performed, in order. -/
def encryptions (log : List Event) : List Encryption :=
  log.filterMap fun | .encrypt e => some e | _ => none

/-- The decryptions attempted, in order. -/
def decryptions (log : List Event) : List Decryption :=
  log.filterMap fun | .decrypt d => some d | _ => none

/-- The stream ids drawn, in order. -/
def streamIds (log : List Event) : List Bytes :=
  log.filterMap fun | .streamId s => some s | _ => none

/-- Reading off one kind of event. -/
theorem mem_filterMap_event {α : Type} {f : Event → Option α} {mk : α → Event}
    (h : ∀ e a, f e = some a ↔ e = mk a) {log : List Event} {a : α} :
    a ∈ log.filterMap f ↔ mk a ∈ log := by
  simp [List.mem_filterMap, h]

@[simp] theorem mem_sha3Inputs {log : List Event} {x : Bytes} :
    x ∈ sha3Inputs log ↔ .sha3 x ∈ log :=
  mem_filterMap_event fun e _ => by cases e <;> simp

@[simp] theorem mem_hkdfInputs {log : List Event} {q : HkdfInput} :
    q ∈ hkdfInputs log ↔ .hkdf q ∈ log :=
  mem_filterMap_event fun e _ => by cases e <;> simp

@[simp] theorem mem_encryptions {log : List Event} {c : Encryption} :
    c ∈ encryptions log ↔ .encrypt c ∈ log :=
  mem_filterMap_event fun e _ => by cases e <;> simp

@[simp] theorem mem_decryptions {log : List Event} {d : Decryption} :
    d ∈ decryptions log ↔ .decrypt d ∈ log :=
  mem_filterMap_event fun e _ => by cases e <;> simp

theorem decryptions_append (log log' : List Event) :
    decryptions (log ++ log') = decryptions log ++ decryptions log' := List.filterMap_append

/-! ## 3. What may be assumed of the platform -/

namespace Platform

variable (P : Platform)

/-- No SHA3-256 collision among the inputs evaluated. -/
def Sha3CollisionFree (log : List Event) : Prop := NoCollision P.sha3_256 (sha3Inputs log)

/-- No HKDF collision among the inputs evaluated. -/
def HkdfCollisionFree (log : List Event) : Prop := NoCollision P.hkdfOf (hkdfInputs log)

/-- No collision of the first 32 bytes of the HKDF output, those the encryption key is. -/
def EncHalfCollisionFree (log : List Event) : Prop :=
  NoCollision (fun q => (P.hkdfOf q).take 32) (hkdfInputs log)

/-- No collision of the rest of the HKDF output, the half the commitment is made of. -/
def ComHalfCollisionFree (log : List Event) : Prop :=
  NoCollision (fun q => (P.hkdfOf q).drop 32) (hkdfInputs log)

instance (log : List Event) : Decidable (P.Sha3CollisionFree log) :=
  inferInstanceAs (Decidable (NoCollision _ _))

instance (log : List Event) : Decidable (P.HkdfCollisionFree log) :=
  inferInstanceAs (Decidable (NoCollision _ _))

instance (log : List Event) : Decidable (P.EncHalfCollisionFree log) :=
  inferInstanceAs (Decidable (NoCollision _ _))

instance (log : List Event) : Decidable (P.ComHalfCollisionFree log) :=
  inferInstanceAs (Decidable (NoCollision _ _))

/-- Decrypting an encryption under the same key, nonce and associated data gives the
plaintext. -/
def AeadCorrect : Prop :=
  ∀ key nonce data aad, P.decrypt key nonce (P.encrypt key nonce data aad) aad = some data

/-- A ciphertext is 16 bytes longer than its plaintext. -/
def AeadTag : Prop :=
  ∀ key nonce data aad, (P.encrypt key nonce data aad).length = data.length + 16

/-- Decryption succeeds exactly on encryptions under the same key, nonce and associated
data. -/
def AeadExact : Prop :=
  ∀ key nonce ciphertext aad data,
    P.decrypt key nonce ciphertext aad = some data ↔
      ciphertext = P.encrypt key nonce data aad

/-- **Authenticity.**  Every decryption attempted in `opened` that succeeds is of a ciphertext
some encryption of `issued` produced for the same key, nonce and associated data. -/
def AeadAuthentic (issued opened : List Event) : Prop :=
  ∀ d ∈ decryptions opened, (P.plaintextOf d).isSome →
    ∃ e ∈ encryptions issued, e.key = d.key ∧ e.nonce = d.nonce ∧ e.aad = d.aad ∧
      P.ciphertextOf e = d.ciphertext

instance (issued opened : List Event) : Decidable (P.AeadAuthentic issued opened) :=
  inferInstanceAs (Decidable (∀ d ∈ decryptions opened, (P.plaintextOf d).isSome →
    ∃ e ∈ encryptions issued, e.key = d.key ∧ e.nonce = d.nonce ∧ e.aad = d.aad ∧
      P.ciphertextOf e = d.ciphertext))

variable {P}

theorem AeadExact.correct (h : P.AeadExact) : P.AeadCorrect :=
  fun key nonce data aad => (h key nonce _ aad data).mpr rfl

/-- Two different halves make two different outputs. -/
theorem EncHalfCollisionFree.hkdf {log : List Event} (h : P.EncHalfCollisionFree log) :
    P.HkdfCollisionFree log :=
  fun x hx y hy he => h x hx y hy (congrArg (List.take 32) he)

/-- NFC applied twice is NFC applied once. -/
def NfcIdempotent (P : Platform) : Prop := ∀ s, P.nfc (P.nfc s) = P.nfc s

/-- `size` counts characters in a way normalisation cannot change: as the length of the full
canonical decomposition does, which NFC only reorders and recomposes, and to which every
character contributes at least one. -/
structure NfcSize (P : Platform) (size : PyStr → Nat) : Prop where
  append : ∀ s t, size (s ++ t) = size s + size t
  pos : ∀ s, s ≠ [] → 0 < size s
  invariant : ∀ s t, P.nfc s = P.nfc t → size s = size t

end Platform

end Sce
