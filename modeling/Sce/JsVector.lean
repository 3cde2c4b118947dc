/-
# The second derivation, and the epochs it cannot read

`kdfInfo`, `deriveKeyMaterial` and the associated data of the script, against the functions of
`core.py` they say they must match.  Everything the script reads is text: byte strings are in
hexadecimal, the context is a string, and the epoch is a JSON integer.  The last is where the
two part.  `JSON.parse` returns a double, and `BigInt` widens what is left of the epoch.

* `TestVector` is a vector with admissible values, `TestVector.read` what the script sees of it.
* `TestVector.Reproduced` says that the script arrives at Python's info, key, commitment and
  associated data.
* `vector_reproduced_iff`: it does exactly when a double holds the epoch.
-/
import Sce.CoreSpec
import Sce.JsManifest

namespace Sce.Js

open BigEndian

variable {P : Platform} {R : Runtime}

/-! ## 1. The script -/

/-- `DOMAIN = Buffer.from("LDDP-SCE-v4")` -/
def DOMAIN : Bytes := [0x4c, 0x44, 0x44, 0x50, 0x2d, 0x53, 0x43, 0x45, 0x2d, 0x76, 0x34]

/-- `KDF_INFO_PREFIX = Buffer.from("LDDP-SCE|kdf-v4|")` -/
def KDF_INFO_PREFIX : Bytes :=
  [0x4c, 0x44, 0x44, 0x50, 0x2d, 0x53, 0x43, 0x45, 0x7c, 0x6b, 0x64, 0x66, 0x2d, 0x76, 0x34,
    0x7c]

/-- `KDF_CANON_TAG = Buffer.from("LDDP-SCE|kdf-canon-v4")` -/
def KDF_CANON_TAG : Bytes :=
  [0x4c, 0x44, 0x44, 0x50, 0x2d, 0x53, 0x43, 0x45, 0x7c, 0x6b, 0x64, 0x66, 0x2d, 0x63, 0x61,
    0x6e, 0x6f, 0x6e, 0x2d, 0x76, 0x34]

/-- `Buffer.from("|commit|")` -/
def COMMIT_LABEL : Bytes := [0x7c, 0x63, 0x6f, 0x6d, 0x6d, 0x69, 0x74, 0x7c]

/-- `Buffer.from("|hdr|")` -/
def HDR_LABEL : Bytes := [0x7c, 0x68, 0x64, 0x72, 0x7c]

/-- `lp` -/
def lp (buf : Bytes) : Bytes := u32be buf.length ++ buf

/-- The fields of a case the derivation reads, as `JSON.parse` returns them. -/
structure CaseInput where
  masterSecretHex : JsStr
  epochId : JsNumber
  contextUtf8 : JsStr
  saltHex : JsStr
  nonceHex : JsStr

/-- What `deriveKeyMaterial` returns. -/
structure KeyMaterial where
  kEnc : Bytes
  commitment : Bytes

section Script

variable (R : Runtime)

/-- `kdfInfo` -/
def kdfInfo (contextUtf8 : JsStr) (epochId : JsNumber) (memhBuf : Bytes) :
    Except JsError Bytes := do
  let epoch ← u64be epochId
  let canonical := KDF_CANON_TAG ++ lp (bufferFrom contextUtf8) ++ lp epoch ++ lp memhBuf
  return KDF_INFO_PREFIX ++ R.sha3_256 canonical

/-- `deriveKeyMaterial` -/
def deriveKeyMaterial (masterSecretHex : JsStr) (memhBuf : Bytes) (epochId : JsNumber)
    (contextUtf8 saltHex : JsStr) : Except JsError KeyMaterial := do
  let master := bufferFromHex masterSecretHex
  let salt := bufferFromHex saltHex
  let info ← kdfInfo R contextUtf8 epochId memhBuf
  let material := R.hkdfSync master salt info 64
  let kEnc := slice material 0 32
  let kComHalf := slice material 32 64
  let commitment := R.sha3_256 (DOMAIN ++ COMMIT_LABEL ++ kComHalf)
  return { kEnc, commitment }

/-- The associated data `main` puts together. -/
def caseAad (envelopeMagic : JsStr) (c : CaseInput) (mh commitment : Bytes) :
    Except JsError Bytes := do
  let MAGIC := bufferFromAscii envelopeMagic
  let version : Bytes := [if mh.length = 32 then 4 else 4]
  let nonce := bufferFromHex c.nonceHex
  let salt := bufferFromHex c.saltHex
  let headerPrefix := MAGIC ++ version ++ nonce ++ salt ++ commitment
  let epoch ← u64be c.epochId
  return DOMAIN ++ HDR_LABEL ++ headerPrefix ++ mh ++ epoch

end Script

/-- `lp` is `_lp` where both are defined. -/
theorem lp_eq {b : Bytes} (h : b.length ≤ MAX_LP_FIELD) : lp b = lenPrefix 4 b := by
  have hlt : b.length < 2 ^ 32 := by
    rw [MAX_LP_FIELD] at h
    omega
  rw [lp, u32be_of_lt hlt, lenPrefix]

theorem kdfInfo_of_epoch {contextUtf8 : JsStr} {epochId : JsNumber} {memhBuf epoch : Bytes}
    (h : u64be epochId = .ok epoch) :
    kdfInfo R contextUtf8 epochId memhBuf = .ok (KDF_INFO_PREFIX ++ R.sha3_256
      (KDF_CANON_TAG ++ lp (bufferFrom contextUtf8) ++ lp epoch ++ lp memhBuf)) := by
  rw [kdfInfo, h]
  rfl

theorem deriveKeyMaterial_of_info {masterSecretHex contextUtf8 saltHex : JsStr}
    {epochId : JsNumber} {memhBuf info : Bytes}
    (h : kdfInfo R contextUtf8 epochId memhBuf = .ok info) :
    deriveKeyMaterial R masterSecretHex memhBuf epochId contextUtf8 saltHex
      = .ok {
        kEnc := slice (R.hkdfSync (bufferFromHex masterSecretHex) (bufferFromHex saltHex) info 64)
          0 32
        commitment := R.sha3_256 (DOMAIN ++ COMMIT_LABEL ++ slice
          (R.hkdfSync (bufferFromHex masterSecretHex) (bufferFromHex saltHex) info 64) 32 64) } := by
  rw [deriveKeyMaterial, h]
  rfl

theorem caseAad_eq_ok {envelopeMagic : JsStr} {c : CaseInput} {mh commitment data : Bytes} :
    caseAad envelopeMagic c mh commitment = .ok data ↔
      ∃ epoch, u64be c.epochId = .ok epoch ∧
        DOMAIN ++ HDR_LABEL ++ (bufferFromAscii envelopeMagic ++ [if mh.length = 32 then 4 else 4]
          ++ bufferFromHex c.nonceHex ++ bufferFromHex c.saltHex ++ commitment) ++ mh ++ epoch
          = data := by
  rw [caseAad]
  cases u64be c.epochId with
  | error e => exact iff_of_false (fun h => nomatch h) (by simp)
  | ok epoch => exact ⟨fun h => ⟨epoch, rfl, Except.ok.inj h⟩, by rintro ⟨_, ⟨⟩, rfl⟩; rfl⟩

/-! ## 2. Vectors -/

/-- **An admissible vector**: a binding whose context is text, and what the seal drew. -/
structure TestVector extends Draw where
  memh : Bytes
  masterSecret : Bytes
  epochId : Nat
  context : PyStr
  memh_length : memh.length = 32
  secret_length : 16 ≤ masterSecret.length
  epochId_lt : epochId < 2 ^ 64
  context_text : ∀ c ∈ context, ¬ Surrogate c
  context_le : (utf8 context).length ≤ MAX_LP_FIELD

/-- `vectors.envelope_magic` -/
def envelopeMagic : JsStr := asciiStr MAGIC

namespace TestVector

variable (v : TestVector)

/-- What Python derives from. -/
def binding : Binding where
  memh := v.memh
  epochId := v.epochId
  context := utf8 v.context
  masterSecret := v.masterSecret
  memh_length := v.memh_length
  epochId_lt := v.epochId_lt
  context_le := v.context_le
  secret_length := v.secret_length

/-- **The published vector after `JSON.parse`.** -/
def read : CaseInput where
  masterSecretHex := hexStr v.masterSecret
  epochId := parseInteger v.epochId
  contextUtf8 := utf16 v.context
  saltHex := hexStr v.salt
  nonceHex := hexStr v.nonce

/-- `_kdf_info`, `_derive_key_material`, the header and `_aad` on the vector. -/
structure Expected (P : Platform) (info kEnc commitment data : Bytes) : Prop where
  info : (Sce.kdfInfo P (utf8 v.context) v.epochId v.memh).result = .ok info
  material : (Sce.deriveKeyMaterial P (.of v.masterSecret) v.memh v.epochId (utf8 v.context)
    v.salt).result = .ok (kEnc, commitment)
  aad : (do
    let headerPrefix ← packHeaderPrefix v.nonce v.salt commitment
    Sce.aad headerPrefix v.memh v.epochId) = .ok data

/-- **The script arrives at what Python expects.** -/
def Reproduced (R : Runtime) (P : Platform) : Prop :=
  ∃ info kEnc commitment data, v.Expected P info kEnc commitment data ∧
    kdfInfo R v.read.contextUtf8 v.read.epochId v.memh = .ok info ∧
    deriveKeyMaterial R v.read.masterSecretHex v.memh v.read.epochId v.read.contextUtf8
      v.read.saltHex = .ok { kEnc, commitment } ∧
    caseAad envelopeMagic v.read v.memh commitment = .ok data

/-- What Python expects, in closed form. -/
theorem expected (P : Platform) :
    v.Expected P (v.binding.info P) (v.binding.kEnc P v.salt) (v.binding.commitment P v.salt)
      (v.binding.aadBytes (headerBytes v.toDraw (v.binding.commitment P v.salt))) where
  info := congrArg Logged.result (kdfInfo_eq P v.binding.toEnvironment)
  material := congrArg Logged.result (deriveKeyMaterial_eq P v.binding v.salt)
  aad := by
    rw [packHeaderPrefix_eq]
    exact aad_eq v.binding.toEnvironment _

theorem Expected.unique {info info' kEnc kEnc' commitment commitment' data data' : Bytes}
    (h : v.Expected P info kEnc commitment data)
    (h' : v.Expected P info' kEnc' commitment' data') :
    info = info' ∧ kEnc = kEnc' ∧ commitment = commitment' ∧ data = data' := by
  have hinfo := Except.ok.inj (h.info.symm.trans h'.info)
  have hmaterial := Except.ok.inj (h.material.symm.trans h'.material)
  obtain ⟨rfl, rfl⟩ := Prod.mk.inj hmaterial
  exact ⟨hinfo, rfl, rfl, Except.ok.inj (h.aad.symm.trans h'.aad)⟩

/-! ## 3. What the script computes -/

/-- The info is Python's when the epoch is written as Python writes it. -/
theorem kdfInfo_read (h : R.SameHashes P)
    (hepoch : u64be v.read.epochId = .ok (beBytes 8 v.epochId)) :
    kdfInfo R v.read.contextUtf8 v.read.epochId v.memh = .ok (v.binding.info P) := by
  have hcontext : bufferFrom v.read.contextUtf8 = utf8 v.context :=
    bufferFrom_utf16 v.context_text
  have hmemh : lp v.memh = lenPrefix 4 v.memh := lp_eq v.binding.memh_le
  rw [kdfInfo_of_epoch hepoch, hcontext, lp_eq v.context_le, lp_eq (epochBytes_le _), hmemh,
    h.sha3_256]
  rfl

/-- Then so are the key and the commitment: both halves are cut from the same 64 bytes. -/
theorem deriveKeyMaterial_read (h : R.SameHashes P)
    (hepoch : u64be v.read.epochId = .ok (beBytes 8 v.epochId)) :
    deriveKeyMaterial R v.read.masterSecretHex v.memh v.read.epochId v.read.contextUtf8
      v.read.saltHex
      = .ok { kEnc := v.binding.kEnc P v.salt, commitment := v.binding.commitment P v.salt } := by
  have hmaster : bufferFromHex v.read.masterSecretHex = v.masterSecret :=
    bufferFromHex_hexStr v.masterSecret
  have hsalt : bufferFromHex v.read.saltHex = v.salt := bufferFromHex_hexStr v.salt
  have hlen : (P.hkdfOf (v.binding.hkdfInput P v.salt)).length = 64 := P.hkdf_length _ _ _ _
  have hmaterial : R.hkdfSync v.masterSecret v.salt (v.binding.info P) 64
      = P.hkdfOf (v.binding.hkdfInput P v.salt) := h.hkdfSync _ _ _ _
  have hhalf : slice (P.hkdfOf (v.binding.hkdfInput P v.salt)) 32 64
      = (P.hkdfOf (v.binding.hkdfInput P v.salt)).drop 32 := by
    rw [slice, List.take_of_length_le hlen.le]
  rw [deriveKeyMaterial_of_info (v.kdfInfo_read h hepoch), hmaster, hsalt, hmaterial, hhalf,
    h.sha3_256]
  rfl

/-- The associated data up to the epoch is Python's. -/
theorem caseAad_read {commitment data : Bytes} (hc : commitment.length = COMMIT_LEN) :
    caseAad envelopeMagic v.read v.memh commitment = .ok data ↔
      ∃ epoch, u64be v.read.epochId = .ok epoch ∧ Sce.DOMAIN ++ (Sce.HDR_LABEL
        ++ (headerBytes v.toDraw commitment ++ (v.memh ++ epoch))) = data := by
  have hnonce : bufferFromHex v.read.nonceHex = v.nonce := bufferFromHex_hexStr v.nonce
  have hsalt : bufferFromHex v.read.saltHex = v.salt := bufferFromHex_hexStr v.salt
  have hmagic : bufferFromAscii envelopeMagic = MAGIC := bufferFromAscii_asciiStr MAGIC
  have hversion : [if v.memh.length = 32 then (4 : UInt8) else 4] = beBytes 1 VERSION := by
    rw [ite_self]
    rfl
  rw [caseAad_eq_ok, hnonce, hsalt, hmagic, hversion, headerBytes, packS_of_length hc]
  simp only [List.append_assoc]
  rfl

/-! ## 4. Exactly which vectors -/

/-- **The script reproduces a vector when it reads the epoch.** -/
theorem reproduced_of_epoch (h : R.SameHashes P)
    (hepoch : u64be v.read.epochId = .ok (beBytes 8 v.epochId)) : v.Reproduced R P :=
  ⟨_, _, _, _, v.expected P, v.kdfInfo_read h hepoch, v.deriveKeyMaterial_read h hepoch,
    (v.caseAad_read (v.binding.commitment_length P v.salt)).mpr ⟨_, hepoch, rfl⟩⟩

/-- Conversely the last eight bytes of the associated data are the epoch. -/
theorem epoch_of_reproduced (h : v.Reproduced R P) :
    u64be v.read.epochId = .ok (beBytes 8 v.epochId) := by
  obtain ⟨info, kEnc, commitment, data, hexp, -, -, haad⟩ := h
  obtain ⟨-, -, rfl, rfl⟩ := hexp.unique v (v.expected P)
  obtain ⟨epoch, hepoch, hdata⟩ :=
    (v.caseAad_read (v.binding.commitment_length P v.salt)).mp haad
  have htail := List.append_cancel_left (List.append_cancel_left (List.append_cancel_left
    (List.append_cancel_left hdata)))
  rw [hepoch, htail]
  rfl

end TestVector

/-- **Which vectors the script reproduces.**  With the same hashes on both sides it arrives at
the info, the key, the commitment and the associated data of `core.py` exactly for the epochs a
double holds. -/
theorem vector_reproduced_iff (h : R.SameHashes P) (v : TestVector) :
    v.Reproduced R P ↔ Binary64.Representable v.epochId := by
  rw [← u64be_parseInteger_iff v.epochId_lt]
  exact ⟨v.epoch_of_reproduced, v.reproduced_of_epoch h⟩

/-! ## 5. On the toy runtime -/

theorem toyRuntime_sameHashes : toyRuntime.SameHashes toy where
  sha3_256 _ := rfl
  hkdfSync _ _ _ _ := rfl

/-- A vector whose context is not ASCII, at any epoch. -/
def toyVector (epochId : Nat) (h : epochId < 2 ^ 64) : TestVector where
  salt := List.replicate SALT_LEN 1
  nonce := List.replicate NONCE_LEN 2
  salt_length := List.length_replicate
  nonce_length := List.length_replicate
  memh := List.replicate 32 3
  masterSecret := List.replicate 16 4
  epochId := epochId
  context := [0x78, 0xE9]
  memh_length := List.length_replicate
  secret_length := List.length_replicate.ge
  epochId_lt := h
  context_text := by
    have hletters : ¬ Surrogate 0x78 ∧ ¬ Surrogate 0xE9 := by decide
    simpa using hletters
  context_le := by decide +kernel

/-- Above `2 ^ 53` every other epoch is a double, and reproduced. -/
theorem toyVector_reproduced : (toyVector (2 ^ 53 + 2) (by decide)).Reproduced toyRuntime toy :=
  (vector_reproduced_iff toyRuntime_sameHashes _).mpr (by decide)

/-- **The epoch between two of them is lost.** -/
theorem toyVector_not_reproduced :
    ¬ (toyVector (2 ^ 53 + 1) (by decide)).Reproduced toyRuntime toy := by
  intro h
  have hepoch := TestVector.epoch_of_reproduced _ h
  exact absurd ((u64be_parseInteger_iff (by decide)).mp hepoch) (by decide)

end Sce.Js
