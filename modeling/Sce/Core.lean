/-
# Sealing and unsealing one envelope

`seal_state` and `unseal_state` of `sce/core.py`, with everything between them and the
primitives: the argument checks in the order the code makes them, the derivation of key and
commitment, the associated data, the wire layout and its structural parse.

* What `os.urandom` returns is an argument (`Draw`), so a theorem about every draw is a theorem
  about every value of that argument.
* The two entry points are written over an arbitrary key derivation (`Deriver`), and the
  package's own is put in at the end.  Nothing else of them looks into how keys are made.
* Each check keeps its error class and its text.
-/
import Sce.Manifest

namespace Sce

open BigEndian

/-! ## 1. Constants -/

/-- `_MAGIC = b"SCE4"` -/
def MAGIC : Bytes := [0x53, 0x43, 0x45, 0x34]

def VERSION : Nat := 4

def NONCE_LEN : Nat := 12

def SALT_LEN : Nat := 16

def TAG_LEN : Nat := 16

def COMMIT_LEN : Nat := 32

def KEY_LEN : Nat := 32

/-- `_DOMAIN = b"LDDP-SCE-v4"` -/
def DOMAIN : Bytes := [0x4c, 0x44, 0x44, 0x50, 0x2d, 0x53, 0x43, 0x45, 0x2d, 0x76, 0x34]

/-- `_KDF_INFO_PREFIX = b"LDDP-SCE|kdf-v4|"` -/
def KDF_INFO_PREFIX : Bytes :=
  [0x4c, 0x44, 0x44, 0x50, 0x2d, 0x53, 0x43, 0x45, 0x7c, 0x6b, 0x64, 0x66, 0x2d, 0x76, 0x34,
    0x7c]

/-- `_KDF_CANON_TAG = b"LDDP-SCE|kdf-canon-v4"` -/
def KDF_CANON_TAG : Bytes :=
  [0x4c, 0x44, 0x44, 0x50, 0x2d, 0x53, 0x43, 0x45, 0x7c, 0x6b, 0x64, 0x66, 0x2d, 0x63, 0x61,
    0x6e, 0x6f, 0x6e, 0x2d, 0x76, 0x34]

/-- `b"|commit|"` -/
def COMMIT_LABEL : Bytes := [0x7c, 0x63, 0x6f, 0x6d, 0x6d, 0x69, 0x74, 0x7c]

/-- `b"|hdr|"` -/
def HDR_LABEL : Bytes := [0x7c, 0x68, 0x64, 0x72, 0x7c]

def SEAL_COUNT_CEILING_PER_KEY : Nat := 2 ^ 40

/-- `_MAX_STATE`: the longest plaintext whose ciphertext the 4-byte frame can hold. -/
def MAX_STATE : Nat := 2 ^ 32 - 1 - TAG_LEN

/-- `_HEADER_PREFIX.size` -/
def HEADER_PREFIX_size : Nat := 4 + 1 + NONCE_LEN + SALT_LEN + COMMIT_LEN

/-- `_CTLEN.size` -/
def CTLEN_size : Nat := 4

theorem MAGIC_length : MAGIC.length = 4 := rfl

theorem HEADER_PREFIX_size_eq : HEADER_PREFIX_size = 65 := rfl

theorem CTLEN_size_eq : CTLEN_size = 4 := rfl

def MISMATCH_MESSAGE : String :=
  "sealed state could not be opened under the presented environment"

/-- `StateSealMismatch()` -/
def mismatch : PyExc := .stateSealMismatch MISMATCH_MESSAGE

/-! ## 2. Argument checks -/

variable (P : Platform)

/-- `_require_manifest` -/
def requireManifest : Arg (Manifest P) → Except PyExc (Manifest P)
  | .of manifest => .ok manifest
  | .other typeName =>
    .error (.sceError ("manifest must be a ModelManifest, got " ++ typeName))

/-- `_require_envelope_bytes` -/
def requireEnvelopeBytes (what : String) : Arg Carrier → Except PyExc Bytes
  | .of blob => .ok blob.toBytes
  | .other typeName => .error (.malformedEnvelope (what ++ " must be bytes, got " ++ typeName))

/-- The `isinstance(state, (bytes, bytearray))` check. -/
def requireState : Arg Bytes → Except PyExc Bytes
  | .of state => .ok state
  | .other _ =>
    .error (.sceError "state must be bytes; serialise your tensors/objects first")

/-- The `isinstance(context, (bytes, bytearray))` check. -/
def requireContext : Arg Bytes → Except PyExc Bytes
  | .of context => .ok context
  | .other _ => .error (.sceError "context must be bytes")

/-- The cap on a single sealed payload. -/
def checkStateLength (state : Bytes) : Except PyExc Unit :=
  if state.length > MAX_STATE then
    .error (.sceError
      ("state is " ++ toString state.length ++ " bytes; SCE's uint32 length frame caps a single "
        ++ "sealed payload at " ++ toString MAX_STATE ++ " bytes (~4 GiB). Chunk a large "
        ++ "KV-cache, or seal a compact / summarised state instead."))
  else .ok ()

/-- The cap on a context. -/
def checkContextLength (context : Bytes) : Except PyExc Unit :=
  if context.length > MAX_LP_FIELD then
    .error (.sceError "context exceeds the 4-byte length-prefix limit (~4 GiB)")
  else .ok ()

/-- The opt-in ceiling; `none` is Python's `None`. -/
def checkSealCount : Option (Arg Int) → Except PyExc Unit
  | none => .ok ()
  | some (.other _) => .error (.sceError "seal_count must be a non-negative integer or None")
  | some (.of n) =>
    if n < 0 then .error (.sceError "seal_count must be a non-negative integer or None")
    else if n ≥ SEAL_COUNT_CEILING_PER_KEY then
      .error (.sceError
        ("seal_count " ++ toString n ++ " has reached SEAL_COUNT_CEILING_PER_KEY "
          ++ "(" ++ toString SEAL_COUNT_CEILING_PER_KEY ++ "); rotate the master secret or bump "
          ++ "the epoch. SCE is stateless and cannot track this for you -- the caller must "
          ++ "pass and persist a monotonic per-(secret, epoch) count."))
    else .ok ()

/-- `_check_epoch` -/
def checkEpoch : Arg Int → Except PyExc Int
  | .other _ => .error (.sceError "epoch_id must be an integer in [0, 2**64)")
  | .of epochId =>
    if 0 ≤ epochId ∧ epochId < 2 ^ 64 then .ok epochId
    else .error (.sceError "epoch_id must be an integer in [0, 2**64)")

/-- The two checks at the head of `_derive_key_material`. -/
def requireSecret : Arg Bytes → Except PyExc Bytes
  | .other typeName =>
    .error (.sceError
      ("master_secret must be bytes, got " ++ typeName ++ "; "
        ++ "pass raw key bytes (e.g. os.urandom(32)), not a str"))
  | .of masterSecret =>
    if masterSecret.length < 16 then
      .error (.sceError
        ("master_secret must be >= 16 bytes of high-entropy key material. Note "
          ++ "that LENGTH IS NOT ENTROPY: this must be random bytes from a CSPRNG "
          ++ "(os.urandom / secrets.token_bytes) or a KMS/HSM key, NOT a password or "
          ++ "passphrase. If you only have a password, stretch it with a memory-hard "
          ++ "KDF (Argon2id/scrypt) first -- SCE does not do that for you."))
    else .ok masterSecret

/-! ## 3. Key derivation, commitment and associated data -/

/-- `_lp` -/
def lp (b : Bytes) : Except PyExc Bytes :=
  if b.length > MAX_LP_FIELD then
    .error (.sceError "length-prefixed field exceeds the 4-byte limit (~4 GiB)")
  else do
    let n ← toBytes b.length 4
    return n ++ b

/-- `_kdf_info` -/
def kdfInfo (context : Bytes) (epochId : Int) (memh : Bytes) : Py Bytes := do
  let context ← lp context
  let epoch ← toBytes epochId 8
  let epoch ← lp epoch
  let memh ← lp memh
  let digest ← P.sha3 (KDF_CANON_TAG ++ context ++ epoch ++ memh)
  return KDF_INFO_PREFIX ++ digest

/-- `_derive_key_material` -/
def deriveKeyMaterial (masterSecret : Arg Bytes) (memh : Bytes) (epochId : Int)
    (context salt : Bytes) : Py (Bytes × Bytes) := do
  let masterSecret ← requireSecret masterSecret
  let info ← kdfInfo P context epochId memh
  let material ← P.deriveHkdf
    { length := KEY_LEN * 2, salt := salt, info := info, ikm := masterSecret }
  let kEnc := material.take KEY_LEN
  let kComHalf := material.drop KEY_LEN
  let commitment ← P.sha3 (DOMAIN ++ COMMIT_LABEL ++ kComHalf)
  return (kEnc, commitment)

/-- `_aad` -/
def aad (headerPrefix memh : Bytes) (epochId : Int) : Except PyExc Bytes := do
  let epoch ← toBytes epochId 8
  return DOMAIN ++ HDR_LABEL ++ headerPrefix ++ memh ++ epoch

/-- `_HEADER_PREFIX.pack(_MAGIC, _VERSION, nonce, salt, commitment)` -/
def packHeaderPrefix (nonce salt commitment : Bytes) : Except PyExc Bytes := do
  let version ← packUInt 1 VERSION
  return packS 4 MAGIC ++ version ++ packS NONCE_LEN nonce ++ packS SALT_LEN salt
    ++ packS COMMIT_LEN commitment

/-! ## 4. Sealing -/

/-- What one seal draws from `os.urandom`. -/
@[ext] structure Draw where
  salt : Bytes
  nonce : Bytes
  salt_length : salt.length = SALT_LEN
  nonce_length : nonce.length = NONCE_LEN

/-- A function in the place of `_derive_key_material`. -/
abbrev Deriver :=
  (masterSecret : Arg Bytes) → (memh : Bytes) → (epochId : Int) → (context salt : Bytes) →
    Py (Bytes × Bytes)

/-- `seal_state`, over an arbitrary key derivation. -/
def sealStateWith (derive : Deriver) (draw : Draw) (state : Arg Bytes)
    (manifest : Arg (Manifest P)) (masterSecret : Arg Bytes) (epochId : Arg Int := .of 0)
    (context : Arg Bytes := .of []) (sealCount : Option (Arg Int) := none) : Py Bytes := do
  let manifest ← requireManifest P manifest
  let state ← requireState state
  checkStateLength state
  let context ← requireContext context
  checkContextLength context
  checkSealCount sealCount
  let epochId ← checkEpoch epochId
  let memh := manifest.memh
  let (kEnc, commitment) ← derive masterSecret memh epochId context draw.salt
  let headerPrefix ← packHeaderPrefix draw.nonce draw.salt commitment
  let data ← aad headerPrefix memh epochId
  let ciphertext ← P.aeadEncrypt { key := kEnc, nonce := draw.nonce, data := state, aad := data }
  let ctLen ← packUInt CTLEN_size ciphertext.length
  return headerPrefix ++ ctLen ++ ciphertext

/-- `seal_state` -/
def sealState (draw : Draw) (state : Arg Bytes) (manifest : Arg (Manifest P))
    (masterSecret : Arg Bytes) (epochId : Arg Int := .of 0) (context : Arg Bytes := .of [])
    (sealCount : Option (Arg Int) := none) : Py Bytes :=
  sealStateWith P (deriveKeyMaterial P) draw state manifest masterSecret epochId context
    sealCount

/-! ## 5. Unsealing -/

/-- What `_parse` returns: the header prefix, the fields unpacked from it, the ciphertext. -/
structure Parsed where
  headerPrefix : Bytes
  nonce : Bytes
  salt : Bytes
  commitment : Bytes
  ciphertext : Bytes

/-- `_parse` after the type check. -/
def parseBytes (sealed : Bytes) : Except PyExc Parsed :=
  if sealed.length < HEADER_PREFIX_size + CTLEN_size then
    .error (.malformedEnvelope "sealed blob is shorter than the SCE header")
  else
    let headerPrefix := slice sealed 0 HEADER_PREFIX_size
    let magic := slice headerPrefix 0 4
    let version := beNat (slice headerPrefix 4 5)
    let nonce := slice headerPrefix 5 17
    let salt := slice headerPrefix 17 33
    let commitment := slice headerPrefix 33 65
    if magic ≠ MAGIC then .error (.malformedEnvelope "bad magic: not an SCE v4 envelope")
    else if version ≠ VERSION then
      .error (.malformedEnvelope ("unsupported SCE envelope version " ++ toString version))
    else
      let off := HEADER_PREFIX_size
      let ctLen := beNat (slice sealed off (off + CTLEN_size))
      let ciphertext := sealed.drop (off + CTLEN_size)
      if ciphertext.length ≠ ctLen then
        .error (.malformedEnvelope "declared ciphertext length does not match envelope")
      else if ciphertext.length < TAG_LEN then
        .error (.malformedEnvelope "ciphertext shorter than the authentication tag")
      else .ok { headerPrefix, nonce, salt, commitment, ciphertext }

/-- `_parse` -/
def parse (sealed : Arg Carrier) : Except PyExc Parsed := do
  let sealed ← requireEnvelopeBytes "sealed envelope" sealed
  parseBytes sealed

/-- The end of `unseal_state`: the plaintext only if both checks passed. -/
def release (commitmentOk : Bool) : Option Bytes → Except PyExc Bytes
  | some plaintext => if commitmentOk then .ok plaintext else .error mismatch
  | none => .error mismatch

/-- `unseal_state`, over an arbitrary key derivation. -/
def unsealStateWith (derive : Deriver) (sealed : Arg Carrier) (manifest : Arg (Manifest P))
    (masterSecret : Arg Bytes) (epochId : Arg Int := .of 0) (context : Arg Bytes := .of []) :
    Py Bytes := do
  let manifest ← requireManifest P manifest
  let context ← requireContext context
  checkContextLength context
  let epochId ← checkEpoch epochId
  let p ← parse sealed
  let memhPresent := manifest.memh
  let (kEnc, commitExpected) ← derive masterSecret memhPresent epochId context p.salt
  let commitmentOk := p.commitment == commitExpected
  -- the AEAD is opened whatever the commitment says
  let data ← aad p.headerPrefix memhPresent epochId
  let plaintext ← P.aeadDecrypt
    { key := kEnc, nonce := p.nonce, ciphertext := p.ciphertext, aad := data }
  release commitmentOk plaintext

/-- `unseal_state` -/
def unsealState (sealed : Arg Carrier) (manifest : Arg (Manifest P)) (masterSecret : Arg Bytes)
    (epochId : Arg Int := .of 0) (context : Arg Bytes := .of []) : Py Bytes :=
  unsealStateWith P (deriveKeyMaterial P) sealed manifest masterSecret epochId context

end Sce
