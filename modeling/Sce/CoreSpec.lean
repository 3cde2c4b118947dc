/-
# What sealing and unsealing compute

The closed forms behind `Core.lean`, on values that carry their own validity.

* `Environment` and `Binding` are the parameters that pass every check of an entry point: the
  manifest's fingerprint, the epoch and the context; then the secret too.  On these the
  derivation cannot fail, and `deriveKeyMaterial_eq` says what it returns and records.
* `Envelope` is the wire format as a value.  `parseBytes` accepts exactly the bytes of these
  (`parseBytes_eq_ok`).
* The header, the associated data and the KDF input are each given in closed form, with the
  fact that they determine what they were made from.
-/
import Sce.Core

namespace Sce

open BigEndian

/-! ## 1. Parameters that pass the checks -/

/-- **What a seal and an unseal must agree on**, apart from the secret. -/
@[ext] structure Environment where
  memh : Bytes
  epochId : Nat
  context : Bytes
  memh_length : memh.length = 32
  epochId_lt : epochId < 2 ^ 64
  context_le : context.length ≤ MAX_LP_FIELD

/-- An environment with an admissible secret. -/
@[ext] structure Binding extends Environment where
  masterSecret : Bytes
  secret_length : 16 ≤ masterSecret.length

/-- The arguments of an entry point present the environment `E`. -/
structure Environment.PresentedBy {P : Platform} (E : Environment) (manifest : Arg (Manifest P))
    (epochId : Arg Int) (context : Arg Bytes) : Prop where
  manifest : ∃ M, manifest = .of M ∧ M.memh = E.memh
  epochId : epochId = .of (E.epochId : Int)
  context : context = .of E.context

/-- The arguments of an entry point present the binding `b`. -/
structure Binding.PresentedBy {P : Platform} (b : Binding) (manifest : Arg (Manifest P))
    (masterSecret : Arg Bytes) (epochId : Arg Int) (context : Arg Bytes) : Prop
    extends b.toEnvironment.PresentedBy manifest epochId context where
  masterSecret : masterSecret = .of b.masterSecret

/-- The same arguments present one binding only. -/
theorem Binding.PresentedBy.unique {P : Platform} {b b' : Binding} {manifest : Arg (Manifest P)}
    {masterSecret : Arg Bytes} {epochId : Arg Int} {context : Arg Bytes}
    (h : b.PresentedBy manifest masterSecret epochId context)
    (h' : b'.PresentedBy manifest masterSecret epochId context) : b = b' := by
  obtain ⟨⟨⟨M, hM, hmemh⟩, hepoch, hcontext⟩, hsecret⟩ := h
  obtain ⟨⟨⟨M', hM', hmemh'⟩, hepoch', hcontext'⟩, hsecret'⟩ := h'
  have hMM : M = M' := by
    rw [hM] at hM'
    exact Arg.of.inj hM'
  refine Binding.ext ?_ ?_ ?_ ?_
  · rw [← hmemh, ← hmemh', hMM]
  · rw [hepoch] at hepoch'
    exact_mod_cast Arg.of.inj hepoch'
  · rw [hcontext] at hcontext'
    exact Arg.of.inj hcontext'
  · rw [hsecret] at hsecret'
    exact Arg.of.inj hsecret'

theorem Environment.memh_le (E : Environment) : E.memh.length ≤ MAX_LP_FIELD := by
  rw [E.memh_length]
  decide

/-! ## 2. The derived key and commitment -/

/-- The bytes `_kdf_info` hashes. -/
def Environment.kdfCanonical (E : Environment) : Bytes :=
  KDF_CANON_TAG ++ lenPrefix 4 E.context ++ lenPrefix 4 (beBytes 8 E.epochId)
    ++ lenPrefix 4 E.memh

/-- The HKDF `info`. -/
def Environment.info (P : Platform) (E : Environment) : Bytes :=
  KDF_INFO_PREFIX ++ P.sha3_256 E.kdfCanonical

namespace Binding

variable (P : Platform) (b : Binding) (salt : Bytes)

/-- The question HKDF is asked. -/
def hkdfInput : HkdfInput :=
  { length := 64, salt := salt, info := b.info P, ikm := b.masterSecret }

def kEnc : Bytes := (P.hkdfOf (b.hkdfInput P salt)).take 32

/-- The bytes the commitment is a hash of. -/
def commitInput : Bytes := DOMAIN ++ COMMIT_LABEL ++ (P.hkdfOf (b.hkdfInput P salt)).drop 32

def commitment : Bytes := P.sha3_256 (b.commitInput P salt)

/-- What a derivation records. -/
def deriveLog : List Event :=
  [.sha3 b.kdfCanonical, .hkdf (b.hkdfInput P salt), .sha3 (b.commitInput P salt)]

@[simp] theorem commitment_length : (b.commitment P salt).length = 32 := P.sha3_256_length _

end Binding

theorem lp_of_le {b : Bytes} (h : b.length ≤ MAX_LP_FIELD) : lp b = .ok (lenPrefix 4 b) := by
  rw [lp, if_neg (by omega), toBytes_natCast (lt_of_le_MAX_LP_FIELD h)]
  rfl

theorem epoch_toBytes {e : Nat} (h : e < 2 ^ 64) :
    toBytes (e : Int) 8 = .ok (beBytes 8 e) :=
  toBytes_natCast (h.trans_le (by decide))

theorem epochBytes_le (e : Nat) : (beBytes 8 e).length ≤ MAX_LP_FIELD := by
  rw [beBytes_length]
  decide

/-- The bytes `_kdf_info` hashes, for any lengths its prefixes can carry. -/
def kdfCanonicalBytes (context : Bytes) (epochId : Nat) (memh : Bytes) : Bytes :=
  KDF_CANON_TAG ++ lenPrefix 4 context ++ lenPrefix 4 (beBytes 8 epochId) ++ lenPrefix 4 memh

/-- **`_kdf_info` on arguments that fit their prefixes.** -/
theorem kdfInfo_eq_of_fits (P : Platform) {context memh : Bytes} {epochId : Nat}
    (hcontext : context.length ≤ MAX_LP_FIELD) (hepochId : epochId < 2 ^ 64)
    (hmemh : memh.length ≤ MAX_LP_FIELD) :
    kdfInfo P context epochId memh = ⟨[.sha3 (kdfCanonicalBytes context epochId memh)],
      .ok (KDF_INFO_PREFIX ++ P.sha3_256 (kdfCanonicalBytes context epochId memh))⟩ := by
  have hepoch : lp (beBytes 8 epochId) = .ok (lenPrefix 4 (beBytes 8 epochId)) :=
    lp_of_le (epochBytes_le epochId)
  unfold kdfInfo
  rw [lp_of_le hcontext, epoch_toBytes hepochId, Logged.liftM_ok, Logged.pure_bind,
    Logged.liftM_ok, Logged.pure_bind, hepoch, lp_of_le hmemh]
  rfl

theorem kdfInfo_eq (P : Platform) (E : Environment) :
    kdfInfo P E.context E.epochId E.memh = ⟨[.sha3 E.kdfCanonical], .ok (E.info P)⟩ :=
  kdfInfo_eq_of_fits P E.context_le E.epochId_lt E.memh_le

theorem requireSecret_eq_ok {a : Arg Bytes} {secret : Bytes} :
    requireSecret a = .ok secret ↔ a = .of secret ∧ 16 ≤ secret.length := by
  match a with
  | .other typeName => simp [requireSecret]
  | .of s =>
    simp only [requireSecret, Arg.of.injEq]
    split
    · rename_i h
      simp only [reduceCtorEq, false_iff]
      rintro ⟨rfl, hlen⟩
      omega
    · rename_i h
      simp only [Except.ok.injEq]
      constructor
      · rintro rfl
        exact ⟨rfl, by omega⟩
      · exact fun hs => hs.1

/-- **The derivation on admissible parameters.** -/
theorem deriveKeyMaterial_eq (P : Platform) (b : Binding) (salt : Bytes) :
    deriveKeyMaterial P (.of b.masterSecret) b.memh b.epochId b.context salt
      = ⟨b.deriveLog P salt, .ok (b.kEnc P salt, b.commitment P salt)⟩ := by
  unfold deriveKeyMaterial
  rw [requireSecret_eq_ok.mpr ⟨rfl, b.secret_length⟩, kdfInfo_eq]
  rfl

/-! ## 3. The header and the associated data -/

/-- The header prefix a draw and a commitment make. -/
def headerBytes (draw : Draw) (commitment : Bytes) : Bytes :=
  MAGIC ++ (beBytes 1 VERSION ++ (draw.nonce ++ (draw.salt ++ packS COMMIT_LEN commitment)))

theorem packHeaderPrefix_eq (draw : Draw) (commitment : Bytes) :
    packHeaderPrefix draw.nonce draw.salt commitment = .ok (headerBytes draw commitment) := by
  unfold packHeaderPrefix headerBytes
  rw [packUInt_of_lt (by decide), packS_of_length MAGIC_length,
    packS_of_length draw.nonce_length, packS_of_length draw.salt_length]
  simp only [List.append_assoc]
  rfl

@[simp] theorem headerBytes_length (draw : Draw) (commitment : Bytes) :
    (headerBytes draw commitment).length = 65 := by
  simp only [headerBytes, List.length_append, beBytes_length, packS_length, draw.nonce_length,
    draw.salt_length]
  rfl

/-- **The header determines the draw and the stored commitment.** -/
theorem headerBytes_inj {d d' : Draw} {c c' : Bytes} (h : headerBytes d c = headerBytes d' c') :
    d = d' ∧ packS COMMIT_LEN c = packS COMMIT_LEN c' := by
  have h := List.append_cancel_left (List.append_cancel_left h)
  obtain ⟨hnonce, h⟩ := List.append_inj h (d.nonce_length.trans d'.nonce_length.symm)
  obtain ⟨hsalt, hcommit⟩ := List.append_inj h (d.salt_length.trans d'.salt_length.symm)
  exact ⟨Draw.ext hsalt hnonce, hcommit⟩

/-- The associated data of an environment and a header. -/
def Environment.aadBytes (E : Environment) (header : Bytes) : Bytes :=
  DOMAIN ++ (HDR_LABEL ++ (header ++ (E.memh ++ beBytes 8 E.epochId)))

theorem aad_eq (E : Environment) (header : Bytes) :
    aad header E.memh E.epochId = .ok (E.aadBytes header) := by
  unfold aad Environment.aadBytes
  rw [epoch_toBytes E.epochId_lt]
  simp only [List.append_assoc]
  rfl

/-- **The associated data determines the header, the fingerprint and the epoch**: before the
end every field has one width. -/
theorem aadBytes_inj {E E' : Environment} {header header' : Bytes}
    (hlen : header.length = header'.length) (h : E.aadBytes header = E'.aadBytes header') :
    header = header' ∧ E.memh = E'.memh ∧ E.epochId = E'.epochId := by
  have h := List.append_cancel_left (List.append_cancel_left h)
  obtain ⟨hheader, h⟩ := List.append_inj h hlen
  obtain ⟨hmemh, hepoch⟩ := List.append_inj h (E.memh_length.trans E'.memh_length.symm)
  refine ⟨hheader, hmemh, beBytes_inj ?_ ?_ hepoch⟩
  · exact E.epochId_lt.trans_le (by decide)
  · exact E'.epochId_lt.trans_le (by decide)

/-- **The hashed KDF input determines what it was made from**, by the length prefixes. -/
theorem kdfCanonicalBytes_inj {c c' m m' : Bytes} {e e' : Nat} (hc : c.length ≤ MAX_LP_FIELD)
    (hc' : c'.length ≤ MAX_LP_FIELD) (he : e < 2 ^ 64) (he' : e' < 2 ^ 64)
    (hm : m.length ≤ MAX_LP_FIELD) (hm' : m'.length ≤ MAX_LP_FIELD)
    (h : kdfCanonicalBytes c e m = kdfCanonicalBytes c' e' m') : c = c' ∧ e = e' ∧ m = m' := by
  simp only [kdfCanonicalBytes, List.append_assoc] at h
  have h := List.append_cancel_left h
  obtain ⟨hcontext, h⟩ := lenPrefix_selfDelim 4 (lt_of_le_MAX_LP_FIELD hc)
    (lt_of_le_MAX_LP_FIELD hc') h
  obtain ⟨hepoch, h⟩ := lenPrefix_selfDelim 4 (lt_of_le_MAX_LP_FIELD (epochBytes_le e))
    (lt_of_le_MAX_LP_FIELD (epochBytes_le e')) h
  have hmemh : m = m' := (lenPrefix_selfDelim 4).inj (lt_of_le_MAX_LP_FIELD hm)
    (lt_of_le_MAX_LP_FIELD hm') h
  exact ⟨hcontext, beBytes_inj (he.trans_le (by decide)) (he'.trans_le (by decide)) hepoch, hmemh⟩

/-- **The hashed KDF input determines the environment.** -/
theorem kdfCanonical_inj {E E' : Environment} (h : E.kdfCanonical = E'.kdfCanonical) :
    E = E' := by
  obtain ⟨hcontext, hepoch, hmemh⟩ := kdfCanonicalBytes_inj E.context_le E'.context_le
    E.epochId_lt E'.epochId_lt E.memh_le E'.memh_le h
  exact Environment.ext hmemh hepoch hcontext

/-! ## 4. The wire format -/

/-- **An envelope**, as a value. -/
structure Envelope extends Draw where
  commitment : Bytes
  ciphertext : Bytes
  commitment_length : commitment.length = COMMIT_LEN
  tag_le : TAG_LEN ≤ ciphertext.length
  ciphertext_lt : ciphertext.length < 2 ^ 32

namespace Envelope

variable (V : Envelope)

def header : Bytes := headerBytes V.toDraw V.commitment

/-- Its encoding. -/
def bytes : Bytes := V.header ++ (beBytes 4 V.ciphertext.length ++ V.ciphertext)

/-- What `_parse` hands on of it. -/
def parsed : Parsed where
  headerPrefix := V.header
  nonce := V.nonce
  salt := V.salt
  commitment := V.commitment
  ciphertext := V.ciphertext

@[simp] theorem header_length : V.header.length = 65 := headerBytes_length _ _

theorem bytes_length : V.bytes.length = 69 + V.ciphertext.length := by
  simp only [bytes, List.length_append, header_length, beBytes_length]
  omega

end Envelope

/-- The parser accepts every envelope. -/
theorem parseBytes_bytes (V : Envelope) : parseBytes V.bytes = .ok V.parsed := by
  have hlen := V.bytes_length
  have htag := V.tag_le
  have hpackS := packS_of_length V.commitment_length
  have hct : beNat (beBytes 4 V.ciphertext.length) = V.ciphertext.length :=
    beNat_beBytes (V.ciphertext_lt.trans_le (by decide))
  have hheader : slice V.bytes 0 65 = V.header :=
    slice_of_append (p := []) rfl rfl (by simp)
  have hctLen : slice V.bytes 65 69 = beBytes 4 V.ciphertext.length :=
    slice_of_append rfl V.header_length (by simp)
  have hdrop : V.bytes.drop 69 = V.ciphertext := by
    rw [Envelope.bytes, ← List.append_assoc]
    exact List.drop_left' (by simp)
  have hmagic : slice V.header 0 4 = MAGIC := slice_of_append (p := []) rfl rfl rfl
  have hversion : slice V.header 4 5 = beBytes 1 VERSION :=
    slice_of_append (p := MAGIC) rfl rfl rfl
  have hnonce : slice V.header 5 17 = V.nonce :=
    slice_of_append (p := MAGIC ++ beBytes 1 VERSION)
      (by simp only [Envelope.header, headerBytes, List.append_assoc]; rfl) rfl
      (by rw [V.nonce_length]; rfl)
  have hsalt : slice V.header 17 33 = V.salt :=
    slice_of_append (p := MAGIC ++ beBytes 1 VERSION ++ V.nonce)
      (by simp only [Envelope.header, headerBytes, List.append_assoc]; rfl)
      (by rw [List.length_append, V.nonce_length]; rfl) (by rw [V.salt_length]; rfl)
  have hcommit : slice V.header 33 65 = V.commitment :=
    slice_of_append (p := MAGIC ++ beBytes 1 VERSION ++ V.nonce ++ V.salt) (r := [])
      (by simp only [Envelope.header, headerBytes, hpackS, List.append_assoc, List.append_nil])
      (by rw [List.length_append, List.length_append, V.nonce_length, V.salt_length]; rfl)
      (by rw [V.commitment_length]; rfl)
  unfold parseBytes
  rw [HEADER_PREFIX_size_eq, CTLEN_size_eq, if_neg (by omega)]
  simp only [hheader, hctLen, hdrop, hct, hmagic, hversion, hnonce, hsalt, hcommit]
  rw [if_neg (by simp), if_neg (by decide), if_neg (by simp), if_neg (by omega)]
  rfl

/-- **The parser accepts nothing else**, and rejects as malformed. -/
theorem parseBytes_cases (X : Bytes) :
    (∃ message, parseBytes X = .error (.malformedEnvelope message)) ∨
      ∃ V : Envelope, X = V.bytes := by
  unfold parseBytes
  dsimp only
  rw [HEADER_PREFIX_size_eq, CTLEN_size_eq]
  split_ifs with hlen hmagic hversion hct htag
  · exact .inl ⟨_, rfl⟩
  · exact .inl ⟨_, rfl⟩
  · exact .inl ⟨_, rfl⟩
  · exact .inl ⟨_, rfl⟩
  · exact .inl ⟨_, rfl⟩
  · refine .inr ?_
    have hmagic : slice X 0 4 = MAGIC := by
      rw [← slice_slice (n := 65) (by omega)]
      exact not_not.mp hmagic
    have hversion : slice X 4 5 = beBytes 1 VERSION := by
      rw [← slice_slice (n := 65) (by omega), ← not_not.mp hversion]
      exact (beBytes_beNat_of_length (by
        rw [slice_slice (by omega), slice_length (by omega)])).symm
    have hct := not_not.mp hct
    have hctLen : slice X 65 69 = beBytes 4 (X.drop 69).length := by
      rw [hct]
      exact (beBytes_beNat_of_length (by rw [slice_length (by omega)])).symm
    have hlt : (X.drop 69).length < 2 ^ 32 := by
      rw [hct]
      have h := beNat_lt (slice X 65 69)
      rw [slice_length (by omega)] at h
      exact h.trans_le (by decide)
    let V : Envelope :=
      { nonce := slice X 5 17
        salt := slice X 17 33
        commitment := slice X 33 65
        ciphertext := X.drop 69
        nonce_length := by rw [slice_length (by omega)]; rfl
        salt_length := by rw [slice_length (by omega)]; rfl
        commitment_length := by rw [slice_length (by omega)]; rfl
        tag_le := not_lt.mp htag
        ciphertext_lt := hlt }
    have hheader : V.header = slice X 0 65 := by
      rw [Envelope.header, headerBytes, packS_of_length V.commitment_length, ← hmagic,
        ← hversion, slice_append_slice (by omega) (by omega),
        slice_append_slice (by omega) (by omega), slice_append_slice (by omega) (by omega),
        slice_append_slice (by omega) (by omega)]
    refine ⟨V, ?_⟩
    rw [Envelope.bytes, hheader, ← hctLen, ← List.append_assoc,
      slice_append_slice (by omega) (by omega)]
    exact (slice_append_drop X 69).symm

/-- **The parser accepts exactly the envelopes.** -/
theorem parseBytes_eq_ok {X : Bytes} {p : Parsed} :
    parseBytes X = .ok p ↔ ∃ V : Envelope, X = V.bytes ∧ p = V.parsed := by
  constructor
  · intro h
    rcases parseBytes_cases X with ⟨message, he⟩ | ⟨V, rfl⟩
    · rw [he] at h
      exact absurd h (by simp)
    · rw [parseBytes_bytes] at h
      exact ⟨V, rfl, (Except.ok.inj h).symm⟩
  · rintro ⟨V, rfl, rfl⟩
    exact parseBytes_bytes V

end Sce
