/-
# The grammar of envelopes, and the errors outside it

Everything that reads an envelope starts with `_parse`, so one grammar decides what is called
malformed: `EnvelopeGrammar`, the layout written out.  `parse_eq_ok_iff` says that the parser
accepts exactly this and hands on exactly its fields.

From there on nothing structural is left to fail.  An unseal of a grammatical envelope ends in
the plaintext or in the one mismatch, under whatever parameters (`envelope_errors_public`), so
the error class of an envelope is a function of its bytes.
-/
import Sce.Inspect
import Sce.EnvelopeImage

namespace Sce

open BigEndian

variable {P : Platform}

/-! ## 1. The grammar -/

/-- **The layout of an envelope**, written out. -/
structure EnvelopeGrammar (X nonce salt commitment ciphertext : Bytes) : Prop where
  nonce_length : nonce.length = 12
  salt_length : salt.length = 16
  commitment_length : commitment.length = 32
  tag_le : 16 ≤ ciphertext.length
  ciphertext_lt : ciphertext.length < 2 ^ 32
  bytes : X = MAGIC ++ [0x04] ++ nonce ++ salt ++ commitment ++ beBytes 4 ciphertext.length
    ++ ciphertext

/-- The bytes follow the grammar. -/
def IsEnvelope (X : Bytes) : Prop :=
  ∃ nonce salt commitment ciphertext, EnvelopeGrammar X nonce salt commitment ciphertext

/-- The encoding of an envelope, spelled as the grammar does. -/
theorem Envelope.bytes_eq (V : Envelope) : V.bytes =
    MAGIC ++ [0x04] ++ V.nonce ++ V.salt ++ V.commitment ++ beBytes 4 V.ciphertext.length
      ++ V.ciphertext := by
  rw [Envelope.bytes, Envelope.header, headerBytes, packS_of_length V.commitment_length]
  simp only [List.append_assoc]
  rfl

theorem Envelope.grammar (V : Envelope) :
    EnvelopeGrammar V.bytes V.nonce V.salt V.commitment V.ciphertext where
  nonce_length := V.nonce_length
  salt_length := V.salt_length
  commitment_length := V.commitment_length
  tag_le := V.tag_le
  ciphertext_lt := V.ciphertext_lt
  bytes := V.bytes_eq

/-- **The grammar describes the envelopes.** -/
theorem EnvelopeGrammar.exists_envelope {X nonce salt commitment ciphertext : Bytes}
    (h : EnvelopeGrammar X nonce salt commitment ciphertext) :
    ∃ V : Envelope, X = V.bytes ∧ V.nonce = nonce ∧ V.salt = salt ∧
      V.commitment = commitment ∧ V.ciphertext = ciphertext := by
  let V : Envelope :=
    { nonce := nonce
      salt := salt
      commitment := commitment
      ciphertext := ciphertext
      nonce_length := h.nonce_length
      salt_length := h.salt_length
      commitment_length := h.commitment_length
      tag_le := h.tag_le
      ciphertext_lt := h.ciphertext_lt }
  exact ⟨V, h.bytes.trans V.bytes_eq.symm, rfl, rfl, rfl, rfl⟩

theorem isEnvelope_iff {X : Bytes} : IsEnvelope X ↔ ∃ V : Envelope, X = V.bytes := by
  constructor
  · rintro ⟨_, _, _, _, h⟩
    obtain ⟨V, hV, -⟩ := h.exists_envelope
    exact ⟨V, hV⟩
  · rintro ⟨V, rfl⟩
    exact ⟨_, _, _, _, V.grammar⟩

/-- The prefix of an envelope, as a slice. -/
theorem Envelope.slice_header (V : Envelope) : slice V.bytes 0 65 = V.header :=
  slice_of_append (p := []) rfl rfl ((Nat.zero_add _).trans V.header_length)

/-! ## 2. What the parser does with it -/

/-- **The parser accepts exactly the grammar**, and hands on its fields. -/
theorem parse_eq_ok_iff {X : Bytes} {p : Parsed} :
    parse (.of (.bytes X)) = .ok p ↔
      p.headerPrefix = slice X 0 65 ∧
        EnvelopeGrammar X p.nonce p.salt p.commitment p.ciphertext := by
  rw [parse_of, Carrier.toBytes, parseBytes_eq_ok]
  constructor
  · rintro ⟨V, rfl, rfl⟩
    exact ⟨V.slice_header.symm, V.grammar⟩
  · rintro ⟨hslice, hgrammar⟩
    obtain ⟨V, rfl, hnonce, hsalt, hcommitment, hciphertext⟩ := hgrammar.exists_envelope
    refine ⟨V, rfl, ?_⟩
    rw [V.slice_header] at hslice
    obtain ⟨headerPrefix, nonce, salt, commitment, ciphertext⟩ := p
    obtain rfl : headerPrefix = V.header := hslice
    obtain rfl : V.nonce = nonce := hnonce
    obtain rfl : V.salt = salt := hsalt
    obtain rfl : V.commitment = commitment := hcommitment
    obtain rfl : V.ciphertext = ciphertext := hciphertext
    rfl

/-- Outside the grammar the parser reports a structural fault. -/
theorem parse_malformed {X : Bytes} (h : ¬ IsEnvelope X) :
    ∃ message, parse (.of (.bytes X)) = .error (.malformedEnvelope message) := by
  rcases parseBytes_cases X with hfail | hV
  · exact hfail
  · exact absurd (isEnvelope_iff.mpr hV) h

/-- **The parts handed on are the whole.** -/
theorem parse_reassembles {X : Bytes} {p : Parsed} (h : parse (.of (.bytes X)) = .ok p) :
    p.headerPrefix ++ beBytes 4 p.ciphertext.length ++ p.ciphertext = X := by
  rw [parse_of, Carrier.toBytes, parseBytes_eq_ok] at h
  obtain ⟨V, rfl, rfl⟩ := h
  exact List.append_assoc _ _ _

/-! ## 3. What the readers make of it -/

/-- An unseal of a grammatical envelope releases what the cipher returned, or reports the one
mismatch. -/
theorem Envelope.unsealState_outcome {V : Envelope} {x : Carrier} (hx : x.toBytes = V.bytes)
    {manifest : Arg (Manifest P)} {masterSecret : Arg Bytes} {epochId : Arg Int}
    {context : Arg Bytes} {b : Binding}
    (hb : b.PresentedBy manifest masterSecret epochId context) :
    (∃ d S, .decrypt d ∈ (unsealState P (.of x) manifest masterSecret epochId context).log ∧
        P.plaintextOf d = some S ∧
        (unsealState P (.of x) manifest masterSecret epochId context).result = .ok S) ∨
      (unsealState P (.of x) manifest masterSecret epochId context).result = .error mismatch := by
  rw [unsealState_eq hb hx]
  dsimp only
  cases hrelease : release (V.commitment == b.commitment P V.salt)
      (P.plaintextOf (b.decryption P V)) with
  | error e => exact .inr (by rw [release_eq_error hrelease])
  | ok S =>
    refine .inl ⟨b.decryption P V, S, ?_, (release_eq_ok.mp hrelease).2, rfl⟩
    exact List.mem_append_right _ List.mem_cons_self

theorem parse_bytes (V : Envelope) : parse (.of (.bytes V.bytes)) = .ok V.parsed :=
  parseBytes_bytes V

theorem describeEnvelope_bytes (V : Envelope) :
    describeEnvelope (.of (.bytes V.bytes)) = .ok
      { magic := "SCE4"
        version := 4
        ciphertextBytes := V.ciphertext.length
        totalEnvelopeBytes := V.bytes.length } := by
  have hmagic : V.parsed.magic = MAGIC := slice_of_append (p := []) rfl rfl rfl
  have hversion : V.parsed.version = 4 := by
    have hslice : slice V.header 4 5 = beBytes 1 VERSION := slice_of_append (p := MAGIC) rfl rfl rfl
    rw [Parsed.version, Envelope.parsed, hslice]
    rfl
  have hascii : decodeAscii MAGIC = "SCE4" := by decide
  rw [describeEnvelope, parse_bytes, ← hascii, ← hmagic, ← hversion]
  rfl

/-- What `explain_mismatch` answers, by the outcome of the parse. -/
theorem explainMismatch_of_ok {sealed : Arg Carrier} {p : Parsed} (h : parse sealed = .ok p)
    (M : Manifest P) : explainMismatch P sealed (.of M) = .ok (refusalNote M.memh) := by
  rw [explainMismatch, h]
  rfl

theorem explainMismatch_of_malformed {sealed : Arg Carrier} {message : String}
    (h : parse sealed = .error (.malformedEnvelope message)) (M : Manifest P) :
    explainMismatch P sealed (.of M) = .ok ("not a valid SCE envelope: " ++ message) := by
  rw [explainMismatch, h]
  rfl

/-- **Parsing is exact and its error class is public.**  The parser accepts the grammar and
nothing else, and its parts reassemble to the input.  Under every admissible parameters an
unseal is malformed exactly outside the grammar and otherwise ends in the plaintext or the one
mismatch; the two inspecting functions accept the same byte strings. -/
theorem envelope_errors_public (X : Bytes) (M : Manifest P) {masterSecret : Bytes}
    (hsecret : 16 ≤ masterSecret.length) {epochId : Nat} (hepoch : epochId < 2 ^ 64)
    {context : Bytes} (hcontext : context.length ≤ 2 ^ 32 - 1) :
    (∀ p, parse (.of (.bytes X)) = .ok p ↔ p.headerPrefix = slice X 0 65 ∧
      EnvelopeGrammar X p.nonce p.salt p.commitment p.ciphertext) ∧
    (∀ p, parse (.of (.bytes X)) = .ok p →
      p.headerPrefix ++ beBytes 4 p.ciphertext.length ++ p.ciphertext = X) ∧
    (RaisesMalformed (unsealState P (.of (.bytes X)) (.of M) (.of masterSecret)
      (.of (epochId : Int)) (.of context)) ↔ ¬ IsEnvelope X) ∧
    (IsEnvelope X →
      (∃ d S, .decrypt d ∈ (unsealState P (.of (.bytes X)) (.of M) (.of masterSecret)
          (.of (epochId : Int)) (.of context)).log ∧ P.plaintextOf d = some S ∧
        (unsealState P (.of (.bytes X)) (.of M) (.of masterSecret) (.of (epochId : Int))
          (.of context)).result = .ok S) ∨
      (unsealState P (.of (.bytes X)) (.of M) (.of masterSecret) (.of (epochId : Int))
        (.of context)).result = .error (.stateSealMismatch MISMATCH_MESSAGE)) ∧
    (IsEnvelope X → (∃ d, describeEnvelope (.of (.bytes X)) = .ok d) ∧
      explainMismatch P (.of (.bytes X)) (.of M) = .ok (refusalNote M.memh)) ∧
    (¬ IsEnvelope X → ∃ message,
      describeEnvelope (.of (.bytes X)) = .error (.malformedEnvelope message) ∧
      explainMismatch P (.of (.bytes X)) (.of M)
        = .ok ("not a valid SCE envelope: " ++ message)) := by
  have hb := (Environment.ofChecked_presentedBy M hepoch hcontext).binding hsecret
  refine ⟨fun p => parse_eq_ok_iff, fun p => parse_reassembles, ?_, ?_, ?_, ?_⟩
  · constructor
    · rintro ⟨message, hmalformed⟩ henvelope
      obtain ⟨V, hV⟩ := isEnvelope_iff.mp henvelope
      rcases V.unsealState_outcome (x := .bytes X) hV hb with ⟨_, S, -, -, hok⟩ | hmismatch
      · rw [hok] at hmalformed
        exact absurd hmalformed (by simp)
      · rw [hmismatch] at hmalformed
        exact absurd (Except.error.inj hmalformed) (by simp [mismatch])
    · intro hnot
      obtain ⟨message, hparse⟩ := parse_malformed hnot
      refine ⟨message, ?_⟩
      rw [unsealState, unsealStateWith_eq_parse hb.toPresentedBy, hparse]
      rfl
  · intro henvelope
    obtain ⟨V, hV⟩ := isEnvelope_iff.mp henvelope
    exact V.unsealState_outcome (x := .bytes X) hV hb
  · intro henvelope
    obtain ⟨V, rfl⟩ := isEnvelope_iff.mp henvelope
    exact ⟨⟨_, describeEnvelope_bytes V⟩, explainMismatch_of_ok (parse_bytes V) M⟩
  · intro hnot
    obtain ⟨message, hparse⟩ := parse_malformed hnot
    refine ⟨message, ?_, explainMismatch_of_malformed hparse M⟩
    rw [describeEnvelope, hparse]
    rfl

/-- A sealed envelope under a wrong secret: not malformed. -/
theorem toyEnvelope_not_malformed :
    ¬ RaisesMalformed (unsealState toy (.of (.bytes toyEnvelope)) (.of toyManifest)
      (.of (List.replicate 16 0x55)) (.of ((9 : Nat) : Int)) (.of [0x63])) := by
  have hparse : (parse (.of (.bytes toyEnvelope))).toOption.isSome := by decide +kernel
  have henvelope : IsEnvelope toyEnvelope := by
    by_contra hnot
    obtain ⟨message, h⟩ := parse_malformed hnot
    rw [h] at hparse
    exact absurd hparse (by simp [Except.toOption])
  exact fun h => (envelope_errors_public toyEnvelope toyManifest (by decide) (by decide)
    (by decide)).2.2.1.mp h henvelope

end Sce
