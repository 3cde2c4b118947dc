/-
# What one seal and one unseal can do

The inversion lemmas of `seal_state` and `unseal_state`, over any key derivation first and then
over the package's own.  Each says everything a call can do: that it failed before touching a
primitive, or what its arguments were, what it recorded and what it returned.

* `sealState_cases`, `sealState_eq`: a seal.
* `unsealState_cases`, `unsealState_eq`: an unseal.  `Binding.Opens` is what the outcome hangs
  on, and `unsealState_eq_ok` says exactly when a state is returned.

The last step of a seal packs the ciphertext's length, which only the length law of the cipher
(`Platform.AeadTag`) keeps within its frame; without that law a seal may encrypt and then raise.
-/
import Sce.CoreSpec

namespace Sce

open BigEndian

variable {P : Platform}

/-! ## 1. Inverting the argument checks -/

theorem requireManifest_eq_ok {a : Arg (Manifest P)} {M : Manifest P} :
    requireManifest P a = .ok M ↔ a = .of M := by
  cases a <;> simp [requireManifest]

theorem requireState_eq_ok {a : Arg Bytes} {S : Bytes} : requireState a = .ok S ↔ a = .of S := by
  cases a <;> simp [requireState]

theorem requireContext_eq_ok {a : Arg Bytes} {c : Bytes} :
    requireContext a = .ok c ↔ a = .of c := by
  cases a <;> simp [requireContext]

theorem checkStateLength_eq_ok {S : Bytes} :
    checkStateLength S = .ok () ↔ S.length ≤ MAX_STATE := by
  unfold checkStateLength
  split <;> simp <;> omega

theorem checkContextLength_eq_ok {c : Bytes} :
    checkContextLength c = .ok () ↔ c.length ≤ MAX_LP_FIELD := by
  unfold checkContextLength
  split <;> simp <;> omega

theorem checkEpoch_eq_ok {a : Arg Int} {e : Int} :
    checkEpoch a = .ok e ↔ ∃ n : Nat, n < 2 ^ 64 ∧ a = .of (n : Int) ∧ e = n := by
  match a with
  | .other typeName => simp [checkEpoch]
  | .of z =>
    simp only [checkEpoch, Except.ite_eq_ok, Arg.of.injEq]
    constructor
    · rintro ⟨⟨h0, hlt⟩, rfl⟩
      exact ⟨z.toNat, by omega, by omega, by omega⟩
    · rintro ⟨n, hlt, rfl, rfl⟩
      exact ⟨⟨by omega, by exact_mod_cast hlt⟩, rfl⟩

theorem Environment.PresentedBy.checkEpoch {E : Environment} {manifest : Arg (Manifest P)}
    {epochId : Arg Int} {context : Arg Bytes} (h : E.PresentedBy manifest epochId context) :
    checkEpoch epochId = .ok (E.epochId : Int) :=
  checkEpoch_eq_ok.mpr ⟨_, E.epochId_lt, h.epochId, rfl⟩

/-- An environment from arguments that pass the checks. -/
def Environment.ofChecked (M : Manifest P) {n : Nat} (hn : n < 2 ^ 64) {c : Bytes}
    (hc : c.length ≤ MAX_LP_FIELD) : Environment where
  memh := M.memh
  epochId := n
  context := c
  memh_length := M.memh_length
  epochId_lt := hn
  context_le := hc

theorem Environment.ofChecked_presentedBy (M : Manifest P) {n : Nat} (hn : n < 2 ^ 64)
    {c : Bytes} (hc : c.length ≤ MAX_LP_FIELD) :
    (Environment.ofChecked M hn hc).PresentedBy (.of M) (.of (n : Int)) (.of c) :=
  ⟨⟨M, rfl, rfl⟩, rfl, rfl⟩

/-! ## 2. Sealing over any derivation -/

/-- The call of the cipher that a seal makes with what was derived. -/
def Environment.encryption (E : Environment) (draw : Draw) (state kEnc commitment : Bytes) :
    Encryption where
  key := kEnc
  nonce := draw.nonce
  data := state
  aad := E.aadBytes (headerBytes draw commitment)

/-- The bytes of a header and a framed ciphertext. -/
def wire (header ciphertext : Bytes) : Bytes :=
  header ++ (beBytes 4 ciphertext.length ++ ciphertext)

/-- The last step of a seal. -/
def frame (header ciphertext : Bytes) : Except PyExc Bytes :=
  if ciphertext.length < 2 ^ 32 then .ok (wire header ciphertext) else .error .structError

theorem frame_of_lt {header ciphertext : Bytes} (h : ciphertext.length < 2 ^ 32) :
    frame header ciphertext = .ok (wire header ciphertext) := if_pos h

theorem frame_eq_ok {header ciphertext X : Bytes} :
    frame header ciphertext = .ok X ↔
      ciphertext.length < 2 ^ 32 ∧ wire header ciphertext = X := Except.ite_eq_ok

theorem packFrame_eq (header ciphertext : Bytes) :
    (do let ctLen ← packUInt CTLEN_size ciphertext.length
        return header ++ ctLen ++ ciphertext : Py Bytes) = ⟨[], frame header ciphertext⟩ := by
  by_cases h : ciphertext.length < 2 ^ 32
  · rw [frame_of_lt h, packUInt_of_lt (h.trans_le (by decide)), Logged.liftM_ok,
      Logged.pure_bind, wire, ← List.append_assoc]
    rfl
  · have hpack : packUInt CTLEN_size ciphertext.length = .error .structError := if_neg h
    have hframe : frame header ciphertext = .error .structError := if_neg h
    rw [hframe, hpack]
    rfl

/-- **What a seal does with arguments that pass the checks.** -/
theorem sealStateWith_eq {derive : Deriver} {draw : Draw} {S : Bytes}
    {manifest : Arg (Manifest P)} {masterSecret : Arg Bytes} {epochId : Arg Int}
    {context : Arg Bytes} {sealCount : Option (Arg Int)} {E : Environment}
    (h : E.PresentedBy manifest epochId context) (hS : S.length ≤ MAX_STATE)
    (hcount : checkSealCount sealCount = .ok ()) :
    sealStateWith P derive draw (.of S) manifest masterSecret epochId context sealCount =
      (derive masterSecret E.memh E.epochId E.context draw.salt >>= fun kc =>
        let e := E.encryption draw S kc.1 kc.2
        ⟨[.encrypt e], frame (headerBytes draw kc.2) (P.ciphertextOf e)⟩) := by
  have hepoch := h.checkEpoch
  obtain ⟨⟨M, rfl, hmemh⟩, -, rfl⟩ := h
  unfold sealStateWith
  rw [requireManifest_eq_ok.mpr rfl, requireState_eq_ok.mpr rfl, requireContext_eq_ok.mpr rfl,
    hcount, hepoch]
  simp only [Logged.liftM_ok, Logged.pure_bind, checkStateLength_eq_ok.mpr hS,
    checkContextLength_eq_ok.mpr E.context_le, hmemh]
  congr 1
  funext ⟨kEnc, commitment⟩
  simp only [packHeaderPrefix_eq, aad_eq, Logged.liftM_ok, Logged.pure_bind,
    Platform.aeadEncrypt, Logged.perform_bind, packFrame_eq]
  rfl

/-- **Everything a seal can do**: fail without touching a primitive, or have arguments that
pass the checks. -/
theorem sealStateWith_cases (derive : Deriver) (draw : Draw) (state : Arg Bytes)
    (manifest : Arg (Manifest P)) (masterSecret : Arg Bytes) (epochId : Arg Int)
    (context : Arg Bytes) (sealCount : Option (Arg Int)) :
    (∃ e, sealStateWith P derive draw state manifest masterSecret epochId context sealCount
        = .fail e) ∨
      ∃ (E : Environment) (S : Bytes), E.PresentedBy manifest epochId context ∧ state = .of S ∧
        S.length ≤ MAX_STATE ∧ checkSealCount sealCount = .ok () := by
  cases hM : requireManifest P manifest with
  | error e => exact .inl ⟨e, by simp [sealStateWith, hM]⟩
  | ok M =>
  cases hstate : requireState state with
  | error e => exact .inl ⟨e, by simp [sealStateWith, hM, hstate]⟩
  | ok S =>
  cases hS : checkStateLength S with
  | error e => exact .inl ⟨e, by simp [sealStateWith, hM, hstate, hS]⟩
  | ok u =>
  cases hcontext : requireContext context with
  | error e => exact .inl ⟨e, by simp [sealStateWith, hM, hstate, hS, hcontext]⟩
  | ok c =>
  cases hc : checkContextLength c with
  | error e => exact .inl ⟨e, by simp [sealStateWith, hM, hstate, hS, hcontext, hc]⟩
  | ok u =>
  cases hcount : checkSealCount sealCount with
  | error e => exact .inl ⟨e, by simp [sealStateWith, hM, hstate, hS, hcontext, hc, hcount]⟩
  | ok u =>
  cases hepoch : checkEpoch epochId with
  | error e =>
    exact .inl ⟨e, by simp [sealStateWith, hM, hstate, hS, hcontext, hc, hcount, hepoch]⟩
  | ok z =>
  obtain ⟨n, hn, rfl, -⟩ := checkEpoch_eq_ok.mp hepoch
  obtain rfl := requireManifest_eq_ok.mp hM
  obtain rfl := requireContext_eq_ok.mp hcontext
  exact .inr ⟨_, S, Environment.ofChecked_presentedBy M hn (checkContextLength_eq_ok.mp hc),
    requireState_eq_ok.mp hstate, checkStateLength_eq_ok.mp hS, rfl⟩

/-! ## 3. Unsealing over any derivation -/

/-- The outcome is a `MalformedEnvelope`. -/
def RaisesMalformed (run : Py Bytes) : Prop :=
  ∃ message, run.result = .error (.malformedEnvelope message)

/-- The call of the cipher that an unseal makes with the key derived. -/
def Environment.decryption (E : Environment) (V : Envelope) (kEnc : Bytes) : Decryption where
  key := kEnc
  nonce := V.nonce
  ciphertext := V.ciphertext
  aad := E.aadBytes V.header

theorem parse_of (x : Carrier) : parse (.of x) = parseBytes x.toBytes := rfl

/-- **What an unseal does with arguments that pass the checks**, up to the parse. -/
theorem unsealStateWith_eq_parse {derive : Deriver} {sealed : Arg Carrier}
    {manifest : Arg (Manifest P)} {masterSecret : Arg Bytes} {epochId : Arg Int}
    {context : Arg Bytes} {E : Environment} (h : E.PresentedBy manifest epochId context) :
    unsealStateWith P derive sealed manifest masterSecret epochId context =
      (liftM (parse sealed) >>= fun p =>
        derive masterSecret E.memh E.epochId E.context p.salt >>= fun kc => do
          let plaintext ← P.aeadDecrypt
            { key := kc.1, nonce := p.nonce, ciphertext := p.ciphertext,
              aad := E.aadBytes p.headerPrefix }
          release (p.commitment == kc.2) plaintext) := by
  have hepoch := h.checkEpoch
  obtain ⟨⟨M, rfl, hmemh⟩, -, rfl⟩ := h
  unfold unsealStateWith
  rw [requireManifest_eq_ok.mpr rfl, requireContext_eq_ok.mpr rfl, hepoch]
  simp only [Logged.liftM_ok, Logged.pure_bind, checkContextLength_eq_ok.mpr E.context_le, hmemh,
    aad_eq]

/-- On the bytes of an envelope. -/
theorem unsealStateWith_eq {derive : Deriver} {x : Carrier} {manifest : Arg (Manifest P)}
    {masterSecret : Arg Bytes} {epochId : Arg Int} {context : Arg Bytes} {E : Environment}
    (h : E.PresentedBy manifest epochId context) {V : Envelope} (hx : x.toBytes = V.bytes) :
    unsealStateWith P derive (.of x) manifest masterSecret epochId context =
      (derive masterSecret E.memh E.epochId E.context V.salt >>= fun kc =>
        let d := E.decryption V kc.1
        ⟨[.decrypt d], release (V.commitment == kc.2) (P.plaintextOf d)⟩) := by
  rw [unsealStateWith_eq_parse h, parse_of, hx, parseBytes_bytes, Logged.liftM_ok,
    Logged.pure_bind]
  rfl

/-- **Everything an unseal can do**: fail without touching a primitive, or have arguments that
pass the checks and the bytes of an envelope. -/
theorem unsealStateWith_cases (derive : Deriver) (sealed : Arg Carrier)
    (manifest : Arg (Manifest P)) (masterSecret : Arg Bytes) (epochId : Arg Int)
    (context : Arg Bytes) :
    (∃ e, unsealStateWith P derive sealed manifest masterSecret epochId context = .fail e) ∨
      ∃ (E : Environment) (x : Carrier) (V : Envelope), E.PresentedBy manifest epochId context ∧
        sealed = .of x ∧ x.toBytes = V.bytes := by
  cases hM : requireManifest P manifest with
  | error e => exact .inl ⟨e, by simp [unsealStateWith, hM]⟩
  | ok M =>
  cases hcontext : requireContext context with
  | error e => exact .inl ⟨e, by simp [unsealStateWith, hM, hcontext]⟩
  | ok c =>
  cases hc : checkContextLength c with
  | error e => exact .inl ⟨e, by simp [unsealStateWith, hM, hcontext, hc]⟩
  | ok u =>
  cases hepoch : checkEpoch epochId with
  | error e => exact .inl ⟨e, by simp [unsealStateWith, hM, hcontext, hc, hepoch]⟩
  | ok z =>
  obtain ⟨n, hn, rfl, -⟩ := checkEpoch_eq_ok.mp hepoch
  obtain rfl := requireManifest_eq_ok.mp hM
  obtain rfl := requireContext_eq_ok.mp hcontext
  have h := Environment.ofChecked_presentedBy M hn (checkContextLength_eq_ok.mp hc)
  match sealed with
  | .other typeName =>
    refine .inl ⟨.malformedEnvelope ("sealed envelope" ++ " must be bytes, got " ++ typeName), ?_⟩
    rw [unsealStateWith_eq_parse h]
    rfl
  | .of x =>
    rcases parseBytes_cases x.toBytes with ⟨message, he⟩ | ⟨V, hV⟩
    · refine .inl ⟨.malformedEnvelope message, ?_⟩
      rw [unsealStateWith_eq_parse h, parse_of, he]
      rfl
    · exact .inr ⟨_, x, V, h, rfl, hV⟩

theorem release_eq_ok {commitmentOk : Bool} {plaintext : Option Bytes} {S : Bytes} :
    release commitmentOk plaintext = .ok S ↔ commitmentOk = true ∧ plaintext = some S := by
  cases plaintext <;> cases commitmentOk <;> simp [release]

/-- A failed release is the one uniform error. -/
theorem release_eq_error {commitmentOk : Bool} {plaintext : Option Bytes} {e : PyExc}
    (h : release commitmentOk plaintext = .error e) : e = mismatch := by
  cases plaintext <;> cases commitmentOk <;> simp_all [release]

/-! ## 4. Sealing and unsealing with the package's derivation -/

namespace Binding

variable (P : Platform) (b : Binding)

def encryption (draw : Draw) (state : Bytes) : Encryption :=
  b.toEnvironment.encryption draw state (b.kEnc P draw.salt) (b.commitment P draw.salt)

def header (draw : Draw) : Bytes := headerBytes draw (b.commitment P draw.salt)

def ciphertext (draw : Draw) (state : Bytes) : Bytes := P.ciphertextOf (b.encryption P draw state)

/-- What a seal records. -/
def sealLog (draw : Draw) (state : Bytes) : List Event :=
  b.deriveLog P draw.salt ++ [.encrypt (b.encryption P draw state)]

/-- The bytes a seal returns. -/
def sealed (draw : Draw) (state : Bytes) : Bytes :=
  wire (b.header P draw) (b.ciphertext P draw state)

def decryption (V : Envelope) : Decryption := b.toEnvironment.decryption V (b.kEnc P V.salt)

/-- What an unseal of an envelope records. -/
def unsealLog (V : Envelope) : List Event :=
  b.deriveLog P V.salt ++ [.decrypt (b.decryption P V)]

/-- **The two conditions under which an unseal returns a state.** -/
structure Opens (V : Envelope) (S : Bytes) : Prop where
  commitment : V.commitment = b.commitment P V.salt
  plaintext : P.plaintextOf (b.decryption P V) = some S

end Binding

/-- A binding from an environment and an admissible secret presented beside it. -/
theorem Environment.PresentedBy.binding {E : Environment} {manifest : Arg (Manifest P)}
    {epochId : Arg Int} {context : Arg Bytes} (h : E.PresentedBy manifest epochId context)
    {secret : Bytes} (hsecret : 16 ≤ secret.length) :
    Binding.PresentedBy ⟨E, secret, hsecret⟩ manifest (.of secret) epochId context :=
  ⟨h, rfl⟩

/-- **A seal of admissible arguments.** -/
theorem sealState_eq {draw : Draw} {S : Bytes} {manifest : Arg (Manifest P)}
    {masterSecret : Arg Bytes} {epochId : Arg Int} {context : Arg Bytes}
    {sealCount : Option (Arg Int)} {b : Binding}
    (h : b.PresentedBy manifest masterSecret epochId context) (hS : S.length ≤ MAX_STATE)
    (hcount : checkSealCount sealCount = .ok ()) :
    sealState P draw (.of S) manifest masterSecret epochId context sealCount =
      ⟨b.sealLog P draw S, frame (b.header P draw) (b.ciphertext P draw S)⟩ := by
  obtain ⟨henv, rfl⟩ := h
  rw [sealState, sealStateWith_eq henv hS hcount, deriveKeyMaterial_eq]
  rfl

/-- **Everything a seal can do**: it fails and leaves no trace, or it is a seal of admissible
arguments. -/
theorem sealState_cases (draw : Draw) (state : Arg Bytes) (manifest : Arg (Manifest P))
    (masterSecret : Arg Bytes) (epochId : Arg Int) (context : Arg Bytes)
    (sealCount : Option (Arg Int)) :
    (∃ e, sealState P draw state manifest masterSecret epochId context sealCount = .fail e) ∨
      ∃ (b : Binding) (S : Bytes), b.PresentedBy manifest masterSecret epochId context ∧
        state = .of S ∧ S.length ≤ MAX_STATE ∧ checkSealCount sealCount = .ok () := by
  rcases sealStateWith_cases (deriveKeyMaterial P) draw state manifest masterSecret epochId
    context sealCount with hfail | ⟨E, S, henv, rfl, hS, hcount⟩
  · exact .inl hfail
  · cases hsecret : requireSecret masterSecret with
    | error e =>
      refine .inl ⟨e, ?_⟩
      rw [sealState, sealStateWith_eq henv hS hcount, deriveKeyMaterial, hsecret]
      rfl
    | ok secret =>
      obtain ⟨rfl, hlen⟩ := requireSecret_eq_ok.mp hsecret
      exact .inr ⟨_, S, henv.binding hlen, rfl, hS, hcount⟩

/-- **An unseal of admissible arguments.** -/
theorem unsealState_eq {x : Carrier} {manifest : Arg (Manifest P)} {masterSecret : Arg Bytes}
    {epochId : Arg Int} {context : Arg Bytes} {b : Binding}
    (h : b.PresentedBy manifest masterSecret epochId context) {V : Envelope}
    (hx : x.toBytes = V.bytes) :
    unsealState P (.of x) manifest masterSecret epochId context =
      ⟨b.unsealLog P V, release (V.commitment == b.commitment P V.salt)
        (P.plaintextOf (b.decryption P V))⟩ := by
  obtain ⟨henv, rfl⟩ := h
  rw [unsealState, unsealStateWith_eq henv hx, deriveKeyMaterial_eq]
  rfl

/-- **Everything an unseal can do**: it fails and leaves no trace, or it is an unseal of
admissible arguments. -/
theorem unsealState_cases (sealed : Arg Carrier) (manifest : Arg (Manifest P))
    (masterSecret : Arg Bytes) (epochId : Arg Int) (context : Arg Bytes) :
    (∃ e, unsealState P sealed manifest masterSecret epochId context = .fail e) ∨
      ∃ (b : Binding) (x : Carrier) (V : Envelope),
        b.PresentedBy manifest masterSecret epochId context ∧ sealed = .of x ∧
          x.toBytes = V.bytes := by
  rcases unsealStateWith_cases (deriveKeyMaterial P) sealed manifest masterSecret epochId context
    with hfail | ⟨E, x, V, henv, rfl, hx⟩
  · exact .inl hfail
  · cases hsecret : requireSecret masterSecret with
    | error e =>
      refine .inl ⟨e, ?_⟩
      rw [unsealState, unsealStateWith_eq henv hx, deriveKeyMaterial, hsecret]
      rfl
    | ok secret =>
      obtain ⟨rfl, hlen⟩ := requireSecret_eq_ok.mp hsecret
      exact .inr ⟨_, x, V, henv.binding hlen, rfl, hx⟩

/-- The release passes exactly what opens. -/
theorem Binding.opens_iff {b : Binding} {V : Envelope} {S : Bytes} :
    release (V.commitment == b.commitment P V.salt) (P.plaintextOf (b.decryption P V)) = .ok S ↔
      b.Opens P V S := by
  rw [release_eq_ok, beq_iff_eq]
  exact ⟨fun h => ⟨h.1, h.2⟩, fun h => ⟨h.1, h.2⟩⟩

/-- **When an unseal returns a state**, and what it has recorded then. -/
theorem unsealState_ok {sealed : Arg Carrier} {manifest : Arg (Manifest P)}
    {masterSecret : Arg Bytes} {epochId : Arg Int} {context : Arg Bytes} {S : Bytes}
    (h : (unsealState P sealed manifest masterSecret epochId context).result = .ok S) :
    ∃ (b : Binding) (x : Carrier) (V : Envelope),
      b.PresentedBy manifest masterSecret epochId context ∧ sealed = .of x ∧
        x.toBytes = V.bytes ∧ b.Opens P V S ∧
          (unsealState P sealed manifest masterSecret epochId context).log = b.unsealLog P V := by
  rcases unsealState_cases sealed manifest masterSecret epochId context with
    ⟨e, hfail⟩ | ⟨b, x, V, hb, rfl, hx⟩
  · rw [hfail] at h
    exact absurd h (by simp)
  · rw [unsealState_eq hb hx] at h ⊢
    exact ⟨b, x, V, hb, rfl, hx, Binding.opens_iff.mp h, rfl⟩

/-- **Exactly when an unseal of admissible arguments returns a state.** -/
theorem unsealState_eq_ok {x : Carrier} {manifest : Arg (Manifest P)} {masterSecret : Arg Bytes}
    {epochId : Arg Int} {context : Arg Bytes} {b : Binding}
    (h : b.PresentedBy manifest masterSecret epochId context) {S : Bytes} :
    (unsealState P (.of x) manifest masterSecret epochId context).result = .ok S ↔
      ∃ V : Envelope, x.toBytes = V.bytes ∧ b.Opens P V S := by
  constructor
  · intro hS
    obtain ⟨b', x', V, hb', hx', hV, hopens, -⟩ := unsealState_ok hS
    obtain rfl := Arg.of.inj hx'
    obtain rfl := h.unique hb'
    exact ⟨V, hV, hopens⟩
  · rintro ⟨V, hV, hopens⟩
    rw [unsealState_eq h hV]
    exact Binding.opens_iff.mpr hopens

end Sce
