/-
# The commitment binds the environment

One commitment comes from one binding and one salt, as long as nothing hashed along the way
collides (`Binding.eq_of_commitment`).  The chain has four links, read backwards:

* the commitment is SHA3-256 of a label and the second half of the HKDF output;
* that half is a function of the secret, the salt and the `info`;
* `info` is SHA3-256 of the length-prefixed context, epoch and fingerprint;
* the fingerprint is SHA3-256 of the canonical manifest bytes, which are a complete invariant.

No link involves the cipher.  So two parties who open the same bytes agree on every parameter,
whoever made the bytes (`unsealState_binds_parameters`).

The same chain with the whole HKDF output instead of its second half gives
`Binding.eq_of_key_of_commitment`, under the weaker assumption on HKDF.
-/
import Sce.ManifestIdentity
import Sce.SealSpec

namespace Sce

open BigEndian

variable {P : Platform}

/-! ## 1. Restricting assumptions to part of a log -/

theorem Platform.Sha3CollisionFree.eq {log : List Event} (h : P.Sha3CollisionFree log)
    {x y : Bytes} (hx : .sha3 x ∈ log) (hy : .sha3 y ∈ log)
    (he : P.sha3_256 x = P.sha3_256 y) : x = y :=
  h x (mem_sha3Inputs.mpr hx) y (mem_sha3Inputs.mpr hy) he

theorem Platform.HkdfCollisionFree.eq {log : List Event} (h : P.HkdfCollisionFree log)
    {q r : HkdfInput} (hq : .hkdf q ∈ log) (hr : .hkdf r ∈ log)
    (he : P.hkdfOf q = P.hkdfOf r) : q = r :=
  h q (mem_hkdfInputs.mpr hq) r (mem_hkdfInputs.mpr hr) he

theorem Platform.EncHalfCollisionFree.eq {log : List Event} (h : P.EncHalfCollisionFree log)
    {q r : HkdfInput} (hq : .hkdf q ∈ log) (hr : .hkdf r ∈ log)
    (he : (P.hkdfOf q).take 32 = (P.hkdfOf r).take 32) : q = r :=
  h q (mem_hkdfInputs.mpr hq) r (mem_hkdfInputs.mpr hr) he

theorem Platform.ComHalfCollisionFree.eq {log : List Event} (h : P.ComHalfCollisionFree log)
    {q r : HkdfInput} (hq : .hkdf q ∈ log) (hr : .hkdf r ∈ log)
    (he : (P.hkdfOf q).drop 32 = (P.hkdfOf r).drop 32) : q = r :=
  h q (mem_hkdfInputs.mpr hq) r (mem_hkdfInputs.mpr hr) he

/-! ## 2. From the commitment back to the binding -/

namespace Binding

variable {b b' : Binding} {salt salt' : Bytes} {log : List Event}

/-- The three questions of one derivation were all asked in `log`. -/
def DerivedIn (P : Platform) (b : Binding) (salt : Bytes) (log : List Event) : Prop :=
  b.deriveLog P salt ⊆ log

theorem DerivedIn.kdfCanonical (h : b.DerivedIn P salt log) : .sha3 b.kdfCanonical ∈ log :=
  h (by simp [deriveLog])

theorem DerivedIn.hkdf (h : b.DerivedIn P salt log) : .hkdf (b.hkdfInput P salt) ∈ log :=
  h (by simp [deriveLog])

theorem DerivedIn.commit (h : b.DerivedIn P salt log) : .sha3 (b.commitInput P salt) ∈ log :=
  h (by simp [deriveLog])

theorem DerivedIn.mono {log' : List Event} (h : b.DerivedIn P salt log) (hsub : log ⊆ log') :
    b.DerivedIn P salt log' :=
  List.Subset.trans h hsub

/-- An unseal derives before it decrypts. -/
theorem DerivedIn.of_unsealLog {V : Envelope} (h : b.unsealLog P V ⊆ log) :
    b.DerivedIn P V.salt log := fun _ he => h (List.mem_append_left _ he)

/-- **One HKDF question comes from one binding and one salt.** -/
theorem eq_of_hkdfInput (hsha : P.Sha3CollisionFree log) (h : b.DerivedIn P salt log)
    (h' : b'.DerivedIn P salt' log) (he : b.hkdfInput P salt = b'.hkdfInput P salt') :
    b = b' ∧ salt = salt' := by
  have hsalt : salt = salt' := congrArg HkdfInput.salt he
  have hsecret : b.masterSecret = b'.masterSecret := congrArg HkdfInput.ikm he
  have hinfo : b.info P = b'.info P := congrArg HkdfInput.info he
  have hcanon : b.kdfCanonical = b'.kdfCanonical :=
    hsha.eq h.kdfCanonical h'.kdfCanonical (List.append_cancel_left hinfo)
  have henv := kdfCanonical_inj hcanon
  exact ⟨Binding.ext (congrArg _ henv) (congrArg _ henv) (congrArg _ henv) hsecret, hsalt⟩

/-- Equal commitments hide equal halves. -/
theorem comHalf_eq_of_commitment (hsha : P.Sha3CollisionFree log) (h : b.DerivedIn P salt log)
    (h' : b'.DerivedIn P salt' log) (he : b.commitment P salt = b'.commitment P salt') :
    (P.hkdfOf (b.hkdfInput P salt)).drop 32 = (P.hkdfOf (b'.hkdfInput P salt')).drop 32 :=
  List.append_cancel_left (hsha.eq h.commit h'.commit he)

/-- **One commitment comes from one binding and one salt**, the committed half being free of
collisions. -/
theorem eq_of_commitment (hsha : P.Sha3CollisionFree log) (hcom : P.ComHalfCollisionFree log)
    (h : b.DerivedIn P salt log) (h' : b'.DerivedIn P salt' log)
    (he : b.commitment P salt = b'.commitment P salt') : b = b' ∧ salt = salt' :=
  eq_of_hkdfInput hsha h h' (hcom.eq h.hkdf h'.hkdf (comHalf_eq_of_commitment hsha h h' he))

/-- **One key comes from one binding and one salt**, the key half being free of collisions. -/
theorem eq_of_kEnc (hsha : P.Sha3CollisionFree log) (henc : P.EncHalfCollisionFree log)
    (h : b.DerivedIn P salt log) (h' : b'.DerivedIn P salt' log)
    (he : b.kEnc P salt = b'.kEnc P salt') : b = b' ∧ salt = salt' :=
  eq_of_hkdfInput hsha h h' (henc.eq h.hkdf h'.hkdf he)

/-- **A key and a commitment together come from one binding and one salt**, the whole output
being free of collisions. -/
theorem eq_of_key_of_commitment (hsha : P.Sha3CollisionFree log)
    (hhkdf : P.HkdfCollisionFree log) (h : b.DerivedIn P salt log)
    (h' : b'.DerivedIn P salt' log) (hkey : b.kEnc P salt = b'.kEnc P salt')
    (hcommit : b.commitment P salt = b'.commitment P salt') : b = b' ∧ salt = salt' := by
  have hdrop := comHalf_eq_of_commitment hsha h h' hcommit
  have htake : (P.hkdfOf (b.hkdfInput P salt)).take 32
      = (P.hkdfOf (b'.hkdfInput P salt')).take 32 := hkey
  have hwhole : P.hkdfOf (b.hkdfInput P salt) = P.hkdfOf (b'.hkdfInput P salt') := by
    rw [← List.take_append_drop 32 (P.hkdfOf (b.hkdfInput P salt)), hdrop, htake]
    exact List.take_append_drop 32 _
  exact eq_of_hkdfInput hsha h h' (hhkdf.eq h.hkdf h'.hkdf hwhole)

end Binding

/-- **The encoding of an envelope is injective.** -/
theorem Envelope.bytes_inj {V V' : Envelope} (h : V.bytes = V'.bytes) : V = V' := by
  have hparsed : V.parsed = V'.parsed := by
    have hp := parseBytes_bytes V
    rw [h, parseBytes_bytes V'] at hp
    exact (Except.ok.inj hp).symm
  have hnonce := congrArg Parsed.nonce hparsed
  have hsalt := congrArg Parsed.salt hparsed
  have hcommit := congrArg Parsed.commitment hparsed
  have hciphertext := congrArg Parsed.ciphertext hparsed
  obtain ⟨⟨salt, nonce, _, _⟩, commitment, ciphertext, _, _, _⟩ := V
  obtain ⟨⟨salt', nonce', _, _⟩, commitment', ciphertext', _, _, _⟩ := V'
  obtain rfl : nonce = nonce' := hnonce
  obtain rfl : salt = salt' := hsalt
  obtain rfl : commitment = commitment' := hcommit
  obtain rfl : ciphertext = ciphertext' := hciphertext
  rfl

/-- Two accepted manifests with one fingerprint have one canonical form. -/
theorem Manifest.canonical_eq_of_memh {M M' : Manifest P} {log : List Event}
    (hsha : P.Sha3CollisionFree log) (hM : M.construction.log ⊆ log)
    (hM' : M'.construction.log ⊆ log) (h : M.memh = M'.memh) : M.canonical = M'.canonical := by
  rw [M.construction_eq] at hM
  rw [M'.construction_eq] at hM'
  rw [M.memh_eq, M'.memh_eq] at h
  exact hsha.eq (hM List.mem_cons_self) (hM' List.mem_cons_self) h

/-! ## 3. Two parties who open the same bytes -/

/-- **Key commitment and environment binding.**  Bytes that open under two tuples of parameters
open under one: the tuples have the same secret, epoch and context, and manifests that agree
field by field after NFC, `extra` as a map.  Nothing is assumed of the cipher. -/
theorem unsealState_binds_parameters {X : Bytes} {M M' : Manifest P}
    {masterSecret masterSecret' : Arg Bytes} {epochId epochId' : Arg Int}
    {context context' : Arg Bytes} {S S' : Bytes}
    (h : (unsealState P (.of (.bytes X)) (.of M) masterSecret epochId context).result = .ok S)
    (h' : (unsealState P (.of (.bytes X)) (.of M') masterSecret' epochId' context').result
      = .ok S')
    (hsha : P.Sha3CollisionFree
      (M.construction.log ++ M'.construction.log
        ++ (unsealState P (.of (.bytes X)) (.of M) masterSecret epochId context).log
        ++ (unsealState P (.of (.bytes X)) (.of M') masterSecret' epochId' context').log))
    (hcom : P.ComHalfCollisionFree
      ((unsealState P (.of (.bytes X)) (.of M) masterSecret epochId context).log
        ++ (unsealState P (.of (.bytes X)) (.of M') masterSecret' epochId' context').log)) :
    masterSecret = masterSecret' ∧ epochId = epochId' ∧ context = context' ∧
      (∀ f, P.nfc (M.getattr f) = P.nfc (M'.getattr f)) ∧ M.extraMap P = M'.extraMap P := by
  obtain ⟨b, x, V, hb, hx, hV, hopens, hlog⟩ := unsealState_ok h
  obtain ⟨b', x', V', hb', hx', hV', hopens', hlog'⟩ := unsealState_ok h'
  -- both read the same envelope, so the same salt and the same stored commitment
  obtain rfl := Arg.of.inj hx
  obtain rfl := Arg.of.inj hx'
  obtain rfl : V = V' := Envelope.bytes_inj (hV.symm.trans hV')
  have hcommit : b.commitment P V.salt = b'.commitment P V.salt :=
    hopens.commitment.symm.trans hopens'.commitment
  rw [hlog, hlog'] at hsha hcom
  have hderived : b.DerivedIn P V.salt (b.unsealLog P V ++ b'.unsealLog P V) :=
    .of_unsealLog (List.subset_append_left _ _)
  have hderived' : b'.DerivedIn P V.salt (b.unsealLog P V ++ b'.unsealLog P V) :=
    .of_unsealLog (List.subset_append_right _ _)
  have hshaUnseals : P.Sha3CollisionFree (b.unsealLog P V ++ b'.unsealLog P V) :=
    hsha.mono fun x hx => by
      rw [mem_sha3Inputs] at hx ⊢
      rw [List.append_assoc]
      exact List.mem_append_right _ hx
  obtain ⟨rfl, -⟩ := Binding.eq_of_commitment hshaUnseals hcom hderived hderived' hcommit
  obtain ⟨⟨⟨N, hN, hmemh⟩, hepoch, hcontext⟩, hsecret⟩ := hb
  obtain ⟨⟨⟨N', hN', hmemh'⟩, hepoch', hcontext'⟩, hsecret'⟩ := hb'
  obtain rfl := Arg.of.inj hN
  obtain rfl := Arg.of.inj hN'
  have hcanonical : M.canonical = M'.canonical := by
    refine Manifest.canonical_eq_of_memh hsha ?_ ?_ (hmemh.trans hmemh'.symm)
    · intro e he
      exact List.mem_append_left _ (List.mem_append_left _ (List.mem_append_left _ he))
    · intro e he
      exact List.mem_append_left _ (List.mem_append_left _ (List.mem_append_right _ he))
  obtain ⟨hcore, hextra⟩ := (canonical_eq_iff M M').mp hcanonical
  exact ⟨hsecret.trans hsecret'.symm, hepoch.trans hepoch'.symm,
    hcontext.trans hcontext'.symm, hcore, hextra⟩

/-! ## 4. On the toy platform -/

def toyDraw : Draw where
  salt := List.replicate 16 0x11
  nonce := List.replicate 12 0x22
  salt_length := rfl
  nonce_length := rfl

def toySecret : Bytes := List.replicate 16 0x33

/-- A state sealed under the decomposed manifest. -/
def toyEnvelope : Bytes :=
  (sealState toy toyDraw (.of [0x01, 0x02, 0x03]) (.of toyManifest) (.of toySecret) (.of 9)
    (.of [0x63])).result.toOption.getD []

/-- The envelope opens under the composed manifest as well, so the two agree. -/
theorem toyEnvelope_binds :
    (∀ f, toy.nfc (toyManifest.getattr f) = toy.nfc (toyManifest'.getattr f)) ∧
      toyManifest.extraMap toy = toyManifest'.extraMap toy := by
  have hopen : (unsealState toy (.of (.bytes toyEnvelope)) (.of toyManifest) (.of toySecret)
      (.of 9) (.of [0x63])).result = .ok [0x01, 0x02, 0x03] := by decide +kernel
  have hopen' : (unsealState toy (.of (.bytes toyEnvelope)) (.of toyManifest') (.of toySecret)
      (.of 9) (.of [0x63])).result = .ok [0x01, 0x02, 0x03] := by decide +kernel
  refine (unsealState_binds_parameters hopen hopen' ?_ ?_).2.2.2
  · rw [Manifest.construction_eq, Manifest.construction_eq]
    decide +kernel
  · decide +kernel

end Sce
