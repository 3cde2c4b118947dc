/-
# What the envelope entry points raise

The package promises that a caller who catches `SCEError` catches everything.  For `seal_state`
and `unseal_state` the promise is kept for arguments of every kind (`sealState_raises`,
`unsealState_raises`): each conversion that could raise something of its own stands behind a
check that excludes it.  Sealing relies on one fact about the cipher, the length of its
ciphertexts, without which the uint32 frame could overflow.
-/
import Sce.EnvelopeImage
import Sce.Lib.Raises

namespace Sce

open BigEndian Logged

variable {P : Platform}

/-- `isinstance(e, SCEError)` -/
def LibraryError (e : PyExc) : Prop := e.isSCEError = true

/-! ## 1. The checks -/

theorem requireManifest_raises (a : Arg (Manifest P)) :
    (requireManifest P a).RaisesOnly LibraryError := by
  cases a with
  | of M => exact .ok M
  | other typeName => exact .error rfl

theorem requireState_raises (a : Arg Bytes) : (requireState a).RaisesOnly LibraryError := by
  cases a with
  | of S => exact .ok S
  | other typeName => exact .error rfl

theorem requireContext_raises (a : Arg Bytes) : (requireContext a).RaisesOnly LibraryError := by
  cases a with
  | of c => exact .ok c
  | other typeName => exact .error rfl

theorem requireEnvelopeBytes_raises (what : String) (a : Arg Carrier) :
    (requireEnvelopeBytes what a).RaisesOnly LibraryError := by
  cases a with
  | of x => exact .ok _
  | other typeName => exact .error rfl

theorem checkStateLength_raises (S : Bytes) : (checkStateLength S).RaisesOnly LibraryError :=
  .ite (fun _ => .error rfl) fun _ => .ok ()

theorem checkContextLength_raises (c : Bytes) :
    (checkContextLength c).RaisesOnly LibraryError :=
  .ite (fun _ => .error rfl) fun _ => .ok ()

theorem checkSealCount_raises (n : Option (Arg Int)) :
    (checkSealCount n).RaisesOnly LibraryError := by
  match n with
  | none => exact .ok ()
  | some (.other typeName) => exact .error rfl
  | some (.of n) => exact .ite (fun _ => .error rfl) fun _ => .ite (fun _ => .error rfl) fun _ => .ok ()

theorem checkEpoch_raises (a : Arg Int) : (checkEpoch a).RaisesOnly LibraryError := by
  cases a with
  | of z => exact .ite (fun _ => .ok z) fun _ => .error rfl
  | other typeName => exact .error rfl

theorem requireSecret_raises (a : Arg Bytes) : (requireSecret a).RaisesOnly LibraryError := by
  cases a with
  | of s => exact .ite (fun _ => .error rfl) fun _ => .ok s
  | other typeName => exact .error rfl

/-! ## 2. Derivation and associated data -/

theorem lp_raises (b : Bytes) : (lp b).RaisesOnly LibraryError := by
  refine .ite (fun _ => .error rfl) fun hlen => ?_
  exact .bind (.of_ok (toBytes_natCast (lt_of_le_MAX_LP_FIELD (not_lt.mp hlen)))) fun _ _ => .pure _

theorem kdfInfo_raises (context memh : Bytes) {epochId : Nat} (h : epochId < 2 ^ 64) :
    RaisesOnly LibraryError (kdfInfo P context epochId memh) := by
  refine .bind (.lift (lp_raises _)) fun _ _ => ?_
  refine .bind (.lift (.of_ok (epoch_toBytes h))) fun _ _ => ?_
  refine .bind (.lift (lp_raises _)) fun _ _ => ?_
  refine .bind (.lift (lp_raises _)) fun _ _ => ?_
  exact .bind (.perform _ _) fun _ _ => .pure _

theorem deriveKeyMaterial_raises (masterSecret : Arg Bytes) (memh context salt : Bytes)
    {epochId : Nat} (h : epochId < 2 ^ 64) :
    RaisesOnly LibraryError (deriveKeyMaterial P masterSecret memh epochId context salt) := by
  refine .bind (.lift (requireSecret_raises _)) fun _ _ => ?_
  refine .bind (kdfInfo_raises _ _ h) fun _ _ => ?_
  refine .bind (.perform _ _) fun _ _ => ?_
  exact .bind (.perform _ _) fun _ _ => .pure _

theorem aad_raises (header memh : Bytes) {epochId : Nat} (h : epochId < 2 ^ 64) :
    (aad header memh epochId).RaisesOnly LibraryError :=
  .bind (.of_ok (epoch_toBytes h)) fun _ _ => .pure _

/-! ## 3. The entry points -/

/-- **`seal_state` raises only library errors.** -/
theorem sealState_raises (htag : P.AeadTag) (draw : Draw) (state : Arg Bytes)
    (manifest : Arg (Manifest P)) (masterSecret : Arg Bytes) (epochId : Arg Int)
    (context : Arg Bytes) (sealCount : Option (Arg Int)) :
    RaisesOnly LibraryError
      (sealState P draw state manifest masterSecret epochId context sealCount) := by
  refine .bind (.lift (requireManifest_raises _)) fun M _ => ?_
  refine .bind (.lift (requireState_raises _)) fun S _ => ?_
  refine .bind (.lift (checkStateLength_raises _)) fun _ hS => ?_
  refine .bind (.lift (requireContext_raises _)) fun c _ => ?_
  refine .bind (.lift (checkContextLength_raises _)) fun _ _ => ?_
  refine .bind (.lift (checkSealCount_raises _)) fun _ _ => ?_
  refine .bind (.lift (checkEpoch_raises _)) fun z hz => ?_
  obtain ⟨n, hn, -, rfl⟩ := checkEpoch_eq_ok.mp hz
  refine .bind (deriveKeyMaterial_raises _ _ _ _ hn) fun kc _ => ?_
  refine .bind (.lift (.of_ok (packHeaderPrefix_eq draw kc.2))) fun header _ => ?_
  refine .bind (.lift (aad_raises _ _ hn)) fun data _ => ?_
  refine .bind (.perform _ _) fun ciphertext hciphertext => ?_
  -- the ciphertext of a state within the cap fits its frame
  have hlen : ciphertext.length < 256 ^ CTLEN_size := by
    rw [← Except.ok.inj hciphertext, Platform.ciphertextOf, htag]
    have hcap := length_le_MAX_STATE_iff.mp (checkStateLength_eq_ok.mp hS)
    exact hcap.trans_le (by decide)
  exact .bind (.lift (.of_ok (packUInt_of_lt hlen))) fun _ _ => .pure _

theorem parseBytes_raises (X : Bytes) : (parseBytes X).RaisesOnly LibraryError := by
  rcases parseBytes_cases X with ⟨message, he⟩ | ⟨V, rfl⟩
  · rw [he]
    exact .error rfl
  · exact .of_ok (parseBytes_bytes V)

theorem release_raises (commitmentOk : Bool) (plaintext : Option Bytes) :
    (release commitmentOk plaintext).RaisesOnly LibraryError := by
  intro e he
  rw [release_eq_error he]
  rfl

/-- **`unseal_state` raises only library errors.** -/
theorem unsealState_raises (sealed : Arg Carrier) (manifest : Arg (Manifest P))
    (masterSecret : Arg Bytes) (epochId : Arg Int) (context : Arg Bytes) :
    RaisesOnly LibraryError (unsealState P sealed manifest masterSecret epochId context) := by
  refine .bind (.lift (requireManifest_raises _)) fun M _ => ?_
  refine .bind (.lift (requireContext_raises _)) fun c _ => ?_
  refine .bind (.lift (checkContextLength_raises _)) fun _ _ => ?_
  refine .bind (.lift (checkEpoch_raises _)) fun z hz => ?_
  obtain ⟨n, hn, -, rfl⟩ := checkEpoch_eq_ok.mp hz
  have hparse : (parse sealed).RaisesOnly LibraryError :=
    .bind (requireEnvelopeBytes_raises _ _) fun _ _ => parseBytes_raises _
  refine .bind (.lift hparse) fun p _ => ?_
  refine .bind (deriveKeyMaterial_raises _ _ _ _ hn) fun kc _ => ?_
  refine .bind (.lift (aad_raises _ _ hn)) fun data _ => ?_
  exact .bind (.perform _ _) fun _ _ => .lift (release_raises _ _)

end Sce
