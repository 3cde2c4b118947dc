/-
# Unsealing accepts exactly what sealing can return

With a cipher that decrypts its own encryptions and nothing else, the envelopes a binding opens
are those it seals (`Binding.Opens.eq_envelope`, `Binding.envelope_opens`), and on bytes
`unseal_state` is the inverse of `seal_state` with the draw forgotten
(`unsealState_accepts_image`).  The uint32 frame and the cap on a state meet at the same
length, so no state within the cap is refused and none above it can be opened.
-/
import Sce.Commitment

namespace Sce

open BigEndian

variable {P : Platform}

/-! ## 1. The envelope of a seal -/

theorem Binding.ciphertext_length (htag : P.AeadTag) (b : Binding) (draw : Draw) (S : Bytes) :
    (b.ciphertext P draw S).length = S.length + 16 := htag _ _ _ _

/-- **A state within the cap has a ciphertext within the frame**, and conversely. -/
theorem length_le_MAX_STATE_iff {n : Nat} : n ≤ MAX_STATE ↔ n + 16 < 2 ^ 32 := by
  simp only [MAX_STATE, TAG_LEN]
  omega

/-- The envelope a seal makes. -/
def Binding.envelope (htag : P.AeadTag) (b : Binding) (draw : Draw) {S : Bytes}
    (hS : S.length ≤ MAX_STATE) : Envelope where
  toDraw := draw
  commitment := b.commitment P draw.salt
  ciphertext := b.ciphertext P draw S
  commitment_length := b.commitment_length P draw.salt
  tag_le := by rw [b.ciphertext_length htag, TAG_LEN]; omega
  ciphertext_lt := by rw [b.ciphertext_length htag]; exact length_le_MAX_STATE_iff.mp hS

theorem Binding.envelope_bytes (htag : P.AeadTag) (b : Binding) (draw : Draw) {S : Bytes}
    (hS : S.length ≤ MAX_STATE) : (b.envelope htag draw hS).bytes = b.sealed P draw S := rfl

/-- **A seal of a state within the cap returns its envelope.** -/
theorem sealState_eq_sealed (htag : P.AeadTag) {draw : Draw} {S : Bytes}
    {manifest : Arg (Manifest P)} {masterSecret : Arg Bytes} {epochId : Arg Int}
    {context : Arg Bytes} {sealCount : Option (Arg Int)} {b : Binding}
    (h : b.PresentedBy manifest masterSecret epochId context) (hS : S.length ≤ MAX_STATE)
    (hcount : checkSealCount sealCount = .ok ()) :
    sealState P draw (.of S) manifest masterSecret epochId context sealCount =
      ⟨b.sealLog P draw S, .ok (b.sealed P draw S)⟩ := by
  have hlt : (b.ciphertext P draw S).length < 2 ^ 32 := by
    rw [b.ciphertext_length htag]
    exact length_le_MAX_STATE_iff.mp hS
  rw [sealState_eq h hS hcount, frame_of_lt hlt]
  rfl

/-! ## 2. The envelopes a binding opens -/

/-- **What was sealed opens**, to the state sealed. -/
theorem Binding.envelope_opens (hcorrect : P.AeadCorrect) (htag : P.AeadTag) (b : Binding)
    (draw : Draw) {S : Bytes} (hS : S.length ≤ MAX_STATE) :
    b.Opens P (b.envelope htag draw hS) S :=
  ⟨rfl, hcorrect _ _ _ _⟩

/-- The header of a seal shows its draw and its commitment. -/
theorem Envelope.of_header_eq {V : Envelope} {b : Binding} {draw : Draw}
    (h : V.header = b.header P draw) :
    V.toDraw = draw ∧ V.commitment = b.commitment P draw.salt := by
  obtain ⟨hdraw, hcommit⟩ := headerBytes_inj h
  have hpack : packS COMMIT_LEN (b.commitment P draw.salt) = b.commitment P draw.salt :=
    packS_of_length (b.commitment_length P _)
  rw [packS_of_length V.commitment_length, hpack] at hcommit
  exact ⟨hdraw, hcommit⟩

/-- An envelope with the right commitment has the header of a seal. -/
theorem Binding.Opens.header_eq {b : Binding} {V : Envelope} {S : Bytes} (h : b.Opens P V S) :
    V.header = b.header P V.toDraw := by
  rw [Envelope.header, Binding.header, h.commitment]

/-- **What opens was sealed**, under the draw its header shows. -/
theorem Binding.Opens.eq_envelope (hexact : P.AeadExact) (htag : P.AeadTag) {b : Binding}
    {V : Envelope} {S : Bytes} (h : b.Opens P V S) :
    ∃ hS : S.length ≤ MAX_STATE, V = b.envelope htag V.toDraw hS := by
  have hciphertext : V.ciphertext = b.ciphertext P V.toDraw S := by
    have henc := (hexact _ _ _ _ _).mp h.plaintext
    have haad : (b.decryption P V).aad = (b.encryption P V.toDraw S).aad :=
      congrArg b.aadBytes h.header_eq
    rw [haad] at henc
    exact henc
  have hS : S.length ≤ MAX_STATE := by
    rw [length_le_MAX_STATE_iff, ← b.ciphertext_length htag V.toDraw, ← hciphertext]
    exact V.ciphertext_lt
  have hcommit := h.commitment
  refine ⟨hS, ?_⟩
  obtain ⟨draw, commitment, ciphertext, _, _, _⟩ := V
  obtain rfl : commitment = b.commitment P draw.salt := hcommit
  obtain rfl : ciphertext = b.ciphertext P draw S := hciphertext
  rfl

/-! ## 3. The image of sealing -/

section Image

variable {manifest : Arg (Manifest P)} {masterSecret : Arg Bytes} {epochId : Arg Int}
  {context : Arg Bytes} {S : Bytes}

/-- A seal that returns something had a state within the cap. -/
theorem sealState_ok_length_le {draw : Draw} {sealCount : Option (Arg Int)} {X : Bytes}
    (h : (sealState P draw (.of S) manifest masterSecret epochId context sealCount).result
      = .ok X) : S.length ≤ MAX_STATE := by
  rcases sealState_cases draw (.of S) manifest masterSecret epochId context sealCount with
    ⟨e, hfail⟩ | ⟨_, S', -, hS', hlen, -⟩
  · rw [hfail] at h
    exact absurd h (by simp)
  · obtain rfl := Arg.of.inj hS'
    exact hlen

/-- **What was sealed comes back.** -/
theorem unsealState_of_sealState (hexact : P.AeadExact) (htag : P.AeadTag) {b : Binding}
    (hb : b.PresentedBy manifest masterSecret epochId context) {draw : Draw} {X : Bytes}
    (h : (sealState P draw (.of S) manifest masterSecret epochId context).result = .ok X) :
    (unsealState P (.of (.bytes X)) manifest masterSecret epochId context).result = .ok S := by
  have hS := sealState_ok_length_le h
  rw [sealState_eq_sealed htag hb hS rfl] at h
  obtain rfl := Except.ok.inj h
  exact (unsealState_eq_ok hb).mpr ⟨_, rfl, b.envelope_opens hexact.correct htag draw hS⟩

/-- **What opens is a seal**, under the draw its header shows. -/
theorem unsealState_eq_ok_iff_sealState (hexact : P.AeadExact) (htag : P.AeadTag) {b : Binding}
    (hb : b.PresentedBy manifest masterSecret epochId context) {X : Bytes} :
    (unsealState P (.of (.bytes X)) manifest masterSecret epochId context).result = .ok S ↔
      ∃ draw : Draw,
        (sealState P draw (.of S) manifest masterSecret epochId context).result = .ok X := by
  constructor
  · intro hX
    obtain ⟨V, rfl, hopens⟩ := (unsealState_eq_ok hb).mp hX
    obtain ⟨hS, hV⟩ := hopens.eq_envelope hexact htag
    refine ⟨V.toDraw, ?_⟩
    rw [sealState_eq_sealed htag hb hS rfl, ← b.envelope_bytes htag _ hS, ← hV]
  · rintro ⟨draw, hX⟩
    exact unsealState_of_sealState hexact htag hb hX

end Image

/-- **`unseal_state` accepts exactly the image of `seal_state`.**  It returns `S` just when the
bytes are a seal of `S` for some draw; only states within the cap have one; and every such
state comes back. -/
theorem unsealState_accepts_image (hexact : P.AeadExact) (htag : P.AeadTag) (M : Manifest P)
    {masterSecret : Bytes} (hsecret : 16 ≤ masterSecret.length) {epochId : Nat}
    (hepoch : epochId < 2 ^ 64) {context : Bytes} (hcontext : context.length ≤ 2 ^ 32 - 1)
    (S : Bytes) :
    (∀ X : Bytes,
      (unsealState P (.of (.bytes X)) (.of M) (.of masterSecret) (.of (epochId : Int))
          (.of context)).result = .ok S ↔
        ∃ draw : Draw, (sealState P draw (.of S) (.of M) (.of masterSecret)
          (.of (epochId : Int)) (.of context)).result = .ok X) ∧
    (∀ (draw : Draw) (X : Bytes), (sealState P draw (.of S) (.of M) (.of masterSecret)
          (.of (epochId : Int)) (.of context)).result = .ok X → S.length ≤ 2 ^ 32 - 1 - 16) ∧
    (S.length ≤ 2 ^ 32 - 1 - 16 → ∀ draw : Draw, ∃ X : Bytes,
      (sealState P draw (.of S) (.of M) (.of masterSecret) (.of (epochId : Int))
          (.of context)).result = .ok X ∧
        (unsealState P (.of (.bytes X)) (.of M) (.of masterSecret) (.of (epochId : Int))
          (.of context)).result = .ok S) := by
  have hb := (Environment.ofChecked_presentedBy M hepoch hcontext).binding hsecret
  refine ⟨fun X => unsealState_eq_ok_iff_sealState hexact htag hb,
    fun draw X => sealState_ok_length_le, ?_⟩
  intro hS draw
  refine ⟨_, congrArg Logged.result (sealState_eq_sealed htag hb hS rfl), ?_⟩
  exact unsealState_of_sealState hexact htag hb
    (congrArg Logged.result (sealState_eq_sealed htag hb hS rfl))

theorem toy_seal_opens :
    ∃ X : Bytes,
      (sealState toy toyDraw (.of [0x01, 0x02, 0x03]) (.of toyManifest) (.of toySecret)
          (.of ((9 : Nat) : Int)) (.of [0x63])).result = .ok X ∧
        (unsealState toy (.of (.bytes X)) (.of toyManifest) (.of toySecret)
          (.of ((9 : Nat) : Int)) (.of [0x63])).result = .ok [0x01, 0x02, 0x03] :=
  (unsealState_accepts_image toy_aeadExact toy_aeadTag toyManifest (by decide) (by decide)
    (by decide) _).2.2 (by decide) toyDraw

end Sce
