/-
# What a holder can tell in advance

`describe_envelope` and `describe_stream` need no key and check no tag, so what they report of
forged bytes is whatever was forged.  But when the bytes do open, under any parameters at all, the
report was right: the plaintext has the announced length, and the bytes have the length that
follows from it (`opened_described`, `opened_stream_described`).  A holder who budgets by the
report is never wrong about a state that comes out.
-/
import Sce.Carriers
import Sce.StreamBinds

namespace Sce

open BigEndian

variable {P : Platform}

/-- **An envelope that opens was described truly.** -/
theorem opened_described (hexact : P.AeadExact) (htag : P.AeadTag) {X S : Bytes}
    {manifest : Arg (Manifest P)} {masterSecret : Arg Bytes} {epochId : Arg Int}
    {context : Arg Bytes}
    (h : (unsealState P (.of (.bytes X)) manifest masterSecret epochId context).result = .ok S) :
    X.length = 85 + S.length ∧
      describeEnvelope (.of (.bytes X)) = .ok
        { magic := "SCE4"
          version := 4
          ciphertextBytes := 16 + S.length
          totalEnvelopeBytes := X.length } := by
  obtain ⟨b, x, V, -, hx, hV, hopens, -⟩ := unsealState_ok h
  obtain rfl := Arg.of.inj hx
  have hX : X = V.bytes := hV
  have hlen := hopens.bytes_length hexact htag
  have hciphertext : V.ciphertext.length = 16 + S.length := by
    rw [V.bytes_length] at hlen
    omega
  rw [hX, describeEnvelope_bytes, hciphertext]
  exact ⟨hlen, rfl⟩

/-- The frames of envelopes of these lengths. -/
theorem framed_length {Vs : List Envelope} {parts : List Bytes}
    (h : List.Forall₂ (fun V s => V.bytes.length = 85 + s.length) Vs parts) :
    (framed Vs).length = 93 * Vs.length + parts.flatten.length := by
  induction h with
  | nil => rfl
  | cons hV _ ih =>
    simp only [framed_cons, List.length_append, beBytes_length, hV, ih, List.length_cons,
      List.flatten_cons]
    omega

/-- Envelopes that open have such lengths. -/
theorem StreamBinding.OpensAll.lengths (hexact : P.AeadExact) (htag : P.AeadTag)
    {B : StreamBinding} {H : StreamHeader} {Vs : List Envelope} {parts : List Bytes}
    (h : B.OpensAll P H Vs parts) :
    List.Forall₂ (fun V s => V.bytes.length = 85 + s.length) Vs parts := by
  refine List.forall₂_iff_get.mpr ⟨h.length_eq, fun i hi hi' => ?_⟩
  obtain ⟨s, hs, hopens⟩ := h.get (List.getElem?_eq_getElem hi)
  obtain ⟨_, rfl⟩ := List.getElem?_eq_some_iff.mp hs
  exact hopens.bytes_length hexact htag

/-- **So was a container.**  One that opens holds what its description says it holds. -/
theorem opened_stream_described (hexact : P.AeadExact) (htag : P.AeadTag) {X S : Bytes}
    {manifest : Arg (Manifest P)} {masterSecret : Arg Bytes} {epochId : Arg Int}
    {context : Arg Bytes}
    (h : (unsealStateChunked P (.of (.bytes X)) manifest masterSecret epochId context).result
      = .ok S) :
    ∃ d, describeStream (.of (.bytes X)) = .ok d ∧ d.magic = "SCES" ∧ d.version = 1 ∧
      d.totalPlaintextBytes = S.length ∧ d.totalContainerBytes = X.length ∧
      X.length = 45 + 93 * d.numSegments + S.length ∧ 0 < d.numSegments ∧
      (S = [] → d.numSegments = 1) := by
  obtain ⟨B, x, H, Vs, parts, hB, hx, hgrammar, hopens, rfl, htotal, -⟩ := unsealStateChunked_ok h
  obtain rfl := Arg.of.inj hx
  have hX : X = H.bytes ++ framed Vs := hgrammar.bytes
  have hparse : parseStreamHeader (Carrier.bytes X).toBytes = .ok H.toStreamFields := by
    rw [show (Carrier.bytes X).toBytes = H.bytes ++ framed Vs from hX]
    exact parseStreamHeader_bytes H _
  have hmagic : decodeAscii STREAM_MAGIC = "SCES" := by decide
  refine ⟨_, describeStream_eq_ok.mpr ⟨_, hparse, X.length, rfl, rfl⟩, hmagic, rfl, htotal.symm,
    rfl, ?_, Nat.pos_of_ne_zero hgrammar.nonzero, ?_⟩
  · rw [hX, List.length_append, H.bytes_length, framed_length (hopens.lengths hexact htag),
      hgrammar.count, Nat.add_assoc]
    rfl
  · intro hempty
    refine hgrammar.empty ?_
    rw [← htotal, hempty]
    rfl

/-- The three bytes of the composed manifest were announced. -/
theorem toyTwin_described :
    ∃ d, describeStream (.of (.bytes (toyTwin 0x03))) = .ok d ∧ d.magic = "SCES" ∧
      d.version = 1 ∧ d.totalPlaintextBytes = 3 ∧
      d.totalContainerBytes = (toyTwin 0x03).length ∧
      (toyTwin 0x03).length = 45 + 93 * d.numSegments + 3 ∧ 0 < d.numSegments ∧
      (([0x01, 0x02, 0x03] : Bytes) = [] → d.numSegments = 1) :=
  opened_stream_described toy_aeadExact toy_aeadTag (toyTwin_opens toyManifest' (.inr rfl))

end Sce
