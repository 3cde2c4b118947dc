/-
# The chunked round trip

Every state is sealed to a container and comes back, whatever its length and the segment size
(`chunked_round_trip`).  The proof has two halves that meet at the grammar of containers: what a
stream binding seals is a run of envelopes that open under their places
(`StreamBinding.exists_envelopes`), and a container of the grammar whose envelopes open passes
every guard of the consumer (`unsealStateChunked_eq_ok`).
-/
import Sce.StreamOpen

namespace Sce

open BigEndian

variable {P : Platform}

/-! ## 1. The segments of a stream open -/

/-- **What a stream binding seals opens under its places**, segment by segment. -/
theorem StreamBinding.exists_envelopes (hcorrect : P.AeadCorrect) (htag : P.AeadTag)
    (B : StreamBinding) (H : StreamHeader) (draw : Nat → Draw) :
    ∀ (states : List Bytes) (i : Nat), (∀ s ∈ states, s.length ≤ MAX_STATE) →
      ∃ Vs : List Envelope,
        Vs.map Envelope.bytes = (states.zipIdx i).map (B.sealedSegment P H draw) ∧
          List.Forall₂ (fun x S => (B.segment H x.2).Opens P x.1 S) (Vs.zipIdx i) states
  | [], _, _ => ⟨[], rfl, .nil⟩
  | s :: states, i, hcap => by
    have hs : s.length ≤ MAX_STATE := hcap s List.mem_cons_self
    obtain ⟨Vs, hbytes, hopens⟩ := exists_envelopes hcorrect htag B H draw states (i + 1)
      fun s hs => hcap s (List.mem_cons_of_mem _ hs)
    refine ⟨(B.segment H i).envelope htag (draw i) hs :: Vs, ?_, ?_⟩
    · rw [List.map_cons, List.zipIdx_cons, List.map_cons, hbytes]
      rfl
    · rw [List.zipIdx_cons]
      exact .cons ((B.segment H i).envelope_opens hcorrect htag (draw i) hs) hopens

theorem segmentStates_le {S : Bytes} {C : Nat} (hC : 0 < C) (hcap : C ≤ MAX_STATE) :
    ∀ s ∈ segmentStates S C, s.length ≤ MAX_STATE := by
  intro s hs
  obtain ⟨i, hi⟩ := List.mem_iff_getElem?.mp hs
  rw [(length_of_segmentStates hC hi).2]
  exact (Nat.min_le_left _ _).trans hcap

/-! ## 2. Round trip -/

/-- A stream binding from admissible arguments. -/
theorem exists_streamBinding (M : Manifest P) {masterSecret : Bytes}
    (hsecret : 16 ≤ masterSecret.length) {epochId : Nat} (hepoch : epochId < 2 ^ 64)
    {context : Bytes} (hcontext : context.length ≤ 2 ^ 32 - 75) :
    ∃ B : StreamBinding, B.PresentedBy (.of M) (.of masterSecret) (.of (epochId : Int))
      (.of context) := by
  have hle : context.length ≤ MAX_LP_FIELD := hcontext.trans (by decide)
  have hb := (Environment.ofChecked_presentedBy M hepoch hle).binding hsecret
  exact ⟨⟨_, hcontext⟩, hb⟩

/-- The container of a state is of the grammar and opens to its segments. -/
theorem StreamBinding.container_opens (hcorrect : P.AeadCorrect) (htag : P.AeadTag)
    (B : StreamBinding) (draw : StreamDraw) {S : Bytes} (hS : S.length < 2 ^ 64) {C : Nat}
    (hC : 0 < C) (hcap : C ≤ MAX_STATE) :
    ∃ Vs : List Envelope,
      StreamGrammar (B.container P (streamHeader draw hS hC hcap) draw.segment
        (segmentStates S C)) (streamHeader draw hS hC hcap) Vs ∧
      B.OpensAll P (streamHeader draw hS hC hcap) Vs (segmentStates S C) := by
  obtain ⟨Vs, hbytes, hopens⟩ := B.exists_envelopes hcorrect htag (streamHeader draw hS hC hcap)
    draw.segment (segmentStates S C) 0 (segmentStates_le hC hcap)
  have hcount : Vs.length = segmentCount S.length C := by
    rw [← segmentStates_length S hC, ← hopens.length_eq, List.length_zipIdx]
  refine ⟨Vs, ⟨?_, hcount, ?_, ?_⟩, hopens⟩
  · rw [StreamBinding.container, framed, hbytes]
  · have hone : 1 ≤ segmentCount S.length C := le_max_left _ _
    exact Nat.one_le_iff_ne_zero.mp hone
  · intro hempty
    have hlen : S.length = 0 := hempty
    have hone : segmentCount S.length C = 1 := by
      rw [segmentCount, hlen, Nat.zero_add, Nat.div_eq_of_lt (by omega)]
      rfl
    exact hone

/-- **The chunked round trip.**  For every state, segment size, context and draw within the
stated limits the producer returns a container and the consumer returns the state from it. -/
theorem chunked_round_trip (hcorrect : P.AeadCorrect) (htag : P.AeadTag) (M : Manifest P)
    {masterSecret : Bytes} (hsecret : 16 ≤ masterSecret.length) {epochId : Nat}
    (hepoch : epochId < 2 ^ 64) {context : Bytes} (hcontext : context.length ≤ 2 ^ 32 - 75)
    {S : Bytes} (hS : S.length < 2 ^ 64) {C : Nat} (hC : 1 ≤ C) (hcap : C ≤ MAX_STATE)
    (draw : StreamDraw) :
    ∃ X : Bytes,
      (sealStateChunked P draw (.of S) (.of M) (.of masterSecret) (.of (epochId : Int))
          (.of context) (.of (C : Int))).result = .ok X ∧
        (unsealStateChunked P (.of (.bytes X)) (.of M) (.of masterSecret)
          (.of (epochId : Int)) (.of context)).result = .ok S := by
  obtain ⟨B, hB⟩ := exists_streamBinding M hsecret hepoch hcontext
  obtain ⟨Vs, hgrammar, hopens⟩ := B.container_opens hcorrect htag draw hS hC hcap
  refine ⟨_, sealStateChunked_eq_container htag hB hS hC hcap, ?_⟩
  exact (unsealStateChunked_eq_ok hB).mpr
    ⟨_, Vs, _, hgrammar, hopens, segmentStates_flatten S hC, rfl⟩

def toyStreamDraw : StreamDraw where
  streamId := List.replicate 16 0x44
  segment i := { toyDraw with nonce := UInt8.ofNat i :: List.replicate 11 0x22 }
  streamId_length := rfl

/-- Five bytes in segments of two. -/
theorem toy_chunked_round_trip :
    ∃ X : Bytes,
      (sealStateChunked toy toyStreamDraw (.of [0x01, 0x02, 0x03, 0x04, 0x05]) (.of toyManifest)
          (.of toySecret) (.of ((9 : Nat) : Int)) (.of [0x63]) (.of ((2 : Nat) : Int))).result
        = .ok X ∧
        (unsealStateChunked toy (.of (.bytes X)) (.of toyManifest) (.of toySecret)
          (.of ((9 : Nat) : Int)) (.of [0x63])).result = .ok [0x01, 0x02, 0x03, 0x04, 0x05] :=
  chunked_round_trip toy_aeadExact.correct toy_aeadTag toyManifest (by decide) (by decide)
    (by decide) (by decide) (by decide) (by decide) toyStreamDraw

end Sce
