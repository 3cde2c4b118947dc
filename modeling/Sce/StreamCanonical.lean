/-
# Which of the containers that open are canonical

The format prescribes how a state is cut: the segment size lies between one byte and the cap of
an envelope, the segment count follows from it, and every segment but the last is full.  The
producer does this.  The consumer checks that the parts add up to the declared total and nothing
more, so a holder of the keys can make containers that open although no call of the producer
makes them.

`opened_canonical_iff` says which containers these are: one that opens is an output of the
producer exactly when the public part of it, its header and the lengths of its frames, follows
the prescribed segmentation (`Scan.Canonical`).
-/
import Sce.StreamRoundTrip

namespace Sce

open BigEndian

variable {P : Platform}

/-! ## 1. The prescribed segmentation -/

/-- **Header and frame lengths follow the segmentation** the format prescribes. -/
structure Scan.Canonical (sc : Scan) : Prop where
  segmentSize_pos : 1 ≤ sc.fields.segmentSize
  segmentSize_le : sc.fields.segmentSize ≤ MAX_STATE
  count : sc.fields.numSegments = segmentCount sc.fields.totalLen sc.fields.segmentSize
  lengths : ∀ i env, sc.segments[i]? = some env →
    env.length = 85 + min sc.fields.segmentSize (sc.fields.totalLen - i * sc.fields.segmentSize)

theorem Binding.sealed_length (htag : P.AeadTag) (b : Binding) (draw : Draw) (S : Bytes) :
    (b.sealed P draw S).length = 85 + S.length := by
  simp only [sealed, wire, header, List.length_append, headerBytes_length, beBytes_length,
    b.ciphertext_length htag]
  omega

/-- An envelope that opens is 85 bytes longer than the state in it. -/
theorem Binding.Opens.bytes_length (hexact : P.AeadExact) (htag : P.AeadTag) {b : Binding}
    {V : Envelope} {S : Bytes} (h : b.Opens P V S) : V.bytes.length = 85 + S.length := by
  obtain ⟨hS, hV⟩ := h.eq_envelope hexact htag
  rw [hV, Binding.envelope_bytes, Binding.sealed_length htag]

/-- **What the producer makes is canonical.** -/
theorem canonical_of_sealed (hexact : P.AeadExact) (htag : P.AeadTag) {draw : StreamDraw}
    {state : Arg Bytes} {manifest : Arg (Manifest P)} {masterSecret : Arg Bytes}
    {epochId : Arg Int} {context : Arg Bytes} {segmentSize : Arg Int} {X : Bytes}
    (h : (sealStateChunked P draw state manifest masterSecret epochId context
      segmentSize).result = .ok X) {sc : Scan} (hscan : scanStream X = .ok sc) :
    sc.Canonical := by
  rcases sealStateChunked_cases draw state manifest masterSecret epochId context segmentSize
    with ⟨log, e, hfail, -⟩ | ⟨B, S, C, hS, hC, hcap, hB, rfl, rfl⟩
  · rw [hfail] at h
    exact absurd h (by simp)
  · rw [sealStateChunked_eq_container htag hB hS hC hcap] at h
    obtain rfl := Except.ok.inj h
    obtain ⟨Vs, hgrammar, hopens⟩ := B.container_opens hexact.correct htag draw hS hC hcap
    obtain rfl := Except.ok.inj (hgrammar.scanStream_eq.symm.trans hscan)
    refine ⟨hC, hcap, rfl, fun i env henv => ?_⟩
    -- frame `i` holds the seal of segment `i`
    obtain ⟨V, hV, rfl⟩ : ∃ V, Vs[i]? = some V ∧ V.bytes = env := by
      simpa only [List.getElem?_map, Option.map_eq_some_iff] using henv
    obtain ⟨s, hs, hopen⟩ := hopens.get hV
    rw [Binding.Opens.bytes_length hexact htag hopen, (length_of_segmentStates hC hs).2]
    rfl

/-! ## 2. A canonical container that opens was sealed -/

/-- **The segmentation is determined by the lengths.** -/
theorem eq_segmentStates {parts : List Bytes} {S : Bytes} {C : Nat} (hC : 0 < C)
    (hflatten : parts.flatten = S) (hcount : parts.length = segmentCount S.length C)
    (hlengths : ∀ i s, parts[i]? = some s → s.length = min C (S.length - i * C)) :
    parts = segmentStates S C := by
  rw [List.eq_iff_flatten_eq, segmentStates_flatten S hC]
  refine ⟨hflatten, List.ext_getElem ?_ ?_⟩
  · rw [List.length_map, List.length_map, hcount, segmentStates_length S hC]
  · intro i hi hi'
    rw [List.length_map] at hi hi'
    rw [List.getElem_map, List.getElem_map, hlengths i _ (List.getElem?_eq_getElem hi),
      (length_of_segmentStates hC (List.getElem?_eq_getElem hi')).2]

instance : Inhabited Draw where
  default :=
    { salt := List.replicate SALT_LEN 0
      nonce := List.replicate NONCE_LEN 0
      salt_length := List.length_replicate
      nonce_length := List.length_replicate }

/-- The draws that a container shows. -/
def shownDraw (H : StreamHeader) (Vs : List Envelope) : StreamDraw where
  streamId := H.streamId
  segment i := (Vs[i]?.map Envelope.toDraw).getD default
  streamId_length := H.streamId_length

theorem shownDraw_segment {H : StreamHeader} {Vs : List Envelope} {i : Nat} {V : Envelope}
    (hV : Vs[i]? = some V) : (shownDraw H Vs).segment i = V.toDraw := by
  simp [shownDraw, hV]

/-- **Envelopes that open are the seals of what they open to**, under the draws they show. -/
theorem StreamBinding.OpensAll.bytes_eq (hexact : P.AeadExact) (htag : P.AeadTag)
    {B : StreamBinding} {H : StreamHeader} {Vs : List Envelope} {parts : List Bytes}
    (h : B.OpensAll P H Vs parts) :
    Vs.map Envelope.bytes
      = parts.zipIdx.map (B.sealedSegment P H (shownDraw H Vs).segment) := by
  apply List.ext_getElem
  · rw [List.length_map, List.length_map, List.length_zipIdx, h.length_eq]
  · intro i hi hi'
    rw [List.length_map] at hi
    have hV : Vs[i]? = some Vs[i] := List.getElem?_eq_getElem hi
    obtain ⟨s, hs, hopen⟩ := h.get hV
    obtain ⟨hlen, hVeq⟩ := hopen.eq_envelope hexact htag
    obtain ⟨hparts, rfl⟩ := List.getElem?_eq_some_iff.mp hs
    rw [List.getElem_map, List.getElem_map, List.getElem_zipIdx, Nat.zero_add,
      StreamBinding.sealedSegment, shownDraw_segment hV, hVeq]
    rfl

/-- **Exactly which containers that open are canonical.**  Of a container that opens to `S` the
public reading finds no fault and the declared total is the length of `S`; and it is an output
of the producer for `S` at the declared segment size just when its header and frame lengths
follow the prescribed segmentation. -/
theorem opened_canonical_iff (hexact : P.AeadExact) (htag : P.AeadTag) (M : Manifest P)
    {masterSecret : Bytes} (hsecret : 16 ≤ masterSecret.length) {epochId : Nat}
    (hepoch : epochId < 2 ^ 64) {context : Bytes} (hcontext : context.length ≤ 2 ^ 32 - 75)
    {X S : Bytes}
    (hopen : (unsealStateChunked P (.of (.bytes X)) (.of M) (.of masterSecret)
      (.of (epochId : Int)) (.of context)).result = .ok S) :
    ∃ sc : Scan, scanStream X = .ok sc ∧ sc.fault = none ∧ sc.fields.totalLen = S.length ∧
      ((∃ draw : StreamDraw,
          (sealStateChunked P draw (.of S) (.of M) (.of masterSecret) (.of (epochId : Int))
            (.of context) (.of (sc.fields.segmentSize : Int))).result = .ok X) ↔
        sc.Canonical) := by
  obtain ⟨B, hB⟩ := exists_streamBinding M hsecret hepoch hcontext
  obtain ⟨H, Vs, parts, hgrammar, hopens, hflatten, hlen⟩ := (unsealStateChunked_eq_ok hB).mp hopen
  refine ⟨_, hgrammar.scanStream_eq, rfl, hlen.symm, ?_, ?_⟩
  · rintro ⟨draw, hX⟩
    exact canonical_of_sealed hexact htag hX hgrammar.scanStream_eq
  · rintro ⟨hC, hcap, hcount, hlengths⟩
    dsimp only at hC hcap hcount hlengths
    have hS : S.length < 2 ^ 64 := hlen ▸ H.totalLen_lt
    have hparts : parts = segmentStates S H.segmentSize := by
      refine eq_segmentStates hC hflatten ?_ ?_
      · rw [← hopens.length_eq, hgrammar.count, hcount, hlen]
      · intro i s hs
        have hi : i < Vs.length := hopens.length_eq ▸ (List.getElem?_eq_some_iff.mp hs).1
        have hV : Vs[i]? = some Vs[i] := List.getElem?_eq_getElem hi
        obtain ⟨s', hs', hopen⟩ := hopens.get hV
        obtain rfl := Option.some.inj (hs.symm.trans hs')
        have hbytes := hopen.bytes_length hexact htag
        have hframe := hlengths i Vs[i].bytes (by rw [List.getElem?_map, hV]; rfl)
        rw [hlen]
        omega
    have hheader : streamHeader (shownDraw H Vs) hS hC hcap = H :=
      StreamHeader.ext rfl (by rw [hcount, ← hlen]; rfl) rfl hlen
    have hX : X = H.bytes ++ framed Vs := hgrammar.bytes
    refine ⟨shownDraw H Vs, ?_⟩
    rw [sealStateChunked_eq_container htag hB hS hC hcap, StreamBinding.container, hheader,
      ← hparts, ← hopens.bytes_eq hexact htag, hX]
    rfl

/-! ## 3. A container the producer never makes -/

/-- The toy manifest's stream binding. -/
def toyStream : StreamBinding where
  memh := toyManifest.memh
  epochId := 9
  context := [0x63]
  masterSecret := toySecret
  memh_length := toyManifest.memh_length
  epochId_lt := by decide
  context_le := by decide
  secret_length := by decide
  context_le_stream := by decide

/-- Two segments of size two for three bytes. -/
def toyHeader : StreamHeader where
  streamId := toyStreamDraw.streamId
  numSegments := 2
  segmentSize := 2
  totalLen := 3
  streamId_length := toyStreamDraw.streamId_length
  numSegments_lt := by decide
  segmentSize_lt := by decide
  totalLen_lt := by decide

/-- The first segment holds one byte and the second two. -/
def toyUneven : Bytes :=
  toyStream.container toy toyHeader toyStreamDraw.segment [[0x01], [0x02, 0x03]]

/-- Its frames are not those of the prescribed segmentation. -/
theorem toyUneven_frames {sc : Scan} (hscan : scanStream toyUneven = .ok sc) : ¬ sc.Canonical := by
  intro hcanonical
  have hread : (scanStream toyUneven).toOption.map
      (fun sc => (sc.fields, sc.segments.map List.length))
        = some (toyHeader.toStreamFields, [86, 87]) := by decide +kernel
  rw [hscan] at hread
  obtain ⟨hfields, hlengths⟩ := Prod.ext_iff.mp (Option.some.inj hread)
  dsimp only at hfields hlengths
  match hsegments : sc.segments with
  | [] =>
    rw [hsegments] at hlengths
    exact absurd hlengths (by simp)
  | env :: envs =>
    have hlen := hcanonical.lengths 0 env (by rw [hsegments]; rfl)
    rw [hsegments, List.map_cons, List.cons.injEq] at hlengths
    rw [hfields, hlengths.1] at hlen
    exact absurd hlen (by decide)

/-- What the reading shows of it, and that the producer does not make it. -/
theorem toyUneven_reading :
    ∃ sc : Scan, scanStream toyUneven = .ok sc ∧ sc.fault = none ∧ sc.fields.totalLen = 3 ∧
      ¬ ∃ draw : StreamDraw,
        (sealStateChunked toy draw (.of [0x01, 0x02, 0x03]) (.of toyManifest) (.of toySecret)
          (.of ((9 : Nat) : Int)) (.of [0x63]) (.of (sc.fields.segmentSize : Int))).result
            = .ok toyUneven := by
  have hopen : (unsealStateChunked toy (.of (.bytes toyUneven)) (.of toyManifest)
      (.of toySecret) (.of ((9 : Nat) : Int)) (.of [0x63])).result = .ok [0x01, 0x02, 0x03] := by
    decide +kernel
  obtain ⟨sc, hscan, hfault, hlen, hiff⟩ := opened_canonical_iff toy_aeadExact toy_aeadTag
    toyManifest (by decide) (by decide) (by decide) hopen
  exact ⟨sc, hscan, hfault, hlen, fun hmade => toyUneven_frames hscan (hiff.mp hmade)⟩

/-- **It opens**, and the producer makes it under no draw. -/
theorem toyUneven_not_canonical :
    (unsealStateChunked toy (.of (.bytes toyUneven)) (.of toyManifest) (.of toySecret) (.of 9)
        (.of [0x63])).result = .ok [0x01, 0x02, 0x03] ∧
      parseStreamHeader toyUneven = .ok toyHeader.toStreamFields ∧
      ¬ ∃ draw : StreamDraw, (sealStateChunked toy draw (.of [0x01, 0x02, 0x03])
        (.of toyManifest) (.of toySecret) (.of 9) (.of [0x63]) (.of 2)).result
          = .ok toyUneven := by
  refine ⟨by decide +kernel, by decide +kernel, ?_⟩
  rintro ⟨draw, hX⟩
  have hread : (scanStream toyUneven).toOption.isSome := by decide +kernel
  cases hscan : scanStream toyUneven with
  | error e =>
    rw [hscan] at hread
    exact absurd hread (by simp [Except.toOption])
  | ok sc =>
    exact toyUneven_frames hscan (canonical_of_sealed toy_aeadExact toy_aeadTag hX hscan)

end Sce
