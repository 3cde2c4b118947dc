/-
# What one chunked seal can do

`sealSegments_eq` turns the producer's loop, with its growing `out`, into one seal per segment
followed by the framing of what they returned.  `sealStateChunked_cases` is the inversion lemma
of the whole call: it failed having drawn at most a stream id, or its arguments present a stream
binding and it ran the seals of `StreamBinding.sealSegment`, one for each place.

Under the length law of the cipher every one of these seals succeeds, and the container has a
closed form (`sealStateChunked_eq_container`).
-/
import Sce.StreamSpec
import Sce.EnvelopeImage

namespace Sce

open BigEndian

variable {P : Platform}

/-- The framed envelopes of a container. -/
def frames (envs : List Bytes) : Bytes := envs.flatMap (lenPrefix 8)

/-! ## 1. The segments of one stream -/

namespace StreamBinding

variable (P : Platform) (B : StreamBinding) (H : StreamHeader) (draw : Nat → Draw)

/-- The seal of one segment: its plaintext beside its index. -/
def sealSegment (x : Bytes × Nat) : Py Bytes :=
  ⟨(B.segment H x.2).sealLog P (draw x.2) x.1,
    frame ((B.segment H x.2).header P (draw x.2)) ((B.segment H x.2).ciphertext P (draw x.2) x.1)⟩

/-- The envelope of one segment. -/
def sealedSegment (x : Bytes × Nat) : Bytes := (B.segment H x.2).sealed P (draw x.2) x.1

/-- The container of the segments given by their plaintexts. -/
def container (states : List Bytes) : Bytes :=
  H.bytes ++ frames (states.zipIdx.map (B.sealedSegment P H draw))

variable {P B H draw}

theorem sealSegment_eq_ok {x : Bytes × Nat} {env : Bytes} :
    (B.sealSegment P H draw x).result = .ok env ↔
      ((B.segment H x.2).ciphertext P (draw x.2) x.1).length < 2 ^ 32 ∧
        B.sealedSegment P H draw x = env := frame_eq_ok

/-- The length of an envelope fits its frame. -/
theorem length_lt_of_sealSegment {x : Bytes × Nat} {env : Bytes}
    (h : (B.sealSegment P H draw x).result = .ok env) : env.length < 256 ^ SEG_FRAME_size := by
  obtain ⟨hlt, rfl⟩ := sealSegment_eq_ok.mp h
  simp only [sealedSegment, Binding.sealed, wire, Binding.header, List.length_append,
    headerBytes_length, beBytes_length, SEG_FRAME_size, pow_256_8]
  omega

end StreamBinding

/-! ## 2. The loop -/

/-- **The producer's loop**: a seal for each segment, and their frames behind `out`. -/
theorem sealSegments_eq {B : StreamBinding} {H : StreamHeader} {draw : StreamDraw} {S : Bytes}
    {M : Manifest P} {masterSecret : Arg Bytes} {epochId : Arg Int} {context : Arg Bytes}
    (hB : B.PresentedBy (.of M) masterSecret epochId context) :
    ∀ (bounds : List (Nat × Nat)) (i : Nat) (out : Bytes), i + bounds.length ≤ 2 ^ 64 →
      (∀ b ∈ bounds, b.2 - b.1 ≤ MAX_STATE) →
      sealSegmentsWith P (deriveKeyMaterial P) draw S M masterSecret epochId B.context
          H.toStreamFields i bounds out =
        (Logged.each (B.sealSegment P H draw.segment)
          ((bounds.map fun b => slice S b.1 b.2).zipIdx i) >>= fun envs =>
            pure (out ++ frames envs))
  | [], i, out, _, _ => by simp [sealSegmentsWith, frames]
  | b :: bounds, i, out, hi, hcap => by
    obtain ⟨lo, hi'⟩ := b
    have hindex : i < 2 ^ 64 := by
      rw [List.length_cons] at hi
      omega
    have hslice : (slice S lo hi').length ≤ MAX_STATE := by
      have h := hcap (lo, hi') List.mem_cons_self
      rw [slice, List.length_drop, List.length_take]
      exact (Nat.sub_le_sub_right (Nat.min_le_left _ _) _).trans h
    have hseal : sealStateWith P (deriveKeyMaterial P) (draw.segment i) (.of (slice S lo hi'))
        (.of M) masterSecret epochId (.of (B.segment H i).context) none
        = B.sealSegment P H draw.segment (slice S lo hi', i) :=
      sealState_eq (B.segment_presentedBy H hB i) hslice rfl
    rw [sealSegmentsWith, B.segContext_eq H hindex, Logged.liftM_ok, Logged.pure_bind, hseal,
      List.map_cons, List.zipIdx_cons, Logged.each_cons, Logged.bind_assoc]
    cases henv : (B.sealSegment P H draw.segment (slice S lo hi', i)).result with
    | error e => rw [Logged.bind_of_error henv, Logged.bind_of_error henv]
    | ok env =>
      have hlen := StreamBinding.length_lt_of_sealSegment henv
      rw [Logged.bind_of_ok henv, Logged.bind_of_ok henv, packUInt_of_lt hlen, Logged.liftM_ok,
        Logged.pure_bind, sealSegments_eq hB bounds (i + 1) _
          (by rw [List.length_cons] at hi; omega)
          (fun b hb => hcap b (List.mem_cons_of_mem _ hb)), Logged.bind_assoc]
      simp only [Logged.pure_bind, frames, List.flatMap_cons, lenPrefix, SEG_FRAME_size,
        List.append_assoc]

/-! ## 3. The call -/

theorem segmentCount_le (L C : Nat) (hC : 0 < C) : segmentCount L C ≤ max 1 L := by
  have h : (L + C - 1) / C ≤ L := by
    rw [Nat.div_le_iff_le_mul_add_pred hC]
    have hmul := Nat.le_mul_of_pos_left L hC
    omega
  rw [segmentCount]
  omega

/-- The header of a stream: what was drawn, the size of the state, and the segment size. -/
def streamHeader (draw : StreamDraw) {S : Bytes} (hS : S.length < 2 ^ 64) {C : Nat}
    (hC : 0 < C) (hcap : C ≤ MAX_STATE) : StreamHeader where
  streamId := draw.streamId
  numSegments := segmentCount S.length C
  segmentSize := C
  totalLen := S.length
  streamId_length := draw.streamId_length
  numSegments_lt := by
    have h := segmentCount_le S.length C hC
    omega
  segmentSize_lt := hcap.trans_lt (by decide)
  totalLen_lt := hS

theorem checkSegmentSize_eq_ok {a : Arg Int} {C : Nat} :
    checkSegmentSize a = .ok C ↔ a = .of (C : Int) ∧ 0 < C ∧ C ≤ MAX_STATE := by
  match a with
  | .other typeName => simp [checkSegmentSize]
  | .of z =>
    simp only [checkSegmentSize, Arg.of.injEq]
    constructor
    · intro h
      split_ifs at h with hneg hbig
      have hz := Except.ok.inj h
      omega
    · rintro ⟨rfl, hpos, hcap⟩
      rw [if_neg (by omega), if_neg (by omega), Int.toNat_natCast]

theorem segmentBounds_length {L C : Nat} (hC : 0 < C) :
    (segmentBounds L C).length = segmentCount L C := by
  rw [segmentBounds_eq hC, List.length_map, List.length_range]

theorem segmentBounds_le {L C : Nat} (hC : 0 < C) :
    ∀ b ∈ segmentBounds L C, b.2 - b.1 ≤ C := by
  intro b hb
  rw [segmentBounds_eq hC, List.mem_map] at hb
  obtain ⟨i, -, rfl⟩ := hb
  have h : min ((i + 1) * C) L ≤ i * C + C := (Nat.min_le_left _ _).trans (by rw [Nat.succ_mul])
  omega

/-- A total length beyond 64 bits cannot be packed. -/
theorem packStreamHeader_of_ge {H : StreamFields} (h : 2 ^ 64 ≤ H.totalLen) :
    packStreamHeader H = .error .structError := by
  have hver : packUInt 1 STREAM_VERSION = .ok (beBytes 1 STREAM_VERSION) :=
    packUInt_of_lt (by decide)
  have hL : packUInt 8 H.totalLen = .error .structError := if_neg (by rw [pow_256_8]; omega)
  unfold packStreamHeader
  rw [hver, hL]
  by_cases hn : H.numSegments < 256 ^ 8
  · by_cases hC : H.segmentSize < 256 ^ 8
    · rw [packUInt_of_lt hn, packUInt_of_lt hC]
      rfl
    · have hpack : packUInt 8 H.segmentSize = .error .structError := if_neg hC
      rw [packUInt_of_lt hn, hpack]
      rfl
  · have hpack : packUInt 8 H.numSegments = .error .structError := if_neg hn
    rw [hpack]
    rfl

/-- What a chunked seal of admissible arguments does. -/
def StreamBinding.sealStream (P : Platform) (B : StreamBinding) (H : StreamHeader)
    (draw : StreamDraw) (states : List Bytes) : Py Bytes := do
  let _ ← Logged.perform (.streamId draw.streamId) draw.streamId
  let envs ← Logged.each (B.sealSegment P H draw.segment) states.zipIdx
  return H.bytes ++ frames envs

/-- **A chunked seal up to its loop**: for a state that fits the header. -/
theorem sealStateChunked_loop (draw : StreamDraw) {S : Bytes} (hS : S.length < 2 ^ 64)
    (M : Manifest P) (masterSecret : Arg Bytes) (epochId : Arg Int) (u : Bytes) {C : Nat}
    (hC : 0 < C) (hcap : C ≤ MAX_STATE) :
    sealStateChunked P draw (.of S) (.of M) masterSecret epochId (.of u) (.of (C : Int)) =
      (Logged.perform (.streamId draw.streamId) draw.streamId >>= fun _ =>
        sealSegmentsWith P (deriveKeyMaterial P) draw S M masterSecret epochId u
          (streamHeader draw hS hC hcap).toStreamFields 0 (segmentBounds S.length C)
          (streamHeader draw hS hC hcap).bytes) := by
  have hfields : (⟨draw.streamId, (segmentBounds S.length C).length, C, S.length⟩ : StreamFields)
      = (streamHeader draw hS hC hcap).toStreamFields := by
    rw [segmentBounds_length hC]
    rfl
  unfold sealStateChunked sealStateChunkedWith
  rw [requireManifest_eq_ok.mpr rfl, requireState_eq_ok.mpr rfl, requireContext_eq_ok.mpr rfl,
    checkSegmentSize_eq_ok.mpr ⟨rfl, hC, hcap⟩]
  simp only [Logged.liftM_ok, Logged.pure_bind, Logged.perform_bind, hfields, packStreamHeader_eq]

/-- For a state that does not fit the header, the call draws a stream id and fails. -/
theorem sealStateChunked_of_ge (draw : StreamDraw) {S : Bytes} (hS : 2 ^ 64 ≤ S.length)
    (M : Manifest P) (masterSecret : Arg Bytes) (epochId : Arg Int) (u : Bytes) {C : Nat}
    (hC : 0 < C) (hcap : C ≤ MAX_STATE) :
    sealStateChunked P draw (.of S) (.of M) masterSecret epochId (.of u) (.of (C : Int)) =
      ⟨[.streamId draw.streamId], .error .structError⟩ := by
  have hpack := packStreamHeader_of_ge (H := ⟨draw.streamId,
    (segmentBounds S.length C).length, C, S.length⟩) hS
  unfold sealStateChunked sealStateChunkedWith
  rw [requireManifest_eq_ok.mpr rfl, requireState_eq_ok.mpr rfl, requireContext_eq_ok.mpr rfl,
    checkSegmentSize_eq_ok.mpr ⟨rfl, hC, hcap⟩]
  simp only [Logged.liftM_ok, Logged.pure_bind, Logged.perform_bind, hpack]
  rfl

/-- **A chunked seal of admissible arguments.** -/
theorem sealStateChunked_eq {B : StreamBinding} {draw : StreamDraw} {S : Bytes}
    {manifest : Arg (Manifest P)} {masterSecret : Arg Bytes} {epochId : Arg Int}
    {context : Arg Bytes} (hB : B.PresentedBy manifest masterSecret epochId context)
    (hS : S.length < 2 ^ 64) {C : Nat} (hC : 0 < C) (hcap : C ≤ MAX_STATE) :
    sealStateChunked P draw (.of S) manifest masterSecret epochId context (.of (C : Int)) =
      B.sealStream P (streamHeader draw hS hC hcap) draw (segmentStates S C) := by
  obtain ⟨M, rfl, hM⟩ := hB.manifest
  obtain rfl := hB.context
  have hcount : 0 + (segmentBounds S.length C).length ≤ 2 ^ 64 := by
    rw [Nat.zero_add, segmentBounds_length hC]
    exact (streamHeader draw hS hC hcap).numSegments_lt.le
  rw [sealStateChunked_loop draw hS M masterSecret epochId B.context hC hcap,
    sealSegments_eq hB _ _ _ hcount fun b hb => (segmentBounds_le hC b hb).trans hcap]
  rfl

/-- The parameters of a stream from those of one of its segments. -/
theorem Binding.PresentedBy.stream {M : Manifest P} {masterSecret : Arg Bytes}
    {epochId : Arg Int} {u ctx : Bytes} {b : Binding}
    (hb : b.PresentedBy (.of M) masterSecret epochId (.of ctx)) {H : StreamHeader} {i : Nat}
    (hctx : H.toStreamFields.segContext u i = .ok ctx) :
    ∃ B : StreamBinding, B.PresentedBy (.of M) masterSecret epochId (.of u) := by
  have hle : u.length ≤ MAX_STREAM_CONTEXT := by
    have hlen := b.context_le
    rw [← Arg.of.inj hb.context, ← (segContext_eq_ok.mp hctx).2, segContextBytes_length,
      H.streamId_length, STREAM_ID_LEN, MAX_LP_FIELD] at hlen
    rw [MAX_STREAM_CONTEXT]
    omega
  have hle' : u.length ≤ MAX_LP_FIELD := hle.trans (by decide)
  exact ⟨⟨⟨⟨b.memh, b.epochId, u, b.memh_length, b.epochId_lt, hle'⟩, b.masterSecret,
    b.secret_length⟩, hle⟩, ⟨hb.manifest, hb.epochId, rfl⟩, hb.masterSecret⟩

/-- The first segment decides whether the parameters are admissible: if they are not, it fails
and leaves no trace. -/
theorem sealSegments_first (draw : StreamDraw) (S : Bytes) (M : Manifest P)
    (masterSecret : Arg Bytes) (epochId : Arg Int) (u : Bytes) (H : StreamHeader) (i : Nat)
    (out : Bytes) {bounds : List (Nat × Nat)} (hbounds : 0 < bounds.length) :
    (∃ e, sealSegmentsWith P (deriveKeyMaterial P) draw S M masterSecret epochId u
        H.toStreamFields i bounds out = .fail e) ∨
      ∃ B : StreamBinding, B.PresentedBy (.of M) masterSecret epochId (.of u) := by
  match bounds with
  | (lo, hi) :: bounds =>
    cases hctx : H.toStreamFields.segContext u i with
    | error e =>
      refine .inl ⟨e, ?_⟩
      rw [sealSegmentsWith, hctx]
      rfl
    | ok ctx =>
      rcases sealState_cases (draw.segment i) (.of (slice S lo hi)) (.of M) masterSecret epochId
        (.of ctx) none with ⟨e, hfail⟩ | ⟨b, _, hb, -, -, -⟩
      · refine .inl ⟨e, ?_⟩
        have hseal : sealStateWith P (deriveKeyMaterial P) (draw.segment i)
            (.of (slice S lo hi)) (.of M) masterSecret epochId (.of ctx) none = .fail e := hfail
        rw [sealSegmentsWith, hctx, Logged.liftM_ok, Logged.pure_bind, hseal]
        rfl
      · exact .inr (hb.stream hctx)

/-- **Everything a chunked seal can do**: it fails having drawn at most a stream id, or it is a
chunked seal of admissible arguments. -/
theorem sealStateChunked_cases (draw : StreamDraw) (state : Arg Bytes)
    (manifest : Arg (Manifest P)) (masterSecret : Arg Bytes) (epochId : Arg Int)
    (context : Arg Bytes) (segmentSize : Arg Int) :
    (∃ log e, sealStateChunked P draw state manifest masterSecret epochId context segmentSize
        = ⟨log, .error e⟩ ∧ log ⊆ [.streamId draw.streamId]) ∨
      ∃ (B : StreamBinding) (S : Bytes) (C : Nat) (_ : S.length < 2 ^ 64) (_ : 0 < C)
        (_ : C ≤ MAX_STATE), B.PresentedBy manifest masterSecret epochId context ∧
          state = .of S ∧ segmentSize = .of (C : Int) := by
  cases hM : requireManifest P manifest with
  | error e =>
    refine .inl ⟨[], e, ?_, List.nil_subset _⟩
    rw [sealStateChunked, sealStateChunkedWith, hM]
    rfl
  | ok M =>
  cases hstate : requireState state with
  | error e =>
    refine .inl ⟨[], e, ?_, List.nil_subset _⟩
    rw [sealStateChunked, sealStateChunkedWith, hM, hstate]
    rfl
  | ok S =>
  cases hcontext : requireContext context with
  | error e =>
    refine .inl ⟨[], e, ?_, List.nil_subset _⟩
    rw [sealStateChunked, sealStateChunkedWith, hM, hstate, hcontext]
    rfl
  | ok u =>
  cases hsize : checkSegmentSize segmentSize with
  | error e =>
    refine .inl ⟨[], e, ?_, List.nil_subset _⟩
    rw [sealStateChunked, sealStateChunkedWith, hM, hstate, hcontext, hsize]
    rfl
  | ok C =>
  obtain ⟨rfl, hC, hcap⟩ := checkSegmentSize_eq_ok.mp hsize
  obtain rfl := requireManifest_eq_ok.mp hM
  obtain rfl := requireState_eq_ok.mp hstate
  obtain rfl := requireContext_eq_ok.mp hcontext
  by_cases hS : S.length < 2 ^ 64
  · have hpos : 0 < (segmentBounds S.length C).length := by
      rw [segmentBounds_length hC, segmentCount]
      omega
    rcases sealSegments_first draw S M masterSecret epochId u (streamHeader draw hS hC hcap) 0
      (streamHeader draw hS hC hcap).bytes hpos with ⟨e, hfail⟩ | ⟨B, hB⟩
    · refine .inl ⟨[.streamId draw.streamId], e, ?_, fun _ he => he⟩
      rw [sealStateChunked_loop draw hS M masterSecret epochId u hC hcap, Logged.perform_bind,
        hfail]
      rfl
    · exact .inr ⟨B, S, C, hS, hC, hcap, hB, rfl, rfl⟩
  · exact .inl ⟨_, .structError, sealStateChunked_of_ge draw (not_lt.mp hS) M masterSecret epochId
      u hC hcap, fun _ he => he⟩

/-! ## 4. Outcome and log of an admissible call -/

namespace StreamBinding

variable {B : StreamBinding} {H : StreamHeader} {draw : StreamDraw} {states : List Bytes}

/-- **When a chunked seal of admissible arguments returns, and what.** -/
theorem sealStream_eq_ok {X : Bytes} :
    (B.sealStream P H draw states).result = .ok X ↔
      (∀ x ∈ states.zipIdx,
          ((B.segment H x.2).ciphertext P (draw.segment x.2) x.1).length < 2 ^ 32) ∧
        B.container P H draw.segment states = X := by
  have hclosed : (∀ x ∈ states.zipIdx,
      ((B.segment H x.2).ciphertext P (draw.segment x.2) x.1).length < 2 ^ 32) →
      (B.sealStream P H draw states).result = .ok (B.container P H draw.segment states) := by
    intro hlt
    rw [sealStream, Logged.each_of_ok fun x hx => sealSegment_eq_ok.mpr ⟨hlt x hx, rfl⟩]
    rfl
  constructor
  · intro h
    have hlt : ∀ x ∈ states.zipIdx,
        ((B.segment H x.2).ciphertext P (draw.segment x.2) x.1).length < 2 ^ 32 := by
      intro x hx
      obtain ⟨_, -, hrest⟩ := Logged.result_bind_eq_ok.mp h
      obtain ⟨envs, henvs, -⟩ := Logged.result_bind_eq_ok.mp hrest
      obtain ⟨env, henv⟩ := Logged.exists_result_each_eq_ok.mp ⟨envs, henvs⟩ x hx
      exact (sealSegment_eq_ok.mp henv).1
    rw [hclosed hlt] at h
    exact ⟨hlt, Except.ok.inj h⟩
  · rintro ⟨hlt, rfl⟩
    exact hclosed hlt

/-- The log of the call is its stream id and the logs of its seals. -/
theorem log_sealStream : (B.sealStream P H draw states).log =
    .streamId draw.streamId :: (Logged.each (B.sealSegment P H draw.segment) states.zipIdx).log := by
  rw [sealStream, Logged.perform_bind]
  cases h : (Logged.each (B.sealSegment P H draw.segment) states.zipIdx).result with
  | error e => rw [Logged.bind_of_error h]
  | ok envs => rw [Logged.bind_of_ok h, Logged.pure_log, List.append_nil]

/-- **Where an event of the call comes from**: the draw of the stream id, or the seal of one
segment, all of which is then in the log. -/
theorem mem_log_sealStream {e : Event} (h : e ∈ (B.sealStream P H draw states).log) :
    e = .streamId draw.streamId ∨
      ∃ i s, states[i]? = some s ∧ e ∈ (B.segment H i).sealLog P (draw.segment i) s ∧
        (B.segment H i).sealLog P (draw.segment i) s ⊆ (B.sealStream P H draw states).log := by
  rw [log_sealStream] at h ⊢
  rcases List.mem_cons.mp h with rfl | h
  · exact .inl rfl
  · obtain ⟨⟨s, i⟩, hx, he, hsub⟩ := Logged.mem_log_each h
    exact .inr ⟨i, s, List.mk_mem_zipIdx_iff_getElem?.mp hx, he,
      List.Subset.trans hsub (List.subset_cons_self _ _)⟩

end StreamBinding

/-- **Under the length law every admissible chunked seal returns its container.** -/
theorem sealStateChunked_eq_container (htag : P.AeadTag) {B : StreamBinding} {draw : StreamDraw}
    {S : Bytes} {manifest : Arg (Manifest P)} {masterSecret : Arg Bytes} {epochId : Arg Int}
    {context : Arg Bytes} (hB : B.PresentedBy manifest masterSecret epochId context)
    (hS : S.length < 2 ^ 64) {C : Nat} (hC : 0 < C) (hcap : C ≤ MAX_STATE) :
    (sealStateChunked P draw (.of S) manifest masterSecret epochId context (.of (C : Int))).result
      = .ok (B.container P (streamHeader draw hS hC hcap) draw.segment (segmentStates S C)) := by
  rw [sealStateChunked_eq hB hS hC hcap, StreamBinding.sealStream_eq_ok]
  refine ⟨?_, rfl⟩
  rintro ⟨s, i⟩ hx
  have hlen : s.length ≤ MAX_STATE := by
    rw [(length_of_segmentStates hC (List.mk_mem_zipIdx_iff_getElem?.mp hx)).2]
    exact (Nat.min_le_left _ _).trans hcap
  rw [Binding.ciphertext_length htag]
  exact length_le_MAX_STATE_iff.mp hlen

end Sce
