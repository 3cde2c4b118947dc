/-
# The stream parser accepts exactly the declared grammar

`StreamGrammar` of `StreamOpen.lean` speaks of headers and envelopes as values.  This file spells
the grammar out in bytes (`ContainerGrammar`), with the envelopes as byte strings that
`unseal_state` opens, and shows that a chunked unseal returns a state just for such containers
(`stream_grammar_exact`).

On every other byte string it raises one of its two documented errors.  On any it reads nothing
beyond the container and goes round its loop no more often than the container's length allows,
whatever counts and lengths are written in it; and each time round but perhaps the last it slices
one envelope and makes one decryption.
-/
import Sce.StreamErrors
import Sce.StreamReads

namespace Sce

open BigEndian

variable {P : Platform}

/-! ## 1. The grammar in bytes -/

/-- **The layout of a container**, written out. -/
structure ContainerGrammar (X : Bytes) (H : StreamFields) (envs : List Bytes) : Prop where
  streamId_length : H.streamId.length = 16
  numSegments_lt : H.numSegments < 2 ^ 64
  segmentSize_lt : H.segmentSize < 2 ^ 64
  totalLen_lt : H.totalLen < 2 ^ 64
  bytes : X = STREAM_MAGIC ++ [0x01] ++ H.streamId ++ beBytes 8 H.numSegments
    ++ beBytes 8 H.segmentSize ++ beBytes 8 H.totalLen
    ++ envs.flatMap fun env => beBytes 8 env.length ++ env
  count : envs.length = H.numSegments
  pos : 1 ≤ H.numSegments
  empty : H.totalLen = 0 → H.numSegments = 1

/-- **Each envelope is opened by `unseal_state` under its segment context**, to the part of the
same index. -/
structure PartsOpen (P : Platform) (manifest : Arg (Manifest P)) (masterSecret : Arg Bytes)
    (epochId : Arg Int) (context : Bytes) (H : StreamFields) (envs parts : List Bytes) :
    Prop where
  count : parts.length = envs.length
  opens : ∀ i env part, envs[i]? = some env → parts[i]? = some part →
    ∃ segCtx, segContext context H.streamId i H.numSegments H.totalLen H.segmentSize = .ok segCtx ∧
      (unsealState P (.of (.bytes env)) manifest masterSecret epochId (.of segCtx)).result
        = .ok part

theorem StreamHeader.bytes_eq (H : StreamHeader) : H.bytes =
    STREAM_MAGIC ++ [0x01] ++ H.streamId ++ beBytes 8 H.numSegments ++ beBytes 8 H.segmentSize
      ++ beBytes 8 H.totalLen := by
  rw [StreamHeader.bytes]
  simp only [List.append_assoc]
  rfl

/-- The two spellings of the grammar. -/
theorem StreamGrammar.container {X : Bytes} {H : StreamHeader} {Vs : List Envelope}
    (h : StreamGrammar X H Vs) :
    ContainerGrammar X H.toStreamFields (Vs.map Envelope.bytes) where
  streamId_length := H.streamId_length
  numSegments_lt := H.numSegments_lt
  segmentSize_lt := H.segmentSize_lt
  totalLen_lt := H.totalLen_lt
  bytes := by
    rw [h.bytes, H.bytes_eq]
    rfl
  count := by rw [List.length_map, h.count]
  pos := Nat.one_le_iff_ne_zero.mpr h.nonzero
  empty := h.empty

/-- Byte strings that are envelopes one by one are the bytes of a list of envelopes. -/
theorem exists_map_bytes {envs : List Bytes} (h : ∀ env ∈ envs, ∃ V : Envelope, env = V.bytes) :
    ∃ Vs : List Envelope, envs = Vs.map Envelope.bytes := by
  induction envs with
  | nil => exact ⟨[], rfl⟩
  | cons env envs ih =>
    obtain ⟨V, rfl⟩ := h _ List.mem_cons_self
    obtain ⟨Vs, rfl⟩ := ih fun env henv => h env (List.mem_cons_of_mem _ henv)
    exact ⟨V :: Vs, rfl⟩

theorem ContainerGrammar.exists_grammar {X : Bytes} {F : StreamFields} {Vs : List Envelope}
    (h : ContainerGrammar X F (Vs.map Envelope.bytes)) :
    ∃ H : StreamHeader, H.toStreamFields = F ∧ StreamGrammar X H Vs := by
  let H : StreamHeader :=
    { F with
      streamId_length := h.streamId_length
      numSegments_lt := h.numSegments_lt
      segmentSize_lt := h.segmentSize_lt
      totalLen_lt := h.totalLen_lt }
  have hcount : Vs.length = F.numSegments := by
    rw [← h.count, List.length_map]
  refine ⟨H, rfl, ?_, hcount, Nat.one_le_iff_ne_zero.mp h.pos, h.empty⟩
  rw [h.bytes, H.bytes_eq]
  rfl

/-- **Opening under the places is opening by `unseal_state`.** -/
theorem opensAll_iff_partsOpen {B : StreamBinding} {H : StreamHeader} {M : Manifest P}
    {masterSecret : Arg Bytes} {epochId : Arg Int} {context : Arg Bytes}
    (hB : B.PresentedBy (.of M) masterSecret epochId context) {Vs : List Envelope}
    (hcount : Vs.length = H.numSegments) {parts : List Bytes} :
    B.OpensAll P H Vs parts ↔ PartsOpen P (.of M) masterSecret epochId B.context
      H.toStreamFields (Vs.map Envelope.bytes) parts := by
  have hplace : ∀ {i : Nat} {V : Envelope} {part : Bytes}, i < 2 ^ 64 →
      ((B.segment H i).Opens P V part ↔ ∃ segCtx,
        segContext B.context H.streamId i H.numSegments H.totalLen H.segmentSize = .ok segCtx ∧
          (unsealState P (.of (.bytes V.bytes)) (.of M) masterSecret epochId
            (.of segCtx)).result = .ok part) := by
    intro i V part hi
    have hctx : segContext B.context H.streamId i H.numSegments H.totalLen H.segmentSize
        = .ok (B.segment H i).context := B.segContext_eq H hi
    have heq := unsealState_eq (P := P) (x := .bytes V.bytes) (B.segment_presentedBy H hB i) rfl
    rw [← Binding.opens_iff, hctx]
    constructor
    · intro h
      refine ⟨_, rfl, ?_⟩
      rw [heq]
      exact h
    · rintro ⟨segCtx, hsegCtx, h⟩
      obtain rfl := Except.ok.inj hsegCtx
      rw [heq] at h
      exact h
  have hindex : ∀ {i : Nat} {V : Envelope}, Vs[i]? = some V → i < 2 ^ 64 := by
    intro i V hV
    have hi := (List.getElem?_eq_some_iff.mp hV).1
    rw [hcount] at hi
    exact hi.trans H.numSegments_lt
  constructor
  · intro h
    refine ⟨by rw [List.length_map, h.length_eq], ?_⟩
    intro i env part henv hpart
    rw [List.getElem?_map, Option.map_eq_some_iff] at henv
    obtain ⟨V, hV, rfl⟩ := henv
    obtain ⟨s, hs, hopens⟩ := h.get hV
    obtain rfl := Option.some.inj (hs.symm.trans hpart)
    exact (hplace (hindex hV)).mp hopens
  · intro h
    have hlen : Vs.zipIdx.length = parts.length := by
      rw [List.length_zipIdx, h.count, List.length_map]
    refine List.forall₂_iff_get.mpr ⟨hlen, fun i hi hi' => ?_⟩
    rw [List.length_zipIdx] at hi
    have hV : Vs[i]? = some Vs[i] := List.getElem?_eq_getElem hi
    have henv : (Vs.map Envelope.bytes)[i]? = some Vs[i].bytes := by
      rw [List.getElem?_map, hV]
      rfl
    have hopens := h.opens i _ _ henv (List.getElem?_eq_getElem hi')
    simpa only [List.get_eq_getElem, List.getElem_zipIdx, Nat.zero_add]
      using (hplace (hindex hV)).mpr hopens

/-! ## 2. Every other byte string -/

/-- **A chunked unseal of admissible parameters fails in one of two ways.** -/
theorem unsealStateChunked_error {B : StreamBinding} {x : Carrier} {M : Manifest P}
    {masterSecret : Arg Bytes} {epochId : Arg Int} {context : Arg Bytes}
    (hB : B.PresentedBy (.of M) masterSecret epochId context) {e : PyExc}
    (h : (unsealStateChunked P (.of x) (.of M) masterSecret epochId context).result = .error e) :
    e = mismatch ∨ ∃ message, e = .malformedEnvelope message := by
  rw [unsealStateChunked_eq hB] at h
  rcases Logged.result_bind_eq_error.mp h with hscan | ⟨sc, hscan, hrest⟩
  · exact .inr (scanStream_malformed hscan)
  · rcases Logged.result_bind_eq_error.mp hrest with hopen | ⟨parts, -, hfinish⟩
    · exact .inl (openSegments_error hB hscan hopen)
    · have hfinish : sc.finish parts = .error e := hfinish
      unfold Scan.finish at hfinish
      split at hfinish
      · exact .inr ⟨_, (Except.error.inj hfinish).symm⟩
      · split_ifs at hfinish
        exact .inl (Except.error.inj hfinish).symm

/-! ## 3. The parser -/

/-- **The stream parser accepts exactly the declared grammar.**  A chunked unseal returns `S`
just when the bytes are a container whose envelopes open, each under its segment context, to
parts that make `S` and have the declared total length; otherwise it raises `MalformedEnvelope`
or the one mismatch.  It slices nothing beyond the container and makes at most
`(|X| - 45) / 9` passes through its loop, which account for every decryption it makes. -/
theorem stream_grammar_exact (M : Manifest P) {masterSecret : Bytes}
    (hsecret : 16 ≤ masterSecret.length) {epochId : Nat} (hepoch : epochId < 2 ^ 64)
    {context : Bytes} (hcontext : context.length ≤ 2 ^ 32 - 75) (X : Bytes) :
    (∀ S, (unsealStateChunked P (.of (.bytes X)) (.of M) (.of masterSecret) (.of (epochId : Int))
        (.of context)).result = .ok S ↔
      ∃ (H : StreamFields) (envs parts : List Bytes), ContainerGrammar X H envs ∧
        PartsOpen P (.of M) (.of masterSecret) (.of (epochId : Int)) context H envs parts ∧
        parts.flatten = S ∧ S.length = H.totalLen) ∧
    ((∀ S, (unsealStateChunked P (.of (.bytes X)) (.of M) (.of masterSecret)
        (.of (epochId : Int)) (.of context)).result ≠ .ok S) →
      RaisesMalformed (unsealStateChunked P (.of (.bytes X)) (.of M) (.of masterSecret)
        (.of (epochId : Int)) (.of context)) ∨
      (unsealStateChunked P (.of (.bytes X)) (.of M) (.of masterSecret)
        (.of (epochId : Int)) (.of context)).result = .error mismatch) ∧
    (unsealStateChunkedTraced P (.bytes X) M (.of masterSecret) (.of (epochId : Int)) context).1
      = unsealStateChunked P (.of (.bytes X)) (.of M) (.of masterSecret) (.of (epochId : Int))
        (.of context) ∧
    (∀ r ∈ (unsealStateChunkedTraced P (.bytes X) M (.of masterSecret) (.of (epochId : Int))
      context).2.reads, r.1 ≤ r.2 ∧ r.2 ≤ X.length) ∧
    (unsealStateChunkedTraced P (.bytes X) M (.of masterSecret) (.of (epochId : Int))
      context).2.passes.length ≤ (X.length - 45) / 9 ∧
    DecryptsPasses X
      (unsealStateChunked P (.of (.bytes X)) (.of M) (.of masterSecret) (.of (epochId : Int))
        (.of context)).log
      (unsealStateChunkedTraced P (.bytes X) M (.of masterSecret) (.of (epochId : Int))
        context).2.passes := by
  obtain ⟨B, hB⟩ := exists_streamBinding M hsecret hepoch hcontext
  obtain rfl := Arg.of.inj hB.context
  refine ⟨fun S => ?_, fun hnot => ?_, unsealStateChunkedTraced_run _ _ _ _ _,
    reads_le _ _ _ _ _, passes_length_le _ _ _ _ _, ?_⟩
  · rw [unsealStateChunked_eq_ok hB]
    constructor
    · rintro ⟨H, Vs, parts, hgrammar, hopens, hS, hlen⟩
      exact ⟨_, _, parts, hgrammar.container,
        (opensAll_iff_partsOpen hB hgrammar.count).mp hopens, hS, hlen⟩
    · rintro ⟨F, envs, parts, hgrammar, hopens, hS, hlen⟩
      -- an envelope that opened parses, so the envelopes are values
      have henvelopes : ∀ env ∈ envs, ∃ V : Envelope, env = V.bytes := by
        intro env henv
        obtain ⟨i, hi⟩ := List.mem_iff_getElem?.mp henv
        have hlt : i < parts.length := by
          rw [hopens.count]
          exact (List.getElem?_eq_some_iff.mp hi).1
        obtain ⟨segCtx, -, hopen⟩ := hopens.opens i _ _ hi (List.getElem?_eq_getElem hlt)
        obtain ⟨_, x, V, -, hx, hV, -⟩ := unsealState_ok hopen
        obtain rfl := Arg.of.inj hx
        exact ⟨V, hV⟩
      obtain ⟨Vs, rfl⟩ := exists_map_bytes henvelopes
      obtain ⟨H, rfl, hgrammar'⟩ := hgrammar.exists_grammar
      exact ⟨H, Vs, parts, hgrammar', (opensAll_iff_partsOpen hB hgrammar'.count).mpr hopens, hS,
        hlen⟩
  · cases hresult : (unsealStateChunked P (.of (.bytes X)) (.of M) (.of masterSecret)
        (.of (epochId : Int)) (.of B.context)).result with
    | ok S => exact absurd hresult (hnot S)
    | error e =>
      rcases unsealStateChunked_error hB hresult with rfl | ⟨message, rfl⟩
      · exact .inr rfl
      · exact .inl ⟨message, hresult⟩
  · rw [← unsealStateChunkedTraced_run]
    exact decryptsPasses (x := .bytes X) hB

/-- The container of uneven segments follows the grammar. -/
theorem toyUneven_grammar :
    ∃ (H : StreamFields) (envs parts : List Bytes), ContainerGrammar toyUneven H envs ∧
      PartsOpen toy (.of toyManifest) (.of toySecret) (.of ((9 : Nat) : Int)) [0x63] H envs
        parts ∧ parts.flatten = [0x01, 0x02, 0x03] ∧ [0x01, 0x02, 0x03].length = H.totalLen := by
  have hopen : (unsealStateChunked toy (.of (.bytes toyUneven)) (.of toyManifest)
      (.of toySecret) (.of ((9 : Nat) : Int)) (.of [0x63])).result = .ok [0x01, 0x02, 0x03] := by
    decide +kernel
  exact ((stream_grammar_exact toyManifest (by decide) (by decide) (by decide)
    toyUneven).1 _).mp hopen

end Sce
