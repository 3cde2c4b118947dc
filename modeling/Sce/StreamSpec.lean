/-
# The parts of a container

Closed forms of what `Stream.lean` packs and parses, on values that carry their validity.

* Section 1: the segment context, and that it determines every argument it was made from.
* Section 2: the header as a value, and the parse of a container into header and rest.
* Section 3: `StreamBinding`, the parameters a stream is sealed under, and the binding each of
  its segments is sealed under.  Distinct places have distinct bindings
  (`StreamBinding.segment_inj`).
* Section 4: the segmentation.  `segmentStates` cuts a state into its segments, which
  concatenate to it, number `segmentCount`, and have the lengths the format states.
-/
import Sce.Stream
import Sce.SealSpec

namespace Sce

open BigEndian

theorem pow_256_4 : (256 : Nat) ^ 4 = 2 ^ 32 := by decide

theorem pow_256_8 : (256 : Nat) ^ 8 = 2 ^ 64 := by decide

/-! ## 1. The segment context -/

/-- The bytes of a segment context. -/
def segContextBytes (userContext streamId : Bytes)
    (index numSegments totalLen segmentSize : Nat) : Bytes :=
  STREAM_DOMAIN ++ (lenPrefix 4 userContext ++ (lenPrefix 4 streamId ++ (beBytes 8 index
    ++ (beBytes 8 numSegments ++ (beBytes 8 totalLen ++ beBytes 8 segmentSize)))))

theorem segContextBytes_length (userContext streamId : Bytes)
    (index numSegments totalLen segmentSize : Nat) :
    (segContextBytes userContext streamId index numSegments totalLen segmentSize).length
      = 58 + userContext.length + streamId.length := by
  simp only [segContextBytes, List.length_append, lenPrefix_length, beBytes_length,
    STREAM_DOMAIN_length]
  omega

theorem streamLp_eq_ok {b x : Bytes} :
    streamLp b = .ok x ↔ b.length < 2 ^ 32 ∧ lenPrefix 4 b = x := by
  simp only [streamLp, Except.bind_eq_ok, toBytes_natCast_eq_ok, Except.pure_eq_ok, lenPrefix,
    pow_256_4]
  constructor
  · rintro ⟨_, ⟨hlen, rfl⟩, rfl⟩
    exact ⟨hlen, rfl⟩
  · rintro ⟨hlen, rfl⟩
    exact ⟨_, ⟨hlen, rfl⟩, rfl⟩

/-- The arguments a segment context can be built from. -/
structure SegContextArgs (userContext streamId : Bytes)
    (index numSegments totalLen segmentSize : Nat) : Prop where
  userContext : userContext.length < 2 ^ 32
  streamId : streamId.length < 2 ^ 32
  index : index < 2 ^ 64
  numSegments : numSegments < 2 ^ 64
  totalLen : totalLen < 2 ^ 64
  segmentSize : segmentSize < 2 ^ 64

/-- **When `_seg_context` returns, and what.** -/
theorem segContext_eq_ok {userContext streamId x : Bytes}
    {index numSegments totalLen segmentSize : Nat} :
    segContext userContext streamId index numSegments totalLen segmentSize = .ok x ↔
      SegContextArgs userContext streamId index numSegments totalLen segmentSize ∧
        segContextBytes userContext streamId index numSegments totalLen segmentSize = x := by
  simp only [segContext, Except.bind_eq_ok, streamLp_eq_ok, toBytes_natCast_eq_ok,
    Except.pure_eq_ok, pow_256_8, segContextBytes, List.append_assoc]
  constructor
  · rintro ⟨_, ⟨hu, rfl⟩, _, ⟨hs, rfl⟩, _, ⟨hi, rfl⟩, _, ⟨hn, rfl⟩, _, ⟨hL, rfl⟩, _, ⟨hC, rfl⟩,
      rfl⟩
    exact ⟨⟨hu, hs, hi, hn, hL, hC⟩, rfl⟩
  · rintro ⟨⟨hu, hs, hi, hn, hL, hC⟩, rfl⟩
    exact ⟨_, ⟨hu, rfl⟩, _, ⟨hs, rfl⟩, _, ⟨hi, rfl⟩, _, ⟨hn, rfl⟩, _, ⟨hL, rfl⟩, _, ⟨hC, rfl⟩,
      rfl⟩

theorem beBytes8_selfDelim : SelfDelim (fun n => n < 2 ^ 64) (beBytes 8) := by
  have h := beBytes_selfDelim 8
  rwa [pow_256_8] at h

theorem lenPrefix4_selfDelim : SelfDelim (fun b : Bytes => b.length < 2 ^ 32) (lenPrefix 4) := by
  have h := lenPrefix_selfDelim 4
  rwa [pow_256_4] at h

/-- **A segment context determines every argument it was made from.** -/
theorem segContextBytes_inj {u u' s s' : Bytes} {i i' n n' L L' C C' : Nat}
    (h : SegContextArgs u s i n L C) (h' : SegContextArgs u' s' i' n' L' C')
    (he : segContextBytes u s i n L C = segContextBytes u' s' i' n' L' C') :
    u = u' ∧ s = s' ∧ i = i' ∧ n = n' ∧ L = L' ∧ C = C' := by
  have he := List.append_cancel_left he
  obtain ⟨hu, he⟩ := lenPrefix4_selfDelim h.userContext h'.userContext he
  obtain ⟨hs, he⟩ := lenPrefix4_selfDelim h.streamId h'.streamId he
  obtain ⟨hi, he⟩ := beBytes8_selfDelim h.index h'.index he
  obtain ⟨hn, he⟩ := beBytes8_selfDelim h.numSegments h'.numSegments he
  obtain ⟨hL, he⟩ := beBytes8_selfDelim h.totalLen h'.totalLen he
  exact ⟨hu, hs, hi, hn, hL, beBytes8_selfDelim.inj h.segmentSize h'.segmentSize he⟩

/-! ## 2. The header -/

/-- **A container header**, as a value. -/
@[ext] structure StreamHeader extends StreamFields where
  streamId_length : streamId.length = STREAM_ID_LEN
  numSegments_lt : numSegments < 2 ^ 64
  segmentSize_lt : segmentSize < 2 ^ 64
  totalLen_lt : totalLen < 2 ^ 64

namespace StreamHeader

variable (H : StreamHeader)

/-- Its encoding. -/
def bytes : Bytes :=
  STREAM_MAGIC ++ (beBytes 1 STREAM_VERSION ++ (H.streamId ++ (beBytes 8 H.numSegments
    ++ (beBytes 8 H.segmentSize ++ beBytes 8 H.totalLen))))

@[simp] theorem bytes_length : H.bytes.length = 45 := by
  simp only [bytes, List.length_append, beBytes_length, H.streamId_length]
  rfl

end StreamHeader

theorem packStreamHeader_eq (H : StreamHeader) :
    packStreamHeader H.toStreamFields = .ok H.bytes := by
  unfold packStreamHeader StreamHeader.bytes
  rw [packUInt_of_lt (by decide), packUInt_of_lt (pow_256_8 ▸ H.numSegments_lt),
    packUInt_of_lt (pow_256_8 ▸ H.segmentSize_lt), packUInt_of_lt (pow_256_8 ▸ H.totalLen_lt),
    packS_of_length STREAM_MAGIC_length, packS_of_length H.streamId_length]
  simp only [List.append_assoc]
  rfl

/-- The parser accepts every header, whatever follows it. -/
theorem parseStreamHeader_bytes (H : StreamHeader) (rest : Bytes) :
    parseStreamHeader (H.bytes ++ rest) = .ok H.toStreamFields := by
  have hlen : (H.bytes ++ rest).length = 45 + rest.length := by
    rw [List.length_append, H.bytes_length]
  have hsplit : H.bytes ++ rest = STREAM_MAGIC ++ (beBytes 1 STREAM_VERSION ++ (H.streamId
      ++ (beBytes 8 H.numSegments ++ (beBytes 8 H.segmentSize ++ (beBytes 8 H.totalLen
        ++ rest))))) := by
    simp only [StreamHeader.bytes, List.append_assoc]
  have hsid := H.streamId_length
  have hmagic : slice (H.bytes ++ rest) 0 4 = STREAM_MAGIC :=
    slice_of_append (p := []) hsplit rfl rfl
  have hversion : slice (H.bytes ++ rest) 4 5 = beBytes 1 STREAM_VERSION :=
    slice_of_append hsplit rfl rfl
  have hstreamId : slice (H.bytes ++ rest) 5 21 = H.streamId :=
    slice_of_append (p := STREAM_MAGIC ++ beBytes 1 STREAM_VERSION)
      (by rw [hsplit]; simp only [List.append_assoc]; rfl) rfl (by rw [hsid]; rfl)
  have hn : slice (H.bytes ++ rest) 21 29 = beBytes 8 H.numSegments :=
    slice_of_append (p := STREAM_MAGIC ++ beBytes 1 STREAM_VERSION ++ H.streamId)
      (by rw [hsplit]; simp only [List.append_assoc]; rfl)
      (by rw [List.length_append, hsid]; rfl) (by rw [beBytes_length])
  have hC : slice (H.bytes ++ rest) 29 37 = beBytes 8 H.segmentSize :=
    slice_of_append (p := STREAM_MAGIC ++ beBytes 1 STREAM_VERSION ++ H.streamId
        ++ beBytes 8 H.numSegments) (by rw [hsplit]; simp only [List.append_assoc]; rfl)
      (by simp only [List.length_append, hsid, beBytes_length]; rfl) (by rw [beBytes_length])
  have hL : slice (H.bytes ++ rest) 37 45 = beBytes 8 H.totalLen :=
    slice_of_append (p := STREAM_MAGIC ++ beBytes 1 STREAM_VERSION ++ H.streamId
        ++ beBytes 8 H.numSegments ++ beBytes 8 H.segmentSize)
      (by rw [hsplit]; simp only [List.append_assoc]; rfl)
      (by simp only [List.length_append, hsid, beBytes_length]; rfl) (by rw [beBytes_length])
  unfold parseStreamHeader
  rw [STREAM_HEADER_size_eq, if_neg (by omega)]
  simp only [hmagic, hversion, hstreamId, hn, hC, hL]
  rw [if_neg (by simp), if_neg (by decide), beNat_beBytes (pow_256_8 ▸ H.numSegments_lt),
    beNat_beBytes (pow_256_8 ▸ H.segmentSize_lt), beNat_beBytes (pow_256_8 ▸ H.totalLen_lt)]

/-- An 8-byte slice read as a number. -/
theorem beNat_slice8 {X : Bytes} {n : Nat} (h : n + 8 ≤ X.length) :
    beNat (slice X n (n + 8)) < 2 ^ 64 ∧
      beBytes 8 (beNat (slice X n (n + 8))) = slice X n (n + 8) := by
  have hlen : (slice X n (n + 8)).length = 8 := by
    rw [slice_length h]
    omega
  have hlt := beNat_lt (slice X n (n + 8))
  rw [hlen, pow_256_8] at hlt
  exact ⟨hlt, beBytes_beNat_of_length hlen⟩

/-- **The parser accepts exactly what starts with a header**, and rejects as malformed. -/
theorem parseStreamHeader_cases (X : Bytes) :
    (∃ message, parseStreamHeader X = .error (.malformedEnvelope message)) ∨
      ∃ (H : StreamHeader) (rest : Bytes), X = H.bytes ++ rest := by
  unfold parseStreamHeader
  dsimp only
  rw [STREAM_HEADER_size_eq]
  split_ifs with hlen hmagic hversion
  · exact .inl ⟨_, rfl⟩
  · exact .inl ⟨_, rfl⟩
  · exact .inl ⟨_, rfl⟩
  · refine .inr ?_
    have hmagic := not_not.mp hmagic
    have hversion : slice X 4 5 = beBytes 1 STREAM_VERSION := by
      rw [← not_not.mp hversion]
      exact (beBytes_beNat_of_length (by rw [slice_length (by omega)])).symm
    obtain ⟨hn, hnbytes⟩ := beNat_slice8 (X := X) (n := 21) (by omega)
    obtain ⟨hC, hCbytes⟩ := beNat_slice8 (X := X) (n := 29) (by omega)
    obtain ⟨hL, hLbytes⟩ := beNat_slice8 (X := X) (n := 37) (by omega)
    let H : StreamHeader :=
      { streamId := slice X 5 21
        numSegments := beNat (slice X 21 29)
        segmentSize := beNat (slice X 29 37)
        totalLen := beNat (slice X 37 45)
        streamId_length := by rw [slice_length (by omega)]; rfl
        numSegments_lt := hn
        segmentSize_lt := hC
        totalLen_lt := hL }
    have hH : H.bytes = slice X 0 45 := by
      rw [StreamHeader.bytes, hnbytes, hCbytes, hLbytes, ← hmagic, ← hversion,
        slice_append_slice (by omega) (by omega), slice_append_slice (by omega) (by omega),
        slice_append_slice (by omega) (by omega), slice_append_slice (by omega) (by omega),
        slice_append_slice (by omega) (by omega)]
    exact ⟨H, X.drop 45, by rw [hH, slice_append_drop]⟩

/-- A header that parses is one with its invariant. -/
theorem exists_streamHeader {X : Bytes} {F : StreamFields} (h : parseStreamHeader X = .ok F) :
    ∃ H : StreamHeader, F = H.toStreamFields := by
  rcases parseStreamHeader_cases X with ⟨message, he⟩ | ⟨H, rest, rfl⟩
  · rw [he] at h
    exact absurd h (by simp)
  · rw [parseStreamHeader_bytes] at h
    exact ⟨H, (Except.ok.inj h).symm⟩

/-- **The header of a container is determined by its bytes.** -/
theorem StreamHeader.bytes_inj {H H' : StreamHeader} {rest rest' : Bytes}
    (h : H.bytes ++ rest = H'.bytes ++ rest') : H = H' ∧ rest = rest' := by
  have hfields : H.toStreamFields = H'.toStreamFields := by
    have hp := parseStreamHeader_bytes H rest
    rw [h, parseStreamHeader_bytes H' rest'] at hp
    exact (Except.ok.inj hp).symm
  obtain ⟨fields, _, _, _, _⟩ := H
  obtain ⟨fields', _, _, _, _⟩ := H'
  obtain rfl : fields = fields' := hfields
  exact ⟨rfl, List.append_cancel_left h⟩

/-! ## 3. The binding of a segment -/

/-- The longest user context whose segment contexts the core accepts. -/
def MAX_STREAM_CONTEXT : Nat := 2 ^ 32 - 75

/-- **The parameters a stream is sealed under.** -/
@[ext] structure StreamBinding extends Binding where
  context_le_stream : context.length ≤ MAX_STREAM_CONTEXT

theorem StreamHeader.segContextArgs (H : StreamHeader) {u : Bytes} (hu : u.length < 2 ^ 32)
    {i : Nat} (hi : i < 2 ^ 64) :
    SegContextArgs u H.streamId i H.numSegments H.totalLen H.segmentSize where
  userContext := hu
  streamId := by rw [H.streamId_length]; decide
  index := hi
  numSegments := H.numSegments_lt
  totalLen := H.totalLen_lt
  segmentSize := H.segmentSize_lt

namespace StreamBinding

variable (B : StreamBinding) (H : StreamHeader)

theorem context_lt : B.context.length < 2 ^ 32 := by
  have h := B.context_le_stream
  rw [MAX_STREAM_CONTEXT] at h
  omega

/-- The core accepts the segment's context. -/
theorem segContextBytes_le (i : Nat) :
    (segContextBytes B.context H.streamId i H.numSegments H.totalLen H.segmentSize).length
      ≤ MAX_LP_FIELD := by
  have h := B.context_le_stream
  rw [MAX_STREAM_CONTEXT] at h
  rw [segContextBytes_length, H.streamId_length, STREAM_ID_LEN, MAX_LP_FIELD]
  omega

/-- The binding segment `i` is sealed under: that of the stream, its context replaced by the
segment's. -/
def segment (i : Nat) : Binding where
  memh := B.memh
  epochId := B.epochId
  context := segContextBytes B.context H.streamId i H.numSegments H.totalLen H.segmentSize
  masterSecret := B.masterSecret
  memh_length := B.memh_length
  epochId_lt := B.epochId_lt
  context_le := B.segContextBytes_le H i
  secret_length := B.secret_length

theorem segContext_eq {i : Nat} (hi : i < 2 ^ 64) :
    H.toStreamFields.segContext B.context i = .ok (B.segment H i).context :=
  segContext_eq_ok.mpr ⟨H.segContextArgs B.context_lt hi, rfl⟩

/-- **Distinct places have distinct bindings.** -/
theorem segment_inj {B B' : StreamBinding} {H H' : StreamHeader} {i i' : Nat}
    (hi : i < 2 ^ 64) (hi' : i' < 2 ^ 64) (h : B.segment H i = B'.segment H' i') :
    B = B' ∧ H = H' ∧ i = i' := by
  have hcontext : (B.segment H i).context = (B'.segment H' i').context := by rw [h]
  obtain ⟨hu, hs, hindex, hn, hL, hC⟩ := segContextBytes_inj (H.segContextArgs B.context_lt hi)
    (H'.segContextArgs B'.context_lt hi') hcontext
  have hmemh : (B.segment H i).memh = (B'.segment H' i').memh := by rw [h]
  have hepoch : (B.segment H i).epochId = (B'.segment H' i').epochId := by rw [h]
  have hsecret : (B.segment H i).masterSecret = (B'.segment H' i').masterSecret := by rw [h]
  exact ⟨StreamBinding.ext hmemh hepoch hu hsecret, StreamHeader.ext hs hn hC hL, hindex⟩

/-- The segment's parameters as the loops pass them to the core. -/
theorem segment_presentedBy {P : Platform} {M : Manifest P} {masterSecret : Arg Bytes}
    {epochId : Arg Int} {context : Arg Bytes}
    (h : B.PresentedBy (.of M) masterSecret epochId context) (i : Nat) :
    (B.segment H i).PresentedBy (.of M) masterSecret epochId
      (.of (B.segment H i).context) :=
  ⟨⟨h.manifest, h.epochId, rfl⟩, h.masterSecret⟩

end StreamBinding

/-! ## 4. The segmentation -/

/-- How many segments a state of length `L` is cut into. -/
def segmentCount (L C : Nat) : Nat := max 1 ((L + C - 1) / C)

/-- The segments' plaintexts, as the producer's loop slices them. -/
def segmentStates (S : Bytes) (C : Nat) : List Bytes :=
  (segmentBounds S.length C).map fun b => slice S b.1 b.2

theorem le_ceil_mul {L C : Nat} (hC : 0 < C) : L ≤ (L + C - 1) / C * C := by
  have h := Nat.div_add_mod (L + C - 1) C
  have hlt := Nat.mod_lt (L + C - 1) hC
  rw [Nat.mul_comm] at h
  omega

theorem pyRange_eq (stop step : Nat) :
    pyRange stop step = (List.range ((stop + step - 1) / step)).map (· * step) := by
  apply List.ext_getElem
  · simp [pyRange]
  · intro i h h'
    simp [pyRange, Nat.mul_comm]

/-- **The bounds in closed form**, the empty state included. -/
theorem segmentBounds_eq {L C : Nat} (hC : 0 < C) :
    segmentBounds L C
      = (List.range (segmentCount L C)).map fun i => (i * C, min ((i + 1) * C) L) := by
  unfold segmentBounds segmentCount
  by_cases hL : L = 0
  · subst hL
    have hceil : (0 + C - 1) / C = 0 := Nat.div_eq_of_lt (by omega)
    rw [if_pos rfl, hceil]
    simp
  · have hceil : 1 ≤ (L + C - 1) / C := (Nat.one_le_div_iff hC).mpr (by omega)
    rw [if_neg hL, max_eq_right hceil, pyRange_eq, List.map_map]
    refine List.map_congr_left fun i _ => ?_
    rw [Function.comp_apply, Nat.succ_mul]

theorem segmentStates_eq (S : Bytes) {C : Nat} (hC : 0 < C) :
    segmentStates S C
      = (List.range (segmentCount S.length C)).map fun i => slice S (i * C) ((i + 1) * C) := by
  rw [segmentStates, segmentBounds_eq hC, List.map_map]
  refine List.map_congr_left fun i _ => ?_
  have htake : S.take (min ((i + 1) * C) S.length) = S.take ((i + 1) * C) := by
    rw [List.take_eq_take_min (i := (i + 1) * C)]
  simp only [Function.comp_apply, slice, htake]

@[simp] theorem segmentStates_length (S : Bytes) {C : Nat} (hC : 0 < C) :
    (segmentStates S C).length = segmentCount S.length C := by
  rw [segmentStates_eq S hC, List.length_map, List.length_range]

/-- The first `k` segments make the first `k * C` bytes. -/
theorem flatten_slices (S : Bytes) (C k : Nat) :
    ((List.range k).map fun i => slice S (i * C) ((i + 1) * C)).flatten = slice S 0 (k * C) := by
  induction k with
  | zero => simp [slice]
  | succ k ih =>
    rw [List.range_succ, List.map_append, List.flatten_append, ih, List.map_singleton,
      List.flatten_singleton, slice_append_slice (Nat.zero_le _) (by
        rw [Nat.succ_mul]; omega)]

/-- **The segments concatenate to the state.** -/
theorem segmentStates_flatten (S : Bytes) {C : Nat} (hC : 0 < C) :
    (segmentStates S C).flatten = S := by
  rw [segmentStates_eq S hC, flatten_slices, slice, List.drop_zero]
  refine List.take_of_length_le ((le_ceil_mul hC).trans ?_)
  exact Nat.mul_le_mul_right C (le_max_right _ _)

/-- **Segment `i` has `min C (L - i * C)` bytes.** -/
theorem length_of_segmentStates {S s : Bytes} {C i : Nat} (hC : 0 < C)
    (h : (segmentStates S C)[i]? = some s) :
    s = slice S (i * C) ((i + 1) * C) ∧ s.length = min C (S.length - i * C) := by
  rw [segmentStates_eq S hC, List.getElem?_map, Option.map_eq_some_iff] at h
  obtain ⟨j, hj, rfl⟩ := h
  obtain ⟨hlt, hij⟩ := List.getElem?_eq_some_iff.mp hj
  obtain rfl : i = j := by simpa using hij
  refine ⟨rfl, ?_⟩
  rw [slice, List.length_drop, List.length_take, Nat.succ_mul]
  omega

end Sce
