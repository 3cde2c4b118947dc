/-
# What the chunked entry points raise

`SCEError` is promised to be the only thing a public entry point raises, on every path that
length-prefixes a field.  The core keeps the promise (`Raises.lean`).  The stream layer does not:
its own `_lp` has no bound, so the first segment context built from a context of `2 ** 32` bytes
or more raises a raw `OverflowError`.  A context just under that limit is no exception, although
the segment context around it is already too long: that one the core checks.

The condition is exact on both sides (`sealStateChunked_raises_iff`,
`unsealStateChunked_raises_iff`): any other fixed-width packing is guarded, or cannot overflow.
-/
import Sce.Raises
import Sce.StreamErrors
import Sce.StreamRoundTrip

namespace Sce

open BigEndian Logged

variable {P : Platform}

/-! ## 1. The checks -/

theorem not_libraryError_overflowError : ¬ LibraryError .overflowError := by
  simp [LibraryError, PyExc.isSCEError]

theorem not_libraryError_structError : ¬ LibraryError .structError := by
  simp [LibraryError, PyExc.isSCEError]

theorem checkSegmentSize_raises (a : Arg Int) : (checkSegmentSize a).RaisesOnly LibraryError := by
  cases a with
  | of z => exact .ite (fun _ => .error rfl) fun _ => .ite (fun _ => .error rfl) fun _ => .ok _
  | other typeName => exact .error rfl

theorem parseStreamHeader_raises (X : Bytes) :
    (parseStreamHeader X).RaisesOnly LibraryError := by
  rcases parseStreamHeader_cases X with ⟨message, he⟩ | ⟨H, rest, rfl⟩
  · rw [he]
    exact .error rfl
  · exact .of_ok (parseStreamHeader_bytes H rest)

theorem checkStreamHeader_raises (X : Bytes) (H : StreamFields) :
    (checkStreamHeader X H).RaisesOnly LibraryError := by
  intro e he
  obtain ⟨message, rfl⟩ := checkStreamHeader_malformed he
  rfl

theorem finishStream_raises (X : Bytes) (H : StreamFields) (s : SegmentLoop) :
    (finishStream X H s).RaisesOnly LibraryError :=
  .ite (fun _ => .error rfl) fun _ => .ite (fun _ => .error rfl) fun _ => .ok _

/-! ## 2. The segment context -/

/-- **The stream layer's `_lp` has no guard of its own.** -/
theorem streamLp_of_ge {b : Bytes} (h : 2 ^ 32 ≤ b.length) :
    streamLp b = .error .overflowError := by
  have hfit : ¬ (0 ≤ (b.length : Int) ∧ (b.length : Int).toNat < 256 ^ 4) := by
    rw [Int.toNat_natCast, pow_256_4]
    omega
  rw [streamLp, toBytes, if_neg hfit]
  rfl

theorem segContext_of_ge {u : Bytes} (h : 2 ^ 32 ≤ u.length) (H : StreamFields) (i : Nat) :
    H.segContext u i = .error .overflowError := by
  rw [StreamFields.segContext, segContext, streamLp_of_ge h]
  rfl

theorem segContext_raises {u : Bytes} (hu : u.length < 2 ^ 32) (H : StreamHeader) {i : Nat}
    (hi : i < 2 ^ 64) : (H.toStreamFields.segContext u i).RaisesOnly LibraryError :=
  .of_ok (segContext_eq_ok.mpr ⟨H.segContextArgs hu hi, rfl⟩)

/-! ## 3. Sealing -/

/-- The length of an envelope fits its frame. -/
theorem sealState_length_lt {draw : Draw} {state : Arg Bytes} {manifest : Arg (Manifest P)}
    {masterSecret : Arg Bytes} {epochId : Arg Int} {context : Arg Bytes}
    {sealCount : Option (Arg Int)} {X : Bytes}
    (h : (sealState P draw state manifest masterSecret epochId context sealCount).result = .ok X) :
    X.length < 256 ^ SEG_FRAME_size := by
  rcases sealState_cases draw state manifest masterSecret epochId context sealCount with
    ⟨e, hfail⟩ | ⟨b, S, hb, rfl, hS, hcount⟩
  · rw [hfail] at h
    exact absurd h (by simp)
  · rw [sealState_eq hb hS hcount] at h
    obtain ⟨hlt, rfl⟩ := frame_eq_ok.mp h
    simp only [wire, Binding.header, List.length_append, headerBytes_length, beBytes_length,
      SEG_FRAME_size, pow_256_8]
    omega

theorem sealSegments_raises (htag : P.AeadTag) (draw : StreamDraw) (S : Bytes) (M : Manifest P)
    (masterSecret : Arg Bytes) (epochId : Arg Int) {u : Bytes} (hu : u.length < 2 ^ 32)
    (H : StreamHeader) : ∀ (bounds : List (Nat × Nat)) (i : Nat) (out : Bytes),
      i + bounds.length ≤ 2 ^ 64 → RaisesOnly LibraryError
        (sealSegmentsWith P (deriveKeyMaterial P) draw S M masterSecret epochId u
          H.toStreamFields i bounds out)
  | [], _, _, _ => .pure _
  | (lo, hi) :: bounds, i, out, hcount => by
    rw [List.length_cons] at hcount
    refine .bind (.lift (segContext_raises hu H (by omega))) fun ctx _ => ?_
    refine .bind (sealState_raises htag _ _ _ _ _ _ _) fun env henv => ?_
    refine .bind (.lift (.of_ok (packUInt_of_lt (sealState_length_lt henv)))) fun _ _ => ?_
    exact sealSegments_raises htag draw S M masterSecret epochId hu H bounds (i + 1) _ (by omega)

/-- **When `seal_state_chunked` raises only library errors.** -/
theorem sealStateChunked_raises_iff (htag : P.AeadTag) (draw : StreamDraw) (S : Bytes)
    (M : Manifest P) (masterSecret : Arg Bytes) (epochId : Arg Int) (u : Bytes)
    (segmentSize : Int) :
    RaisesOnly LibraryError (sealStateChunked P draw (.of S) (.of M) masterSecret epochId (.of u)
        (.of segmentSize)) ↔
      segmentSize ≤ 0 ∨ segmentSize > MAX_STATE ∨ (S.length < 2 ^ 64 ∧ u.length < 2 ^ 32) := by
  cases hsize : checkSegmentSize (.of segmentSize) with
  | error e =>
    have hrejected : segmentSize ≤ 0 ∨ segmentSize > MAX_STATE := by
      by_contra hadmissible
      obtain ⟨hpos, hcap⟩ := not_or.mp hadmissible
      rw [checkSegmentSize, if_neg hpos, if_neg hcap] at hsize
      exact absurd hsize (by simp)
    refine ⟨fun _ => hrejected.imp_right .inl, fun _ => ?_⟩
    refine .bind (.lift (requireManifest_raises _)) fun _ _ => ?_
    refine .bind (.lift (requireState_raises _)) fun _ _ => ?_
    refine .bind (.lift (requireContext_raises _)) fun _ _ => ?_
    exact .bind (.lift (checkSegmentSize_raises _)) fun C hC =>
      absurd (hsize.symm.trans hC) (by simp)
  | ok C =>
    obtain ⟨hC', hC, hcap⟩ := checkSegmentSize_eq_ok.mp hsize
    obtain rfl := Arg.of.inj hC'
    have hadmissible : ¬ ((C : Int) ≤ 0) ∧ ¬ ((C : Int) > MAX_STATE) := by omega
    rw [or_iff_right hadmissible.1, or_iff_right hadmissible.2]
    by_cases hS : S.length < 2 ^ 64
    · have hlen := segmentBounds_length (L := S.length) hC
      have hcount := (streamHeader draw hS hC hcap).numSegments_lt
      rw [sealStateChunked_loop draw hS M masterSecret epochId u hC hcap, and_iff_right hS]
      constructor
      · intro h
        by_contra hu
        -- there is a first segment, and its context cannot be built
        obtain ⟨⟨lo, hi⟩, bounds, hbounds⟩ : ∃ b bounds, segmentBounds S.length C = b :: bounds := by
          refine List.exists_cons_of_length_pos ?_
          rw [hlen, segmentCount]
          omega
        rw [hbounds, sealSegmentsWith, segContext_of_ge (not_lt.mp hu)] at h
        exact not_libraryError_overflowError (h _ rfl)
      · intro hu
        refine .bind (.perform _ _) fun _ _ => ?_
        refine sealSegments_raises htag draw S M masterSecret epochId hu _ _ 0 _ ?_
        rw [Nat.zero_add, hlen]
        exact hcount.le
    · rw [sealStateChunked_of_ge draw (not_lt.mp hS) M masterSecret epochId u hC hcap]
      exact ⟨fun h => absurd (h _ rfl) not_libraryError_structError, fun h => absurd h.1 hS⟩

/-! ## 4. Unsealing -/

theorem unsealSegments_raises (X : Bytes) (M : Manifest P) (masterSecret : Arg Bytes)
    (epochId : Arg Int) {u : Bytes} (hu : u.length < 2 ^ 32) (H : StreamHeader) :
    ∀ (remaining i : Nat) (s : SegmentLoop), i + remaining ≤ 2 ^ 64 → RaisesOnly LibraryError
      (unsealSegmentsWith P (deriveKeyMaterial P) X M masterSecret epochId u H.toStreamFields
        remaining i s)
  | 0, _, _, _ => .pure _
  | remaining + 1, i, s, hcount => by
    refine .ite (fun _ => .fail rfl) fun _ => .ite (fun _ => .fail rfl) fun _ => ?_
    refine .bind (.lift (segContext_raises hu H (by omega))) fun ctx _ => ?_
    refine .bind (unsealState_raises _ _ _ _ _) fun segment _ => ?_
    exact unsealSegments_raises X M masterSecret epochId hu H remaining (i + 1) _ (by omega)

/-- The container passes every check ahead of its first segment's context: the header, the
declared count, and the frame of the first envelope. -/
def ReachesSegment (X : Bytes) : Prop :=
  ∃ H, parseStreamHeader X = .ok H ∧ checkStreamHeader X H = .ok () ∧
    beNat (slice X STREAM_HEADER_size (STREAM_HEADER_size + SEG_FRAME_size))
      ≤ X.length - (STREAM_HEADER_size + SEG_FRAME_size)

/-- **When `unseal_state_chunked` raises only library errors.** -/
theorem unsealStateChunked_raises_iff (x : Carrier) (M : Manifest P) (masterSecret : Arg Bytes)
    (epochId : Arg Int) (u : Bytes) :
    RaisesOnly LibraryError
        (unsealStateChunked P (.of x) (.of M) masterSecret epochId (.of u)) ↔
      u.length < 2 ^ 32 ∨ ¬ ReachesSegment x.toBytes := by
  constructor
  · intro h
    by_contra hcondition
    obtain ⟨hu, hreach⟩ := not_or.mp hcondition
    obtain ⟨F, hF, hguard, hframe⟩ := not_not.mp hreach
    obtain ⟨hpos, -, hcount⟩ := checkStreamHeader_eq_ok.mp hguard
    obtain ⟨n, hn⟩ := Nat.exists_eq_succ_of_ne_zero hpos
    -- a declared segment leaves room for its frame
    have hroom : STREAM_HEADER_size + SEG_FRAME_size ≤ x.toBytes.length := by
      have h9 := Nat.div_mul_le_self (x.toBytes.length - STREAM_HEADER_size) (SEG_FRAME_size + 1)
      simp only [STREAM_HEADER_size_eq, SEG_FRAME_size] at h9 hcount ⊢
      omega
    have hloop : unsealStateChunked P (.of x) (.of M) masterSecret epochId (.of u)
        = .fail .overflowError := by
      unfold unsealStateChunked unsealStateChunkedWith
      rw [requireManifest_eq_ok.mpr rfl, requireContext_eq_ok.mpr rfl]
      simp only [requireEnvelopeBytes, Logged.liftM_ok, Logged.pure_bind, hF, hguard, hn,
        Nat.succ_eq_add_one]
      rw [unsealSegmentsWith]
      dsimp only
      rw [if_neg (not_lt.mpr hroom), if_neg (not_lt.mpr hframe), segContext_of_ge (not_lt.mp hu)]
      rfl
    rw [hloop] at h
    exact not_libraryError_overflowError (h _ rfl)
  · intro h
    refine .bind (.lift (requireManifest_raises _)) fun M' hM => ?_
    obtain rfl := Arg.of.inj (requireManifest_eq_ok.mp hM)
    refine .bind (.lift (requireContext_raises _)) fun u' hu' => ?_
    obtain rfl := Arg.of.inj (requireContext_eq_ok.mp hu')
    refine .bind (.lift (requireEnvelopeBytes_raises _ _)) fun X hX => ?_
    obtain rfl : x.toBytes = X := Except.ok.inj hX
    refine .bind (.lift (parseStreamHeader_raises _)) fun F hF => ?_
    refine .bind (.lift (checkStreamHeader_raises _ _)) fun _ hguard => ?_
    obtain ⟨H, rfl⟩ := exists_streamHeader hF
    refine .bind ?_ fun s _ => .lift (finishStream_raises _ _ _)
    rcases h with hu | hreach
    · refine unsealSegments_raises x.toBytes M masterSecret epochId hu H _ 0 _ ?_
      rw [Nat.zero_add]
      exact H.numSegments_lt.le
    · -- the first frame is rejected before a context is built
      have hframe : ¬ beNat (slice x.toBytes STREAM_HEADER_size
          (STREAM_HEADER_size + SEG_FRAME_size))
            ≤ x.toBytes.length - (STREAM_HEADER_size + SEG_FRAME_size) :=
        fun hle => hreach ⟨_, hF, hguard, hle⟩
      obtain ⟨n, hn⟩ := Nat.exists_eq_succ_of_ne_zero (checkStreamHeader_eq_ok.mp hguard).1
      rw [hn, unsealSegmentsWith]
      refine .ite (fun _ => .fail rfl) fun _ => .ite (fun _ => .fail rfl) fun hfit => ?_
      exact absurd (not_lt.mp hfit) hframe

/-! ## 5. Both entry points -/

/-- **When the chunked entry points raise only library errors**: when the context fits its length
prefix, or the call ends before a segment context is built. -/
theorem chunked_raises_iff (htag : P.AeadTag) (M : Manifest P) (masterSecret : Arg Bytes)
    (epochId : Arg Int) (context : Bytes) :
    (∀ (draw : StreamDraw) (S : Bytes) (segmentSize : Int),
      RaisesOnly LibraryError (sealStateChunked P draw (.of S) (.of M) masterSecret epochId
          (.of context) (.of segmentSize)) ↔
        segmentSize ≤ 0 ∨ segmentSize > MAX_STATE ∨
          (S.length < 2 ^ 64 ∧ context.length < 2 ^ 32)) ∧
    ∀ x : Carrier,
      RaisesOnly LibraryError
          (unsealStateChunked P (.of x) (.of M) masterSecret epochId (.of context)) ↔
        context.length < 2 ^ 32 ∨ ¬ ReachesSegment x.toBytes :=
  ⟨fun draw S segmentSize =>
      sealStateChunked_raises_iff htag draw S M masterSecret epochId context segmentSize,
    fun x => unsealStateChunked_raises_iff x M masterSecret epochId context⟩

/-- A context one byte too long for its length prefix. -/
def toyLongContext : Bytes := List.replicate (2 ^ 32) 0

theorem toyLongContext_length : toyLongContext.length = 2 ^ 32 := List.length_replicate

/-- That context is refused with a library error where the call ends before a segment context is
built: with a segment size of zero, and on bytes too short for a header. -/
theorem toyLongContext_refused :
    (∀ (draw : StreamDraw) (S : Bytes),
      RaisesOnly LibraryError (sealStateChunked toy draw (.of S) (.of toyManifest)
        (.of toySecret) (.of 9) (.of toyLongContext) (.of 0))) ∧
      RaisesOnly LibraryError (unsealStateChunked toy (.of (.bytes [])) (.of toyManifest)
        (.of toySecret) (.of 9) (.of toyLongContext)) := by
  obtain ⟨hseal, hunseal⟩ :=
    chunked_raises_iff toy_aeadTag toyManifest (.of toySecret) (.of 9) toyLongContext
  refine ⟨fun draw S => (hseal draw S 0).mpr (.inl le_rfl), (hunseal _).mpr (.inr ?_)⟩
  rintro ⟨F, hF, -⟩
  have hshort : parseStreamHeader (Carrier.bytes []).toBytes
      = .error (.malformedEnvelope "blob is shorter than the SCES stream header") := by
    decide
  rw [hshort] at hF
  exact absurd hF (by simp)

/-- **A context of `2 ** 32` bytes escapes as something else**: from sealing an empty state, and
from opening a container that is otherwise well formed. -/
theorem toyLongContext_escapes :
    ¬ RaisesOnly LibraryError (sealStateChunked toy toyStreamDraw (.of []) (.of toyManifest)
        (.of toySecret) (.of 9) (.of toyLongContext) (.of 1)) ∧
      ¬ RaisesOnly LibraryError (unsealStateChunked toy (.of (.bytes toyUneven)) (.of toyManifest)
        (.of toySecret) (.of 9) (.of toyLongContext)) := by
  have hlong : ¬ toyLongContext.length < 2 ^ 32 := by rw [toyLongContext_length]; omega
  have hreach : ReachesSegment toyUneven := by
    refine ⟨toyHeader.toStreamFields, ?_, ?_, ?_⟩
    all_goals decide +kernel
  constructor
  · rw [sealStateChunked_raises_iff toy_aeadTag]
    rintro (h | h | h)
    · exact absurd h (by decide)
    · exact absurd h (by decide)
    · exact hlong h.2
  · rw [unsealStateChunked_raises_iff]
    rintro (h | h)
    · exact hlong h
    · exact h hreach

end Sce
