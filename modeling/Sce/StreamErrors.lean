/-
# What the error class of a stream reveals

`MalformedEnvelope` is documented as public: raised on the framing alone, so that telling it
apart from `StateSealMismatch` reveals nothing about keys.  For one envelope this holds.  For a
stream it does not: the consumer opens each segment before it looks at the next frame, so a
structural fault behind a well-formed segment is reported as such only under parameters that
open everything ahead of it.

`raisesMalformed_iff` says when a chunked unseal reports a structural fault, and
`error_class_agrees_iff` for which containers and which two tuples of parameters the error class
is the same.  The condition mentions no unsealing: with a cipher that decrypts its own
encryptions and nothing else, what opens at a place is what `seal_state` makes for it
(`openSegment_eq_ok_iff_sealState`).  So the class agrees where nothing is wrong with the
structure, and where the envelopes ahead of the first fault are seals for their places under
both tuples or not under both; in particular where no envelope is framed ahead of the fault.
-/
import Sce.StreamCanonical

namespace Sce

open BigEndian

variable {P : Platform}

/-! ## 1. The errors of the public reading -/

/-- The guards between the header and the loop are structural. -/
theorem checkStreamHeader_malformed {X : Bytes} {H : StreamFields} {e : PyExc}
    (h : checkStreamHeader X H = .error e) : ∃ message, e = .malformedEnvelope message := by
  unfold checkStreamHeader at h
  split_ifs at h
  all_goals exact ⟨_, (Except.error.inj h).symm⟩

/-- **The reading itself fails only structurally.** -/
theorem scanStream_malformed {X : Bytes} {e : PyExc} (h : scanStream X = .error e) :
    ∃ message, e = .malformedEnvelope message := by
  unfold scanStream at h
  rcases Except.bind_eq_error.mp h with hparse | ⟨F, -, hrest⟩
  · rcases parseStreamHeader_cases X with ⟨message, he⟩ | ⟨H, rest, rfl⟩
    · exact ⟨message, Except.error.inj (hparse.symm.trans he)⟩
    · rw [parseStreamHeader_bytes] at hparse
      exact absurd hparse (by simp)
  · rcases Except.bind_eq_error.mp hrest with hguard | ⟨_, -, hpure⟩
    · exact checkStreamHeader_malformed hguard
    · exact absurd hpure (by simp [pure, Except.pure])

theorem scanSegments_length_le {X : Bytes} : ∀ remaining off : Nat,
    (scanSegments X remaining off).1.length ≤ remaining
  | 0, _ => le_rfl
  | remaining + 1, off => by
    rw [scanSegments]
    split_ifs
    · exact Nat.zero_le _
    · dsimp only
      split_ifs
      · exact Nat.zero_le _
      · have ih := scanSegments_length_le (X := X) remaining
          (off + SEG_FRAME_size + beNat (slice X off (off + SEG_FRAME_size)))
        split
        · exact Nat.zero_le _
        · exact Nat.succ_le_succ ih

/-- **What a reading consists of**: a header, and envelopes no more than it declares. -/
theorem scanStream_sound {X : Bytes} {sc : Scan} (h : scanStream X = .ok sc) :
    ∃ (H : StreamHeader) (Vs : List Envelope), sc.fields = H.toStreamFields ∧
      sc.segments = Vs.map Envelope.bytes ∧ Vs.length ≤ H.numSegments := by
  rcases parseStreamHeader_cases X with ⟨message, he⟩ | ⟨H, rest, hX⟩
  · rw [scanStream, he] at h
    exact absurd h (by simp [bind, Except.bind])
  · rw [scanStream_eq (hX ▸ parseStreamHeader_bytes H rest)] at h
    cases hguard : checkStreamHeader X H.toStreamFields with
    | error e =>
      rw [hguard] at h
      exact absurd h (by simp [Except.map])
    | ok u =>
      rw [hguard] at h
      obtain rfl := Except.ok.inj h
      have hlen : STREAM_HEADER_size ≤ X.length := by
        rw [hX, List.length_append, H.bytes_length]
        exact Nat.le_add_right 45 _
      obtain ⟨Vs, hVs, -⟩ := scanSegments_sound (X := X) H.numSegments _ hlen
      refine ⟨H, Vs, rfl, hVs, ?_⟩
      rw [← List.length_map Envelope.bytes, ← hVs]
      exact scanSegments_length_le _ _

/-- A place of a container has an index that fits its context. -/
theorem scanStream_index_lt {X : Bytes} {sc : Scan} (h : scanStream X = .ok sc) {i : Nat}
    {env : Bytes} (henv : sc.segments[i]? = some env) : i < 2 ^ 64 := by
  obtain ⟨H, Vs, -, hsegments, hcount⟩ := scanStream_sound h
  have hi := (List.getElem?_eq_some_iff.mp henv).1
  rw [hsegments, List.length_map] at hi
  exact (hi.trans_le hcount).trans H.numSegments_lt

/-! ## 2. The errors of opening -/

/-- A scanned envelope that does not open is a mismatch, never malformed. -/
theorem openSegments_error {B : StreamBinding} {M : Manifest P} {masterSecret : Arg Bytes}
    {epochId : Arg Int} {context : Arg Bytes}
    (hB : B.PresentedBy (.of M) masterSecret epochId context) {X : Bytes} {sc : Scan}
    (hscan : scanStream X = .ok sc) {e : PyExc}
    (h : (openSegments P M masterSecret epochId B.context sc).result = .error e) :
    e = mismatch := by
  obtain ⟨H, Vs, hfields, hsegments, -⟩ := scanStream_sound hscan
  obtain ⟨⟨env, i⟩, hx, he⟩ := Logged.result_each_eq_error h
  have henv : sc.segments[i]? = some env := List.mem_zipIdx_iff_getElem?.mp hx
  have hi := scanStream_index_lt hscan henv
  rw [hsegments, List.getElem?_map, Option.map_eq_some_iff] at henv
  obtain ⟨V, -, rfl⟩ := henv
  rw [hfields] at he
  exact openSegment_error hB hi he

/-- **What opens at a place is what `seal_state` makes for it.** -/
theorem openSegment_eq_ok_iff_sealState (hexact : P.AeadExact) (htag : P.AeadTag)
    {B : StreamBinding} {M : Manifest P} {masterSecret : Arg Bytes} {epochId : Arg Int}
    {context : Arg Bytes} (hB : B.PresentedBy (.of M) masterSecret epochId context)
    (H : StreamHeader) {i : Nat} (hi : i < 2 ^ 64) {env S : Bytes} :
    (openSegment P M masterSecret epochId B.context H.toStreamFields (env, i)).result = .ok S ↔
      ∃ segCtx draw, H.toStreamFields.segContext B.context i = .ok segCtx ∧
        (sealState P draw (.of S) (.of M) masterSecret epochId (.of segCtx)).result
          = .ok env := by
  have hctx : H.toStreamFields.segContext B.context i = .ok (B.segment H i).context :=
    B.segContext_eq H hi
  rw [openSegment, hctx, Logged.liftM_ok, Logged.pure_bind,
    unsealState_eq_ok_iff_sealState hexact htag (B.segment_presentedBy H hB i)]
  constructor
  · rintro ⟨draw, hseal⟩
    exact ⟨_, draw, rfl, hseal⟩
  · rintro ⟨segCtx, draw, hsegCtx, hseal⟩
    obtain rfl := Except.ok.inj hsegCtx
    exact ⟨draw, hseal⟩

/-- Every envelope framed ahead of the first fault is an output of `seal_state` for its place
under these parameters. -/
def Scan.SealedAhead (P : Platform) (sc : Scan) (manifest : Manifest P) (masterSecret : Arg Bytes)
    (epochId : Arg Int) (userContext : Bytes) : Prop :=
  ∀ i env, sc.segments[i]? = some env → ∃ S segCtx draw,
    sc.fields.segContext userContext i = .ok segCtx ∧
      (sealState P draw (.of S) (.of manifest) masterSecret epochId (.of segCtx)).result
        = .ok env

/-- **The envelopes ahead of the first fault open exactly when each was sealed for its place.** -/
theorem openSegments_iff_sealedAhead (hexact : P.AeadExact) (htag : P.AeadTag)
    {B : StreamBinding} {M : Manifest P} {masterSecret : Arg Bytes} {epochId : Arg Int}
    {context : Arg Bytes} (hB : B.PresentedBy (.of M) masterSecret epochId context) {X : Bytes}
    {sc : Scan} (hscan : scanStream X = .ok sc) :
    (∃ parts, (openSegments P M masterSecret epochId B.context sc).result = .ok parts) ↔
      sc.SealedAhead P M masterSecret epochId B.context := by
  obtain ⟨H, Vs, hfields, -, -⟩ := scanStream_sound hscan
  refine Logged.exists_result_each_eq_ok.trans ?_
  rw [Scan.SealedAhead, hfields]
  constructor
  · intro h i env henv
    obtain ⟨S, hS⟩ := h (env, i) (List.mem_zipIdx_iff_getElem?.mpr henv)
    have hi := scanStream_index_lt hscan henv
    exact ⟨S, (openSegment_eq_ok_iff_sealState hexact htag hB H hi).mp hS⟩
  · rintro h ⟨env, i⟩ hx
    have henv : sc.segments[i]? = some env := List.mem_zipIdx_iff_getElem?.mp hx
    obtain ⟨S, hS⟩ := h i env henv
    have hi := scanStream_index_lt hscan henv
    exact ⟨S, (openSegment_eq_ok_iff_sealState hexact htag hB H hi).mpr hS⟩

/-- **When a chunked unseal reports a structural fault.** -/
theorem raisesMalformed_iff (hexact : P.AeadExact) (htag : P.AeadTag) {B : StreamBinding}
    {x : Carrier} {M : Manifest P} {masterSecret : Arg Bytes} {epochId : Arg Int}
    {context : Arg Bytes} (hB : B.PresentedBy (.of M) masterSecret epochId context) :
    RaisesMalformed (unsealStateChunked P (.of x) (.of M) masterSecret epochId context) ↔
      ∀ sc, scanStream x.toBytes = .ok sc →
        sc.fault ≠ none ∧ sc.SealedAhead P M masterSecret epochId B.context := by
  have hne : ∀ message, mismatch ≠ .malformedEnvelope message := fun message h => by
    simp [mismatch] at h
  rw [RaisesMalformed, unsealStateChunked_eq hB]
  cases hscan : scanStream x.toBytes with
  | error e =>
    obtain ⟨message, rfl⟩ := scanStream_malformed hscan
    exact ⟨fun _ sc hsc => absurd hsc (by simp), fun _ => ⟨message, rfl⟩⟩
  | ok sc =>
    rw [Logged.liftM_ok, Logged.pure_bind]
    have hsealed := openSegments_iff_sealedAhead hexact htag hB hscan
    constructor
    · rintro ⟨message, h⟩ _ hsc
      obtain rfl := Except.ok.inj hsc
      rcases Logged.result_bind_eq_error.mp h with hopen | ⟨parts, hparts, hfinish⟩
      · exact absurd (openSegments_error hB hscan hopen).symm (hne message)
      · refine ⟨fun hnone => ?_, hsealed.mp ⟨parts, hparts⟩⟩
        -- without a fault only the length check is left, and its error is a mismatch
        rw [Scan.finish, hnone] at hfinish
        dsimp only at hfinish
        split_ifs at hfinish
        exact hne message (Except.error.inj hfinish)
    · intro h
      obtain ⟨hfault, hahead⟩ := h sc rfl
      obtain ⟨parts, hparts⟩ := hsealed.mpr hahead
      obtain ⟨message, hmessage⟩ := Option.ne_none_iff_exists'.mp hfault
      refine ⟨message, Logged.result_bind_eq_error.mpr (.inr ⟨parts, hparts, ?_⟩)⟩
      rw [Scan.finish, hmessage]
      rfl

/-! ## 3. Two runs on the same container -/

/-- **When the error class of a container is the same for two tuples of parameters**: when the
reading finds no fault behind the header, or when the envelopes ahead of the fault were sealed
for their places under both tuples or not under both. -/
theorem error_class_agrees_iff (hexact : P.AeadExact) (htag : P.AeadTag) (X : Bytes)
    (M M' : Manifest P) {secret secret' : Bytes} (hsecret : 16 ≤ secret.length)
    (hsecret' : 16 ≤ secret'.length) {epochId epochId' : Nat} (hepoch : epochId < 2 ^ 64)
    (hepoch' : epochId' < 2 ^ 64) {context context' : Bytes}
    (hcontext : context.length ≤ 2 ^ 32 - 75) (hcontext' : context'.length ≤ 2 ^ 32 - 75) :
    (RaisesMalformed (unsealStateChunked P (.of (.bytes X)) (.of M) (.of secret)
        (.of (epochId : Int)) (.of context)) ↔
      RaisesMalformed (unsealStateChunked P (.of (.bytes X)) (.of M') (.of secret')
        (.of (epochId' : Int)) (.of context'))) ↔
      ∀ sc, scanStream X = .ok sc → sc.fault = none ∨
        (sc.SealedAhead P M (.of secret) (.of (epochId : Int)) context ↔
          sc.SealedAhead P M' (.of secret') (.of (epochId' : Int)) context') := by
  obtain ⟨B, hB⟩ := exists_streamBinding M hsecret hepoch hcontext
  obtain ⟨B', hB'⟩ := exists_streamBinding M' hsecret' hepoch' hcontext'
  rw [raisesMalformed_iff hexact htag hB, raisesMalformed_iff hexact htag hB',
    ← Arg.of.inj hB.context, ← Arg.of.inj hB'.context]
  have hX : Carrier.toBytes (.bytes X) = X := rfl
  rw [hX]
  cases hscan : scanStream X with
  | error e => simp
  | ok sc =>
    simp only [Except.ok.injEq, forall_eq']
    by_cases hfault : sc.fault = none
    · simp [hfault]
    · simp [hfault]

/-- A byte behind a container that opens. -/
def toyTrailing : Bytes := toyUneven ++ [0x00]

theorem toyTrailing_right : RaisesMalformed (unsealStateChunked toy (.of (.bytes toyTrailing))
    (.of toyManifest) (.of toySecret) (.of ((9 : Nat) : Int)) (.of [0x63])) := by
  have h : (unsealStateChunked toy (.of (.bytes toyTrailing)) (.of toyManifest)
      (.of toySecret) (.of ((9 : Nat) : Int)) (.of [0x63])).result
        = .error (.malformedEnvelope "trailing bytes after the declared segments") := by
    decide +kernel
  exact ⟨_, h⟩

theorem toyTrailing_wrong : ¬ RaisesMalformed (unsealStateChunked toy
    (.of (.bytes toyTrailing)) (.of toyManifest) (.of (List.replicate 16 0x55))
    (.of ((9 : Nat) : Int)) (.of [0x63])) := by
  have h : (unsealStateChunked toy (.of (.bytes toyTrailing)) (.of toyManifest)
      (.of (List.replicate 16 0x55)) (.of ((9 : Nat) : Int)) (.of [0x63])).result
        = .error mismatch := by
    decide +kernel
  rintro ⟨message, hmessage⟩
  rw [h] at hmessage
  exact absurd (Except.error.inj hmessage) (by simp [mismatch])

/-- A header with nothing well framed behind it. -/
def toyCut : Bytes := toyHeader.bytes ++ List.replicate 18 0xff

/-- **No envelope is framed ahead of the fault in one container, and two that open in the
other**: on the first the class is the same for the right secret and a wrong one, and on the
second the condition fails. -/
theorem toyCut_agrees :
    (RaisesMalformed (unsealStateChunked toy (.of (.bytes toyCut)) (.of toyManifest)
        (.of toySecret) (.of ((9 : Nat) : Int)) (.of [0x63])) ↔
      RaisesMalformed (unsealStateChunked toy (.of (.bytes toyCut)) (.of toyManifest)
        (.of (List.replicate 16 0x55)) (.of ((9 : Nat) : Int)) (.of [0x63]))) ∧
      ¬ ∀ sc, scanStream toyTrailing = .ok sc → sc.fault = none ∨
        (sc.SealedAhead toy toyManifest (.of toySecret) (.of ((9 : Nat) : Int)) [0x63] ↔
          sc.SealedAhead toy toyManifest (.of (List.replicate 16 0x55)) (.of ((9 : Nat) : Int))
            [0x63]) := by
  constructor
  · refine (error_class_agrees_iff toy_aeadExact toy_aeadTag toyCut toyManifest toyManifest
      (by decide) (by decide) (by decide) (by decide) (by decide) (by decide)).mpr ?_
    intro sc hscan
    have hnone : (scanStream toyCut).toOption.map Scan.segments = some [] := by decide +kernel
    rw [hscan] at hnone
    have hsegments : sc.segments = [] := Option.some.inj hnone
    have hvacuous : ∀ secret, sc.SealedAhead toy toyManifest (.of secret) (.of ((9 : Nat) : Int))
        [0x63] := by
      intro secret i env henv
      rw [hsegments] at henv
      exact absurd henv (by simp)
    exact .inr ⟨fun _ => hvacuous _, fun _ => hvacuous _⟩
  · intro h
    have hagree := (error_class_agrees_iff toy_aeadExact toy_aeadTag toyTrailing toyManifest
      toyManifest (by decide) (by decide) (by decide) (by decide) (by decide) (by decide)).mpr h
    exact toyTrailing_wrong (hagree.mp toyTrailing_right)

/-- **The two classes tell the right secret from a wrong one**: behind segments that open, the
trailing byte is a structural fault; behind a first segment that does not, it is never seen. -/
theorem toyTrailing_reveals :
    RaisesMalformed (unsealStateChunked toy (.of (.bytes toyTrailing)) (.of toyManifest)
        (.of toySecret) (.of 9) (.of [0x63])) ∧
      ¬ RaisesMalformed (unsealStateChunked toy (.of (.bytes toyTrailing)) (.of toyManifest)
        (.of (List.replicate 16 0x55)) (.of 9) (.of [0x63])) :=
  ⟨toyTrailing_right, toyTrailing_wrong⟩

end Sce
