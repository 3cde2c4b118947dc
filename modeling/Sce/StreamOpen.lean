/-
# The containers that open

The grammar of the containers in which the reading finds no fault (`scanStream_clean_iff`), and
what is known of a container that a chunked unseal opened (`unsealStateChunked_ok`): its
parameters present a stream binding, its bytes are a header and framed envelopes with nothing
after them, and each envelope opened under the binding of its place.

The grammar also settles that none of the guards is in the way of a container that follows it:
an envelope has at least 85 bytes, so the bound on the declared segment count, which allows for
one byte each, never applies.
-/
import Sce.StreamScan

namespace Sce

open BigEndian

variable {P : Platform}

/-! ## 1. Reading frames back -/

theorem Envelope.bytes_length_lt (V : Envelope) : V.bytes.length < 256 ^ 8 := by
  have h := V.ciphertext_lt
  rw [V.bytes_length, pow_256_8]
  omega

theorem Envelope.le_bytes_length (V : Envelope) : 85 ≤ V.bytes.length := by
  have h := V.tag_le
  rw [TAG_LEN] at h
  rw [V.bytes_length]
  omega

/-- The framed bytes of a list of envelopes. -/
def framed (Vs : List Envelope) : Bytes := frames (Vs.map Envelope.bytes)

theorem framed_cons (V : Envelope) (Vs : List Envelope) :
    framed (V :: Vs) = beBytes 8 V.bytes.length ++ (V.bytes ++ framed Vs) := by
  simp only [framed, frames, List.map_cons, List.flatMap_cons, lenPrefix, List.append_assoc]

/-- **Frames are read back**, whatever surrounds them. -/
theorem scanSegments_framed {X : Bytes} : ∀ (Vs : List Envelope) (pre rest : Bytes),
    X = pre ++ (framed Vs ++ rest) →
    scanSegments X Vs.length pre.length
      = (Vs.map Envelope.bytes, .reached (pre.length + (framed Vs).length))
  | [], pre, rest, _ => rfl
  | V :: Vs, pre, rest, hX => by
    have hsplit : X = pre ++ (beBytes 8 V.bytes.length ++ (V.bytes ++ (framed Vs ++ rest))) := by
      rw [hX, framed_cons, List.append_assoc, List.append_assoc]
    have hlen : X.length = pre.length + 8 + V.bytes.length + (framed Vs ++ rest).length := by
      rw [hsplit, List.length_append, List.length_append, List.length_append, beBytes_length]
      omega
    have hprefix : slice X pre.length (pre.length + 8) = beBytes 8 V.bytes.length :=
      slice_of_append hsplit rfl (by rw [beBytes_length])
    have henv : slice X (pre.length + 8) (pre.length + 8 + V.bytes.length) = V.bytes :=
      slice_of_append (p := pre ++ beBytes 8 V.bytes.length)
        (by rw [hsplit, List.append_assoc])
        (by rw [List.length_append, beBytes_length]) rfl
    have hnext : X = pre ++ beBytes 8 V.bytes.length ++ V.bytes ++ (framed Vs ++ rest) := by
      rw [hsplit]
      simp only [List.append_assoc]
    have hrest := scanSegments_framed Vs (pre ++ beBytes 8 V.bytes.length ++ V.bytes) rest hnext
    have hpre : (pre ++ beBytes 8 V.bytes.length ++ V.bytes).length
        = pre.length + 8 + V.bytes.length := by
      rw [List.length_append, List.length_append, beBytes_length]
    rw [hpre] at hrest
    rw [List.length_cons, scanSegments, SEG_FRAME_size, hprefix,
      beNat_beBytes V.bytes_length_lt, if_neg (by omega)]
    dsimp only
    rw [henv, if_neg (by omega), parseFault_eq_none.mpr ⟨V, rfl⟩]
    dsimp only
    rw [hrest, framed_cons, List.map_cons, List.length_append, beBytes_length,
      List.length_append]
    simp only [Nat.add_assoc]

/-- **Only frames are read**: what was scanned is a list of envelopes, and if the reading came
to an end they fill the bytes it passed over. -/
theorem scanSegments_sound {X : Bytes} : ∀ (remaining off : Nat), off ≤ X.length →
    ∃ Vs : List Envelope, (scanSegments X remaining off).1 = Vs.map Envelope.bytes ∧
      ∀ off', (scanSegments X remaining off).2 = .reached off' →
        Vs.length = remaining ∧ off ≤ off' ∧ off' ≤ X.length ∧ slice X off off' = framed Vs
  | 0, off, hoff => by
    refine ⟨[], rfl, ?_⟩
    rintro off' hend
    obtain rfl : off = off' := ScanEnd.reached.inj hend
    refine ⟨rfl, le_rfl, hoff, ?_⟩
    rw [slice, List.drop_take, Nat.sub_self]
    rfl
  | remaining + 1, off, hoff => by
    rw [scanSegments]
    by_cases hframe : off + SEG_FRAME_size > X.length
    · rw [if_pos hframe]
      exact ⟨[], rfl, fun off' hend => absurd hend (by simp)⟩
    · rw [if_neg hframe]
      rw [SEG_FRAME_size] at hframe ⊢
      dsimp only
      by_cases henv : beNat (slice X off (off + 8)) > X.length - (off + 8)
      · rw [if_pos henv]
        exact ⟨[], rfl, fun off' hend => absurd hend (by simp)⟩
      · rw [if_neg henv]
        obtain ⟨-, hbytes⟩ := beNat_slice8 (X := X) (n := off) (by omega)
        generalize hlen : beNat (slice X off (off + 8)) = envLen at henv hbytes
        cases hfault : parseFault (slice X (off + 8) (off + 8 + envLen)) with
        | some message => exact ⟨[], rfl, fun off' hend => absurd hend (by simp)⟩
        | none =>
          obtain ⟨V, hV⟩ := parseFault_eq_none.mp hfault
          obtain ⟨Vs, hVs, hreached⟩ :=
            scanSegments_sound (X := X) remaining (off + 8 + envLen) (by omega)
          refine ⟨V :: Vs, by rw [List.map_cons, ← hV, ← hVs], fun off' hend => ?_⟩
          obtain ⟨hcount, hle, hle', hslice⟩ := hreached off' hend
          have hVlen : V.bytes.length = envLen := by
            rw [← hV, slice_length (by omega)]
            omega
          refine ⟨by rw [List.length_cons, hcount], by omega, hle', ?_⟩
          rw [framed_cons, hVlen, hbytes, ← hV, ← hslice,
            slice_append_slice (by omega) (by omega), slice_append_slice (by omega) (by omega)]

/-! ## 2. The grammar -/

theorem checkStreamHeader_eq_ok {X : Bytes} {H : StreamFields} :
    checkStreamHeader X H = .ok () ↔
      H.numSegments ≠ 0 ∧ (H.totalLen = 0 → H.numSegments = 1) ∧
        H.numSegments ≤ (X.length - STREAM_HEADER_size) / (SEG_FRAME_size + 1) := by
  unfold checkStreamHeader
  split_ifs with hzero hempty hmany
  · simp [hzero]
  · simp only [false_iff]
    rintro ⟨-, h, -⟩
    exact hempty.2 (h hempty.1)
  · simp only [false_iff]
    rintro ⟨-, -, h⟩
    omega
  · simp only [true_iff]
    exact ⟨hzero, fun hL => by_contra fun hn => hempty ⟨hL, hn⟩, by omega⟩

theorem le_framed_length (Vs : List Envelope) : 93 * Vs.length ≤ (framed Vs).length := by
  induction Vs with
  | nil => exact Nat.zero_le _
  | cons V Vs ih =>
    have hV := V.le_bytes_length
    rw [framed_cons, List.length_append, List.length_append, beBytes_length, List.length_cons]
    omega

/-- **The grammar of containers**: a header, then as many framed envelopes as it declares. -/
structure StreamGrammar (X : Bytes) (H : StreamHeader) (Vs : List Envelope) : Prop where
  bytes : X = H.bytes ++ framed Vs
  count : Vs.length = H.numSegments
  nonzero : H.numSegments ≠ 0
  empty : H.totalLen = 0 → H.numSegments = 1

/-- No guard is in the way of the grammar. -/
theorem StreamGrammar.scanStream_eq {X : Bytes} {H : StreamHeader} {Vs : List Envelope}
    (h : StreamGrammar X H Vs) :
    scanStream X = .ok
      { fields := H.toStreamFields, segments := Vs.map Envelope.bytes, fault := none } := by
  have hlen : X.length = 45 + (framed Vs).length := by
    rw [h.bytes, List.length_append, H.bytes_length]
  have hguard : checkStreamHeader X H.toStreamFields = .ok () := by
    refine checkStreamHeader_eq_ok.mpr ⟨h.nonzero, h.empty, ?_⟩
    rw [STREAM_HEADER_size_eq, SEG_FRAME_size, ← h.count, hlen,
      Nat.le_div_iff_mul_le (by omega)]
    have hframed := le_framed_length Vs
    omega
  have hscan : scanSegments X H.numSegments STREAM_HEADER_size
      = (Vs.map Envelope.bytes, .reached X.length) := by
    have hX : X = H.bytes ++ (framed Vs ++ []) := by
      rw [List.append_nil]
      exact h.bytes
    have hframes := scanSegments_framed Vs H.bytes [] hX
    rw [H.bytes_length, h.count, ← hlen] at hframes
    exact hframes
  rw [Sce.scanStream_eq (h.bytes ▸ parseStreamHeader_bytes H (framed Vs)), hguard, hscan]
  simp only [Except.map, ScanEnd.faultIn, ne_eq, not_true, if_false]

/-- **The containers without a fault are those of the grammar.** -/
theorem scanStream_clean_iff {X : Bytes} {sc : Scan} :
    (scanStream X = .ok sc ∧ sc.fault = none) ↔
      ∃ (H : StreamHeader) (Vs : List Envelope), StreamGrammar X H Vs ∧
        sc = { fields := H.toStreamFields, segments := Vs.map Envelope.bytes, fault := none } := by
  constructor
  · rintro ⟨hscan, hfault⟩
    rcases parseStreamHeader_cases X with ⟨message, he⟩ | ⟨H, rest, hX⟩
    · rw [scanStream, he] at hscan
      exact absurd hscan (by simp [bind, Except.bind])
    · rw [scanStream_eq (hX ▸ parseStreamHeader_bytes H rest)] at hscan
      cases hguard : checkStreamHeader X H.toStreamFields with
      | error e =>
        rw [hguard] at hscan
        exact absurd hscan (by simp [Except.map])
      | ok u =>
        rw [hguard] at hscan
        obtain rfl := Except.ok.inj hscan
        obtain ⟨hzero, hempty, -⟩ := checkStreamHeader_eq_ok.mp hguard
        have hlen : STREAM_HEADER_size ≤ X.length := by
          rw [hX, List.length_append, H.bytes_length]
          exact Nat.le_add_right 45 _
        obtain ⟨Vs, hVs, hreached⟩ := scanSegments_sound (X := X) H.numSegments _ hlen
        have hend : (scanSegments X H.numSegments STREAM_HEADER_size).2 = .reached X.length := by
          cases hend : (scanSegments X H.numSegments STREAM_HEADER_size).2 with
          | fault message =>
            rw [hend] at hfault
            exact absurd hfault (by simp [ScanEnd.faultIn])
          | reached off =>
            rw [hend] at hfault
            by_cases hoff : off = X.length
            · rw [hoff]
            · exact absurd hfault (by simp [ScanEnd.faultIn, hoff])
        obtain ⟨hcount, -, -, hslice⟩ := hreached _ hend
        have hrest : rest = framed Vs := by
          have hwhole := slice_append_drop X STREAM_HEADER_size
          have htail : slice X STREAM_HEADER_size X.length = X.drop STREAM_HEADER_size := by
            rw [slice, List.take_length]
          rw [← hslice, htail, hX]
          exact (List.drop_left' H.bytes_length).symm
        refine ⟨H, Vs, ⟨by rw [hX, hrest], hcount, hzero, hempty⟩, ?_⟩
        rw [hVs, hend]
        simp only [ScanEnd.faultIn, ne_eq, not_true, if_false]
  · rintro ⟨H, Vs, hgrammar, rfl⟩
    exact ⟨hgrammar.scanStream_eq, rfl⟩

/-! ## 3. Opening what was read -/

/-- Opening the envelope of one place. -/
theorem openSegment_eq {B : StreamBinding} {H : StreamHeader} {M : Manifest P}
    {masterSecret : Arg Bytes} {epochId : Arg Int} {context : Arg Bytes}
    (hB : B.PresentedBy (.of M) masterSecret epochId context) {i : Nat} (hi : i < 2 ^ 64)
    (V : Envelope) :
    openSegment P M masterSecret epochId B.context H.toStreamFields (V.bytes, i) =
      ⟨(B.segment H i).unsealLog P V,
        release (V.commitment == (B.segment H i).commitment P V.salt)
          (P.plaintextOf ((B.segment H i).decryption P V))⟩ := by
  rw [openSegment, B.segContext_eq H hi, Logged.liftM_ok, Logged.pure_bind]
  exact unsealState_eq (B.segment_presentedBy H hB i) rfl

/-- An envelope that does not open is a mismatch. -/
theorem openSegment_error {B : StreamBinding} {H : StreamHeader} {M : Manifest P}
    {masterSecret : Arg Bytes} {epochId : Arg Int} {context : Arg Bytes}
    (hB : B.PresentedBy (.of M) masterSecret epochId context) {i : Nat} (hi : i < 2 ^ 64)
    {V : Envelope} {e : PyExc}
    (h : (openSegment P M masterSecret epochId B.context H.toStreamFields (V.bytes, i)).result
      = .error e) : e = mismatch := by
  rw [openSegment_eq hB hi] at h
  exact release_eq_error h

/-- The envelopes open under their places to the given parts. -/
def StreamBinding.OpensAll (P : Platform) (B : StreamBinding) (H : StreamHeader)
    (Vs : List Envelope) (parts : List Bytes) : Prop :=
  List.Forall₂ (fun x S => (B.segment H x.2).Opens P x.1 S) Vs.zipIdx parts

theorem StreamBinding.OpensAll.length_eq {B : StreamBinding} {H : StreamHeader}
    {Vs : List Envelope} {parts : List Bytes} (h : B.OpensAll P H Vs parts) :
    Vs.length = parts.length := by
  have hlen := List.Forall₂.length_eq h
  rwa [List.length_zipIdx] at hlen

/-- **One place of a container that opens.** -/
theorem StreamBinding.OpensAll.get {B : StreamBinding} {H : StreamHeader} {Vs : List Envelope}
    {parts : List Bytes} (h : B.OpensAll P H Vs parts) {i : Nat} {V : Envelope}
    (hV : Vs[i]? = some V) : ∃ s, parts[i]? = some s ∧ (B.segment H i).Opens P V s := by
  obtain ⟨hi, hVi⟩ := List.getElem?_eq_some_iff.mp hV
  have hi' : i < parts.length := h.length_eq ▸ hi
  have hopen := (List.forall₂_iff_get.mp h).2 i (by rwa [List.length_zipIdx]) hi'
  simp only [List.get_eq_getElem, List.getElem_zipIdx, Nat.zero_add, hVi] at hopen
  exact ⟨parts[i], List.getElem?_eq_getElem hi', hopen⟩

theorem lt_of_mem_zipIdx {α : Type} {l : List α} {x : α × Nat} (h : x ∈ l.zipIdx)
    {n : Nat} (hn : l.length ≤ n) : x.2 < n := by
  obtain ⟨a, i⟩ := x
  have hi := List.mem_zipIdx' h
  exact hi.1.trans_le hn

/-- **The scanned envelopes open exactly when each does under its place.** -/
theorem openSegments_eq_ok {B : StreamBinding} {H : StreamHeader} {M : Manifest P}
    {masterSecret : Arg Bytes} {epochId : Arg Int} {context : Arg Bytes}
    (hB : B.PresentedBy (.of M) masterSecret epochId context) {Vs : List Envelope}
    (hcount : Vs.length = H.numSegments) {fault : Option String} {parts : List Bytes} :
    (openSegments P M masterSecret epochId B.context
        { fields := H.toStreamFields, segments := Vs.map Envelope.bytes, fault := fault }).result
      = .ok parts ↔ B.OpensAll P H Vs parts := by
  have hbound : Vs.length ≤ 2 ^ 64 := hcount ▸ H.numSegments_lt.le
  rw [openSegments, Logged.result_each_eq_ok, StreamBinding.OpensAll, List.zipIdx_map,
    List.forall₂_map_left_iff]
  have hstep : ∀ x ∈ Vs.zipIdx, ∀ S,
      (openSegment P M masterSecret epochId B.context H.toStreamFields
        (Prod.map Envelope.bytes id x)).result = .ok S ↔ (B.segment H x.2).Opens P x.1 S := by
    rintro ⟨V, i⟩ hx S
    have hi : i < 2 ^ 64 := lt_of_mem_zipIdx hx hbound
    rw [Prod.map_apply, id, openSegment_eq hB hi]
    exact Binding.opens_iff
  rw [List.forall₂_iff_zip, List.forall₂_iff_zip]
  refine and_congr_right fun _ => ?_
  constructor
  · intro h x S hx
    exact (hstep x (List.of_mem_zip hx).1 S).mp (h hx)
  · intro h x S hx
    exact (hstep x (List.of_mem_zip hx).1 S).mpr (h hx)

theorem Scan.finish_eq_ok {sc : Scan} {parts : List Bytes} {S : Bytes} :
    sc.finish parts = .ok S ↔
      sc.fault = none ∧ S.length = sc.fields.totalLen ∧ parts.flatten = S := by
  unfold Scan.finish
  cases sc.fault with
  | some message => simp
  | none =>
    rw [← List.length_flatten]
    dsimp only
    split_ifs with hlen
    · simp only [true_and, false_iff]
      rintro ⟨hS, rfl⟩
      exact hlen hS
    · simp only [Except.ok.injEq, true_and]
      constructor
      · rintro rfl
        exact ⟨not_not.mp hlen, rfl⟩
      · exact fun h => h.2

/-- **When a chunked unseal of admissible parameters returns a state.** -/
theorem unsealStateChunked_eq_ok {B : StreamBinding} {x : Carrier} {M : Manifest P}
    {masterSecret : Arg Bytes} {epochId : Arg Int} {context : Arg Bytes}
    (hB : B.PresentedBy (.of M) masterSecret epochId context) {S : Bytes} :
    (unsealStateChunked P (.of x) (.of M) masterSecret epochId context).result = .ok S ↔
      ∃ (H : StreamHeader) (Vs : List Envelope) (parts : List Bytes),
        StreamGrammar x.toBytes H Vs ∧ B.OpensAll P H Vs parts ∧ parts.flatten = S ∧
          S.length = H.totalLen := by
  rw [unsealStateChunked_eq hB]
  simp only [Logged.result_bind_eq_ok, Logged.liftM_result, Scan.finish_eq_ok]
  constructor
  · rintro ⟨sc, hscan, parts, hparts, hfault, hlen, hS⟩
    obtain ⟨H, Vs, hgrammar, rfl⟩ := scanStream_clean_iff.mp ⟨hscan, hfault⟩
    exact ⟨H, Vs, parts, hgrammar, (openSegments_eq_ok hB hgrammar.count).mp hparts, hS, hlen⟩
  · rintro ⟨H, Vs, parts, hgrammar, hopens, hS, hlen⟩
    exact ⟨_, hgrammar.scanStream_eq, parts, (openSegments_eq_ok hB hgrammar.count).mpr hopens,
      rfl, hlen, hS⟩

/-- **What a successful chunked unseal has recorded**: the unseal of every segment. -/
theorem unsealLog_subset {B : StreamBinding} {x : Carrier} {M : Manifest P}
    {masterSecret : Arg Bytes} {epochId : Arg Int} {context : Arg Bytes}
    (hB : B.PresentedBy (.of M) masterSecret epochId context) {H : StreamHeader}
    {Vs : List Envelope} {parts : List Bytes} (hgrammar : StreamGrammar x.toBytes H Vs)
    (hopens : B.OpensAll P H Vs parts) {i : Nat} {V : Envelope} (hV : Vs[i]? = some V) :
    (B.segment H i).unsealLog P V ⊆
      (unsealStateChunked P (.of x) (.of M) masterSecret epochId context).log := by
  have hparts : (openSegments P M masterSecret epochId B.context
      { fields := H.toStreamFields, segments := Vs.map Envelope.bytes, fault := none }).result
        = .ok parts := (openSegments_eq_ok hB hgrammar.count).mpr hopens
  have hmem : (V.bytes, i) ∈ (Vs.map Envelope.bytes).zipIdx := by
    rw [List.mk_mem_zipIdx_iff_getElem?, List.getElem?_map, hV]
    rfl
  have hi : i < 2 ^ 64 :=
    lt_of_mem_zipIdx hmem (by rw [List.length_map, hgrammar.count]; exact H.numSegments_lt.le)
  have hstep := Logged.log_subset_log_each hparts hmem
  rw [openSegment_eq hB hi] at hstep
  rw [unsealStateChunked_eq hB, hgrammar.scanStream_eq, Logged.liftM_ok, Logged.pure_bind,
    Logged.bind_of_ok hparts]
  exact fun e he => List.mem_append_left _ (hstep he)

/-! ## 4. Parameters of a container that opened -/

/-- A loop that succeeds on a first segment had admissible parameters. -/
theorem unsealSegments_first {X : Bytes} {M : Manifest P} {masterSecret : Arg Bytes}
    {epochId : Arg Int} {u : Bytes} {H : StreamHeader} {remaining i : Nat} {s r : SegmentLoop}
    (h : (unsealSegmentsWith P (deriveKeyMaterial P) X M masterSecret epochId u
      H.toStreamFields (remaining + 1) i s).result = .ok r) :
    ∃ B : StreamBinding, B.PresentedBy (.of M) masterSecret epochId (.of u) := by
  rw [unsealSegmentsWith] at h
  split_ifs at h with hframe
  · exact absurd h (by simp)
  · dsimp only at h
    split_ifs at h with henv
    · exact absurd h (by simp)
    · obtain ⟨ctx, hctx, hrest⟩ := Logged.result_bind_eq_ok.mp h
      obtain ⟨segment, hsegment, -⟩ := Logged.result_bind_eq_ok.mp hrest
      obtain ⟨b, _, _, hb, -⟩ := unsealState_ok hsegment
      exact hb.stream hctx

/-- **A chunked unseal that returns had admissible parameters.** -/
theorem unsealStateChunked_presented {container : Arg Carrier} {manifest : Arg (Manifest P)}
    {masterSecret : Arg Bytes} {epochId : Arg Int} {context : Arg Bytes} {S : Bytes}
    (h : (unsealStateChunked P container manifest masterSecret epochId context).result = .ok S) :
    ∃ (B : StreamBinding) (x : Carrier) (M : Manifest P), container = .of x ∧ manifest = .of M ∧
      B.PresentedBy (.of M) masterSecret epochId context := by
  unfold unsealStateChunked unsealStateChunkedWith at h
  obtain ⟨M, hM, h⟩ := Logged.result_bind_eq_ok.mp h
  obtain ⟨u, hu, h⟩ := Logged.result_bind_eq_ok.mp h
  obtain ⟨X, hX, h⟩ := Logged.result_bind_eq_ok.mp h
  obtain ⟨F, hF, h⟩ := Logged.result_bind_eq_ok.mp h
  obtain ⟨_, hguard, h⟩ := Logged.result_bind_eq_ok.mp h
  obtain ⟨r, hr, -⟩ := Logged.result_bind_eq_ok.mp h
  obtain rfl := requireManifest_eq_ok.mp hM
  obtain rfl := requireContext_eq_ok.mp hu
  have hF : parseStreamHeader X = .ok F := hF
  have hX : requireEnvelopeBytes "stream container" container = .ok X := hX
  match container with
  | .other typeName => exact absurd hX (by simp [requireEnvelopeBytes])
  | .of x =>
    obtain ⟨H, rfl⟩ := exists_streamHeader hF
    obtain ⟨n, hn⟩ := Nat.exists_eq_succ_of_ne_zero (checkStreamHeader_eq_ok.mp hguard).1
    rw [hn] at hr
    obtain ⟨B, hB⟩ := unsealSegments_first hr
    exact ⟨B, x, M, rfl, rfl, hB⟩

/-- **What is known of a container that opened.** -/
theorem unsealStateChunked_ok {container : Arg Carrier} {manifest : Arg (Manifest P)}
    {masterSecret : Arg Bytes} {epochId : Arg Int} {context : Arg Bytes} {S : Bytes}
    (h : (unsealStateChunked P container manifest masterSecret epochId context).result = .ok S) :
    ∃ (B : StreamBinding) (x : Carrier) (H : StreamHeader) (Vs : List Envelope)
      (parts : List Bytes), B.PresentedBy manifest masterSecret epochId context ∧
        container = .of x ∧ StreamGrammar x.toBytes H Vs ∧ B.OpensAll P H Vs parts ∧
        parts.flatten = S ∧ S.length = H.totalLen ∧
        ∀ i V, Vs[i]? = some V → (B.segment H i).unsealLog P V ⊆
          (unsealStateChunked P container manifest masterSecret epochId context).log := by
  obtain ⟨B, x, M, rfl, rfl, hB⟩ := unsealStateChunked_presented h
  obtain ⟨H, Vs, parts, hgrammar, hopens, hS, hlen⟩ := (unsealStateChunked_eq_ok hB).mp h
  exact ⟨B, x, H, Vs, parts, hB, rfl, hgrammar, hopens, hS, hlen,
    fun i V hV => unsealLog_subset hB hgrammar hopens hV⟩

end Sce
