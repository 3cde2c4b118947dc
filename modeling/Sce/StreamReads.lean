/-
# What a chunked unseal reads, and how often it goes round

The counts and lengths in a container are whatever its author wrote, up to `2^64 - 1`, and they
drive the loop of the consumer.  To speak of the work this causes, the consumer is written a
second time with a record of its passes through the loop and of the slices each pass takes
(`unsealStateChunkedTraced`).  The record changes nothing (`unsealStateChunkedTraced_run`).

* Every slice lies within the container (`reads_le`), so each has the width its reader unpacks.
* The number of passes is at most what the guard on the declared count lets through
  (`passes_length_le`).
* The passes are those of the run: its decryptions are of the ciphertexts in the slices they
  take, one for each pass that comes to slice an envelope, which all but the last do
  (`decryptsPasses`).
-/
import Sce.StreamOpen

namespace Sce

open BigEndian

variable {P : Platform}

/-! ## 1. The consumer with a record -/

/-- The slices of one pass through the loop, each from an offset to an offset. -/
abbrev Pass := List (Nat × Nat)

/-- The slices a chunked unseal takes of its container. -/
structure StreamTrace where
  header : List (Nat × Nat)
  passes : List Pass

/-- All of them. -/
def StreamTrace.reads (t : StreamTrace) : List (Nat × Nat) := t.header ++ t.passes.flatten

section

variable (P : Platform)

/-- The segment loop of `unseal_state_chunked`, with its passes. -/
def unsealSegmentsTraced (derive : Deriver) (container : Bytes) (manifest : Manifest P)
    (masterSecret : Arg Bytes) (epochId : Arg Int) (userContext : Bytes) (H : StreamFields) :
    (remaining i : Nat) → SegmentLoop → Py SegmentLoop × List Pass
  | 0, _, s => (pure s, [])
  | remaining + 1, i, s =>
    if s.off + SEG_FRAME_size > container.length then
      (.fail (.malformedEnvelope "stream truncated: missing a segment length prefix"), [[]])
    else
      let envLen := beNat (slice container s.off (s.off + SEG_FRAME_size))
      let off := s.off + SEG_FRAME_size
      if envLen > container.length - off then
        (.fail (.malformedEnvelope "stream truncated: segment shorter than declared"),
          [[(s.off, off)]])
      else
        let env := slice container off (off + envLen)
        let opened : Py Bytes := do
          let segCtx ← H.segContext userContext i
          unsealStateWith P derive (.of (.bytes env)) (.of manifest) masterSecret epochId
            (.of segCtx)
        match opened.result with
        | .error e => (⟨opened.log, .error e⟩, [[(s.off, off), (off, off + envLen)]])
        | .ok segment =>
          let rest := unsealSegmentsTraced derive container manifest masterSecret epochId
            userContext H remaining (i + 1)
            { off := off + envLen
              parts := s.parts ++ [segment]
              assembled := s.assembled + segment.length }
          (⟨opened.log ++ rest.1.log, rest.1.result⟩,
            [(s.off, off), (off, off + envLen)] :: rest.2)

/-- The slice `_parse_stream_header` takes. -/
def headerReads (container : Bytes) : List (Nat × Nat) :=
  if container.length < STREAM_HEADER_size then [] else [(0, STREAM_HEADER_size)]

/-- `unseal_state_chunked` of arguments of the right types, with its slices. -/
def unsealStateChunkedTraced (container : Carrier) (manifest : Manifest P)
    (masterSecret : Arg Bytes) (epochId : Arg Int) (context : Bytes) : Py Bytes × StreamTrace :=
  let container := container.toBytes
  match parseStreamHeader container with
  | .error e => (.fail e, { header := headerReads container, passes := [] })
  | .ok H =>
    match checkStreamHeader container H with
    | .error e => (.fail e, { header := headerReads container, passes := [] })
    | .ok () =>
      let loop := unsealSegmentsTraced P (deriveKeyMaterial P) container manifest masterSecret
        epochId context H H.numSegments 0 { off := STREAM_HEADER_size, parts := [], assembled := 0 }
      (loop.1 >>= fun s => liftM (finishStream container H s),
        { header := headerReads container, passes := loop.2 })

end

/-! ## 2. The record changes nothing -/

/-- **One pass with its record is one pass.** -/
theorem unsealSegmentsTraced_run {derive : Deriver} {X : Bytes} {M : Manifest P}
    {masterSecret : Arg Bytes} {epochId : Arg Int} {u : Bytes} {H : StreamFields} :
    ∀ (remaining i : Nat) (s : SegmentLoop),
      (unsealSegmentsTraced P derive X M masterSecret epochId u H remaining i s).1
        = unsealSegmentsWith P derive X M masterSecret epochId u H remaining i s
  | 0, _, _ => rfl
  | remaining + 1, i, s => by
    rw [unsealSegmentsTraced, unsealSegmentsWith]
    by_cases hframe : s.off + SEG_FRAME_size > X.length
    · rw [if_pos hframe, if_pos hframe]
    · rw [if_neg hframe, if_neg hframe]
      dsimp only
      by_cases henv : beNat (slice X s.off (s.off + SEG_FRAME_size))
          > X.length - (s.off + SEG_FRAME_size)
      · rw [if_pos henv, if_pos henv]
      · rw [if_neg henv, if_neg henv, ← Logged.bind_assoc]
        generalize hopened : (liftM (H.segContext u i) >>= fun segCtx =>
          unsealStateWith P derive (.of (.bytes (slice X (s.off + SEG_FRAME_size)
            (s.off + SEG_FRAME_size + beNat (slice X s.off (s.off + SEG_FRAME_size))))))
            (.of M) masterSecret epochId (.of segCtx) : Py Bytes) = opened
        cases hresult : opened.result with
        | error e => rw [Logged.bind_of_error hresult]
        | ok segment =>
          rw [Logged.bind_of_ok hresult, ← unsealSegmentsTraced_run remaining (i + 1)]

/-- **The consumer with its record is the consumer.** -/
theorem unsealStateChunkedTraced_run (x : Carrier) (M : Manifest P) (masterSecret : Arg Bytes)
    (epochId : Arg Int) (context : Bytes) :
    (unsealStateChunkedTraced P x M masterSecret epochId context).1
      = unsealStateChunked P (.of x) (.of M) masterSecret epochId (.of context) := by
  unfold unsealStateChunked unsealStateChunkedWith unsealStateChunkedTraced
  simp only [requireManifest_eq_ok.mpr rfl, requireContext_eq_ok.mpr rfl, requireEnvelopeBytes,
    Logged.liftM_ok, Logged.pure_bind]
  cases hparse : parseStreamHeader x.toBytes with
  | error e => rfl
  | ok H =>
    simp only [Logged.liftM_ok, Logged.pure_bind]
    cases hguard : checkStreamHeader x.toBytes H with
    | error e => rfl
    | ok u =>
      simp only [Logged.liftM_ok, Logged.pure_bind, unsealSegmentsTraced_run]

/-! ## 3. Bounds -/

/-- The slice lies within the container. -/
def Within (X : Bytes) (r : Nat × Nat) : Prop := r.1 ≤ r.2 ∧ r.2 ≤ X.length

/-- **A pass reads within the container**, and leaves the offset within it for the next. -/
theorem unsealSegmentsTraced_within {derive : Deriver} {X : Bytes} {M : Manifest P}
    {masterSecret : Arg Bytes} {epochId : Arg Int} {u : Bytes} {H : StreamFields} :
    ∀ (remaining i : Nat) (s : SegmentLoop), s.off ≤ X.length →
      ∀ pass ∈ (unsealSegmentsTraced P derive X M masterSecret epochId u H remaining i s).2,
        ∀ r ∈ pass, Within X r
  | 0, _, _, _, pass, hpass => absurd hpass List.not_mem_nil
  | remaining + 1, i, s, hoff, pass, hpass => by
    rw [unsealSegmentsTraced] at hpass
    by_cases hframe : s.off + SEG_FRAME_size > X.length
    · rw [if_pos hframe] at hpass
      obtain rfl := List.mem_singleton.mp hpass
      exact fun r hr => absurd hr List.not_mem_nil
    · rw [if_neg hframe] at hpass
      have hprefix : Within X (s.off, s.off + SEG_FRAME_size) :=
        ⟨Nat.le_add_right _ _, not_lt.mp hframe⟩
      dsimp only at hpass
      by_cases henv : beNat (slice X s.off (s.off + SEG_FRAME_size))
          > X.length - (s.off + SEG_FRAME_size)
      · rw [if_pos henv] at hpass
        obtain rfl := List.mem_singleton.mp hpass
        intro r hr
        obtain rfl := List.mem_singleton.mp hr
        exact hprefix
      · rw [if_neg henv] at hpass
        generalize hlen : beNat (slice X s.off (s.off + SEG_FRAME_size)) = envLen at henv hpass
        have hnext : s.off + SEG_FRAME_size + envLen ≤ X.length := by omega
        have hboth : ∀ r ∈ [(s.off, s.off + SEG_FRAME_size),
            (s.off + SEG_FRAME_size, s.off + SEG_FRAME_size + envLen)], Within X r := by
          intro r hr
          rcases List.mem_cons.mp hr with rfl | hr
          · exact hprefix
          · obtain rfl := List.mem_singleton.mp hr
            exact ⟨Nat.le_add_right _ _, hnext⟩
        split at hpass
        · obtain rfl := List.mem_singleton.mp hpass
          exact hboth
        · rcases List.mem_cons.mp hpass with rfl | hpass
          · exact hboth
          · exact unsealSegmentsTraced_within remaining (i + 1) _ hnext pass hpass

/-- **There are no more passes than segments to go.** -/
theorem unsealSegmentsTraced_length_le {derive : Deriver} {X : Bytes} {M : Manifest P}
    {masterSecret : Arg Bytes} {epochId : Arg Int} {u : Bytes} {H : StreamFields} :
    ∀ (remaining i : Nat) (s : SegmentLoop),
      (unsealSegmentsTraced P derive X M masterSecret epochId u H remaining i s).2.length
        ≤ remaining
  | 0, _, _ => le_rfl
  | remaining + 1, i, s => by
    have hone : (1 : Nat) ≤ remaining + 1 := Nat.le_add_left 1 remaining
    rw [unsealSegmentsTraced]
    split_ifs
    · exact hone
    · dsimp only
      split_ifs
      · exact hone
      · split
        · exact hone
        · exact Nat.succ_le_succ (unsealSegmentsTraced_length_le remaining (i + 1) _)

/-- **No slice of a chunked unseal reaches beyond the container.** -/
theorem reads_le (x : Carrier) (M : Manifest P) (masterSecret : Arg Bytes) (epochId : Arg Int)
    (context : Bytes) :
    ∀ r ∈ (unsealStateChunkedTraced P x M masterSecret epochId context).2.reads,
      Within x.toBytes r := by
  have hheader : ∀ r ∈ headerReads x.toBytes, Within x.toBytes r := by
    intro r hr
    unfold headerReads at hr
    split_ifs at hr with hlen
    · exact absurd hr List.not_mem_nil
    · obtain rfl := List.mem_singleton.mp hr
      exact ⟨Nat.zero_le _, not_lt.mp hlen⟩
  unfold unsealStateChunkedTraced
  dsimp only
  intro r hr
  cases hparse : parseStreamHeader x.toBytes with
  | error e =>
    rw [hparse] at hr
    exact hheader r (by simpa [StreamTrace.reads] using hr)
  | ok H =>
    rw [hparse] at hr
    dsimp only at hr
    cases hguard : checkStreamHeader x.toBytes H with
    | error e =>
      rw [hguard] at hr
      exact hheader r (by simpa [StreamTrace.reads] using hr)
    | ok u =>
      rw [hguard] at hr
      rcases List.mem_append.mp hr with hr | hr
      · exact hheader r hr
      · obtain ⟨pass, hpass, hr⟩ := List.mem_flatten.mp hr
        refine unsealSegmentsTraced_within _ _ _ ?_ pass hpass r hr
        -- a container with a header is at least as long as one
        rcases parseStreamHeader_cases x.toBytes with ⟨message, he⟩ | ⟨F, rest, hX⟩
        · rw [he] at hparse
          exact absurd hparse (by simp)
        · rw [hX, List.length_append, F.bytes_length]
          exact Nat.le_add_right 45 _

/-- **The loop goes round at most once for each nine bytes behind the header.** -/
theorem passes_length_le (x : Carrier) (M : Manifest P) (masterSecret : Arg Bytes)
    (epochId : Arg Int) (context : Bytes) :
    (unsealStateChunkedTraced P x M masterSecret epochId context).2.passes.length
      ≤ (x.toBytes.length - 45) / 9 := by
  unfold unsealStateChunkedTraced
  dsimp only
  cases hparse : parseStreamHeader x.toBytes with
  | error e => exact Nat.zero_le _
  | ok H =>
    dsimp only
    cases hguard : checkStreamHeader x.toBytes H with
    | error e => exact Nat.zero_le _
    | ok u =>
      exact (unsealSegmentsTraced_length_le _ _ _).trans (checkStreamHeader_eq_ok.mp hguard).2.2

/-! ## 4. Passes and decryptions -/

/-- What a pass hands to the cipher: the ciphertext of the envelope it slices, if it comes to slice
one. -/
def Pass.ciphertext (X : Bytes) : Pass → Option Bytes
  | [_, (lo, hi)] => (parseBytes (slice X lo hi)).toOption.map Parsed.ciphertext
  | _ => none

/-- **The passes account for the decryptions of a run**, and none but the last ends early. -/
structure DecryptsPasses (X : Bytes) (log : List Event) (passes : List Pass) : Prop where
  ciphertexts : (decryptions log).map Decryption.ciphertext = passes.filterMap (Pass.ciphertext X)
  complete : ∀ pass ∈ passes.dropLast, (pass.ciphertext X).isSome

/-- The one pass of a run that ends with it. -/
theorem DecryptsPasses.last {X : Bytes} {log : List Event} {pass : Pass}
    (h : (decryptions log).map Decryption.ciphertext = (pass.ciphertext X).toList) :
    DecryptsPasses X log [pass] where
  ciphertexts := by
    rw [h, List.filterMap_cons]
    cases pass.ciphertext X <;> rfl
  complete := fun _ hpass => absurd hpass List.not_mem_nil

/-- A complete pass ahead of others. -/
theorem DecryptsPasses.cons {X : Bytes} {log rest : List Event} {pass : Pass}
    {passes : List Pass}
    (h : (decryptions log).map Decryption.ciphertext = (pass.ciphertext X).toList)
    (hcomplete : (pass.ciphertext X).isSome) (hrest : DecryptsPasses X rest passes) :
    DecryptsPasses X (log ++ rest) (pass :: passes) where
  ciphertexts := by
    obtain ⟨c, hc⟩ := Option.isSome_iff_exists.mp hcomplete
    rw [decryptions_append, List.map_append, h, hrest.ciphertexts, hc,
      List.filterMap_cons_some hc]
    rfl
  complete := by
    intro pass' hpass'
    cases passes with
    | nil => exact absurd hpass' List.not_mem_nil
    | cons p ps =>
      rw [List.dropLast_cons_cons] at hpass'
      rcases List.mem_cons.mp hpass' with rfl | hmem
      · exact hcomplete
      · exact hrest.complete pass' hmem

/-- **An unseal decrypts the ciphertext of what it is given**, if that is an envelope, and nothing
otherwise. -/
theorem unsealState_ciphertexts {manifest : Arg (Manifest P)} {masterSecret : Arg Bytes}
    {epochId : Arg Int} {context : Arg Bytes} {b : Binding}
    (hb : b.PresentedBy manifest masterSecret epochId context) (env : Bytes) :
    (decryptions (unsealState P (.of (.bytes env)) manifest masterSecret epochId context).log).map
        Decryption.ciphertext
      = ((parseBytes env).toOption.map Parsed.ciphertext).toList := by
  rcases parseBytes_cases env with ⟨message, he⟩ | ⟨V, rfl⟩
  · rw [unsealState_malformed hb (parseFault_eq_some.mpr he), he]
    rfl
  · have hV : Carrier.toBytes (.bytes V.bytes) = V.bytes := rfl
    rw [unsealState_eq hb hV, parseBytes_bytes]
    rfl

/-- What an unseal opened parses. -/
theorem parseBytes_isSome_of_unsealState {env : Bytes} {manifest : Arg (Manifest P)}
    {masterSecret : Arg Bytes} {epochId : Arg Int} {context : Arg Bytes} {S : Bytes}
    (h : (unsealState P (.of (.bytes env)) manifest masterSecret epochId context).result = .ok S) :
    ((parseBytes env).toOption.map Parsed.ciphertext).isSome := by
  obtain ⟨_, x, V, _, hx, hV, _, _⟩ := unsealState_ok h
  obtain rfl := Arg.of.inj hx
  have henv : env = V.bytes := hV
  rw [henv, parseBytes_bytes]
  rfl

/-- **The passes of the loop account for what it decrypts.** -/
theorem unsealSegmentsTraced_decryptsPasses {B : StreamBinding} {M : Manifest P}
    {masterSecret : Arg Bytes} {epochId : Arg Int} {context : Arg Bytes}
    (hB : B.PresentedBy (.of M) masterSecret epochId context) (H : StreamHeader) (X : Bytes) :
    ∀ (remaining i : Nat) (s : SegmentLoop), i + remaining ≤ 2 ^ 64 →
      DecryptsPasses X
        (unsealSegmentsTraced P (deriveKeyMaterial P) X M masterSecret epochId B.context
          H.toStreamFields remaining i s).1.log
        (unsealSegmentsTraced P (deriveKeyMaterial P) X M masterSecret epochId B.context
          H.toStreamFields remaining i s).2
  | 0, _, _, _ => ⟨rfl, fun _ hpass => absurd hpass List.not_mem_nil⟩
  | remaining + 1, i, s, hi => by
    have hctx : H.toStreamFields.segContext B.context i = .ok (B.segment H i).context :=
      B.segContext_eq H (by omega)
    have hb := B.segment_presentedBy H hB i
    rw [unsealSegmentsTraced]
    by_cases hframe : s.off + SEG_FRAME_size > X.length
    · rw [if_pos hframe]
      exact .last rfl
    · rw [if_neg hframe]
      dsimp only
      by_cases henv : beNat (slice X s.off (s.off + SEG_FRAME_size))
          > X.length - (s.off + SEG_FRAME_size)
      · rw [if_pos henv]
        exact .last rfl
      · rw [if_neg henv, hctx, Logged.liftM_ok, Logged.pure_bind, ← unsealState]
        generalize hsize : beNat (slice X s.off (s.off + SEG_FRAME_size)) = envLen
        have hone := unsealState_ciphertexts hb
          (slice X (s.off + SEG_FRAME_size) (s.off + SEG_FRAME_size + envLen))
        cases hresult : (unsealState P (.of (.bytes (slice X (s.off + SEG_FRAME_size)
            (s.off + SEG_FRAME_size + envLen)))) (.of M) masterSecret epochId
              (.of (B.segment H i).context)).result with
        | error e => exact .last hone
        | ok segment =>
          exact .cons hone (parseBytes_isSome_of_unsealState hresult)
            (unsealSegmentsTraced_decryptsPasses hB H X remaining (i + 1) _ (by omega))

/-- **The passes of a chunked unseal account for what it decrypts.** -/
theorem decryptsPasses {B : StreamBinding} {x : Carrier} {M : Manifest P}
    {masterSecret : Arg Bytes} {epochId : Arg Int} {context : Arg Bytes}
    (hB : B.PresentedBy (.of M) masterSecret epochId context) :
    DecryptsPasses x.toBytes
      (unsealStateChunkedTraced P x M masterSecret epochId B.context).1.log
      (unsealStateChunkedTraced P x M masterSecret epochId B.context).2.passes := by
  have hnone : DecryptsPasses x.toBytes [] [] := ⟨rfl, fun _ hpass => absurd hpass List.not_mem_nil⟩
  unfold unsealStateChunkedTraced
  dsimp only
  cases hparse : parseStreamHeader x.toBytes with
  | error e => exact hnone
  | ok F =>
    obtain ⟨H, rfl⟩ := exists_streamHeader hparse
    dsimp only
    cases hguard : checkStreamHeader x.toBytes H.toStreamFields with
    | error e => exact hnone
    | ok u =>
      dsimp only
      rw [Logged.log_bind_liftM]
      exact unsealSegmentsTraced_decryptsPasses hB H _ _ _ _
        ((Nat.zero_add _).trans_le H.numSegments_lt.le)

end Sce
