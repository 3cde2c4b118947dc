/-
# A seal is made whole or not at all

What `seal_state` and `seal_state_chunked` take, and what they do with anything else.  Arguments
are admissible (`Call.Admissible`) when each is of its type and within its bound, the bounds
being those of the wire format.  On admissible arguments a call returns and has encrypted as many
times as the state has segments.  On all others it raises before any key is derived
(`seal_all_or_nothing`): a chunked seal does not fail half way, although its checks are made by
the seal of its first segment.

The optional count among the arguments bounds how much rides under one secret: with the counts
that the documentation asks for, a history makes no more seals than the ceiling (`seal_ceiling`).
-/
import Sce.PrimitiveUse

namespace Sce

variable {P : Platform}

/-! ## 1. Admissible arguments -/

/-- Manifest, secret and epoch, which both entry points take alike. -/
structure Keyed (manifest : Arg (Manifest P)) (masterSecret : Arg Bytes) (epochId : Arg Int) :
    Prop where
  manifest : ∃ M, manifest = .of M
  masterSecret : ∃ secret, masterSecret = .of secret ∧ 16 ≤ secret.length
  epochId : ∃ n : Nat, epochId = .of (n : Int) ∧ n < 2 ^ 64

/-- What `seal_state` takes. -/
structure SealCall.Admissible (c : SealCall P) : Prop where
  keyed : Keyed c.manifest c.masterSecret c.epochId
  state : ∃ S, c.state = .of S ∧ S.length ≤ MAX_STATE
  context : ∃ u, c.context = .of u ∧ u.length ≤ MAX_LP_FIELD
  sealCount : ∀ a, c.sealCount = some a →
    ∃ n : Nat, a = .of (n : Int) ∧ n < SEAL_COUNT_CEILING_PER_KEY

/-- What `seal_state_chunked` takes. -/
structure ChunkedCall.Admissible (c : ChunkedCall P) : Prop where
  keyed : Keyed c.manifest c.masterSecret c.epochId
  state : ∃ S, c.state = .of S ∧ S.length < 2 ^ 64
  context : ∃ u, c.context = .of u ∧ u.length ≤ 2 ^ 32 - 75
  segmentSize : ∃ C : Nat, c.segmentSize = .of (C : Int) ∧ 0 < C ∧ C ≤ MAX_STATE

def Call.Admissible : Call P → Prop
  | .direct c => c.Admissible
  | .chunked c => c.Admissible

/-- How many envelopes the call is to make. -/
def Call.envelopes : Call P → Nat
  | .direct _ => 1
  | .chunked c =>
    match c.state, c.segmentSize with
    | .of S, .of C => segmentCount S.length C.toNat
    | _, _ => 0

theorem checkSealCount_iff {sealCount : Option (Arg Int)} :
    checkSealCount sealCount = .ok () ↔ ∀ a, sealCount = some a →
      ∃ n : Nat, a = .of (n : Int) ∧ n < SEAL_COUNT_CEILING_PER_KEY := by
  match sealCount with
  | none => simp [checkSealCount]
  | some (.other typeName) => simp [checkSealCount]
  | some (.of z) =>
    simp only [checkSealCount, Option.some.injEq, forall_eq', Arg.of.injEq]
    constructor
    · intro h
      split_ifs at h with hneg hbig
      exact ⟨z.toNat, by omega, by omega⟩
    · rintro ⟨n, rfl, hn⟩
      rw [if_neg (by omega), if_neg (by omega)]

/-! ## 2. Admissible calls are those that seal -/

/-- A binding is presented by admissible arguments. -/
theorem Binding.PresentedBy.keyed {b : Binding} {manifest : Arg (Manifest P)}
    {masterSecret : Arg Bytes} {epochId : Arg Int} {context : Arg Bytes}
    (h : b.PresentedBy manifest masterSecret epochId context) :
    Keyed manifest masterSecret epochId := by
  obtain ⟨M, hM, -⟩ := h.manifest
  exact ⟨⟨M, hM⟩, ⟨b.masterSecret, h.masterSecret, b.secret_length⟩,
    ⟨b.epochId, h.epochId, b.epochId_lt⟩⟩

theorem SealCall.admissible_iff {c : SealCall P} : c.Admissible ↔ ∃ b S, c.Performs b S := by
  constructor
  · rintro ⟨⟨⟨M, hM⟩, ⟨secret, hsecret, hlen⟩, ⟨n, hepoch, hn⟩⟩, ⟨S, hS, hcap⟩, ⟨u, hu, hle⟩,
      hcount⟩
    have hb := (Environment.ofChecked_presentedBy M hn hle).binding hlen
    rw [← hM, ← hsecret, ← hepoch, ← hu] at hb
    exact ⟨_, S, hb, hS, hcap, checkSealCount_iff.mpr hcount⟩
  · rintro ⟨b, S, h⟩
    exact ⟨h.presented.keyed, ⟨S, h.state, h.state_le⟩, ⟨b.context, h.presented.context,
      b.context_le⟩, checkSealCount_iff.mp h.sealCount⟩

theorem ChunkedCall.admissible_iff {c : ChunkedCall P} :
    c.Admissible ↔ ∃ B S C, c.Performs B S C := by
  constructor
  · rintro ⟨⟨⟨M, hM⟩, ⟨secret, hsecret, hlen⟩, ⟨n, hepoch, hn⟩⟩, ⟨S, hS, hlt⟩, ⟨u, hu, hle⟩,
      ⟨C, hC, hpos, hcap⟩⟩
    obtain ⟨B, hB⟩ := exists_streamBinding M hlen hn hle
    refine ⟨B, S, C, ?_, hS, hC, hlt, hpos, hcap⟩
    rw [hM, hsecret, hepoch, hu]
    exact hB
  · rintro ⟨B, S, C, h⟩
    exact ⟨h.presented.keyed, ⟨S, h.state, h.state_lt⟩, ⟨B.context, h.presented.context,
      B.context_le_stream⟩, ⟨C, h.segmentSize, h.pos, h.cap⟩⟩

/-! ## 3. Every call -/

/-- One seal encrypts once. -/
theorem Binding.encryptions_sealLog (b : Binding) (draw : Draw) (S : Bytes) :
    encryptions (b.sealLog P draw S) = [b.encryption P draw S] := rfl

/-- A chunked seal encrypts once for each segment. -/
theorem StreamBinding.encryptions_sealStream (htag : P.AeadTag) (B : StreamBinding)
    (H : StreamHeader) (draw : StreamDraw) {states : List Bytes}
    (hstates : ∀ s ∈ states, s.length ≤ MAX_STATE) :
    encryptions (B.sealStream P H draw states).log = states.zipIdx.map fun x =>
      (B.segment H x.2).encryption P (draw.segment x.2) x.1 := by
  have hsealed : ∀ x ∈ states.zipIdx, (B.sealSegment P H draw.segment x).result =
      .ok (B.sealedSegment P H draw.segment x) := fun x hx =>
    sealSegment_eq_ok.mpr ⟨by
      rw [Binding.ciphertext_length htag]
      exact length_le_MAX_STATE_iff.mp (hstates x.1 (List.fst_mem_of_mem_zipIdx hx)), rfl⟩
  have hall := Logged.each_of_ok hsealed
  rw [StreamBinding.log_sealStream, hall]
  show encryptions (states.zipIdx.flatMap fun x =>
    (B.segment H x.2).sealLog P (draw.segment x.2) x.1) = _
  rw [encryptions, List.filterMap_flatMap]
  exact List.flatMap_pure_eq_map _ _

/-- **All or nothing.**  On admissible arguments either seal returns, having made as many
envelopes as it is to make; on all others it raises, and no key has been derived and nothing
encrypted. -/
theorem seal_all_or_nothing (htag : P.AeadTag) (c : Call P) :
    (c.Admissible ∧ ∃ X, c.run.result = .ok X ∧
        (encryptions c.run.log).length = c.envelopes) ∨
      (¬ c.Admissible ∧ ∃ e, c.run.result = .error e ∧ ∀ event ∈ c.run.log,
        ∃ id, event = .streamId id) := by
  cases c with
  | direct c =>
    by_cases hadmissible : c.Admissible
    · obtain ⟨b, S, h⟩ := SealCall.admissible_iff.mp hadmissible
      have hcap : (b.ciphertext P c.draw S).length < 2 ^ 32 := by
        rw [Binding.ciphertext_length htag]
        exact length_le_MAX_STATE_iff.mp h.state_le
      refine .inl ⟨hadmissible, b.sealed P c.draw S, ?_, ?_⟩
      · rw [Call.run, h.run_eq]
        exact frame_of_lt hcap
      · rw [Call.run, h.run_eq]
        exact congrArg List.length (b.encryptions_sealLog c.draw S)
    · rcases c.run_cases with ⟨e, hfail⟩ | hperforms
      · refine .inr ⟨hadmissible, e, congrArg Logged.result hfail, fun event hevent => ?_⟩
        rw [Call.run, hfail] at hevent
        exact absurd hevent (by simp)
      · exact absurd (SealCall.admissible_iff.mpr hperforms) hadmissible
  | chunked c =>
    by_cases hadmissible : c.Admissible
    · obtain ⟨B, S, C, h⟩ := ChunkedCall.admissible_iff.mp hadmissible
      have hresult : (sealStateChunked P c.draw (.of S) c.manifest c.masterSecret c.epochId
          c.context (.of (C : Int))).result
            = .ok (B.container P h.header c.draw.segment (segmentStates S C)) :=
        sealStateChunked_eq_container htag h.presented h.state_lt h.pos h.cap
      rw [← h.state, ← h.segmentSize] at hresult
      refine .inl ⟨hadmissible, _, hresult, ?_⟩
      · have hstates := B.encryptions_sealStream htag h.header c.draw
          (segmentStates_le h.pos h.cap (S := S))
        rw [Call.run, h.run_eq, hstates, List.length_map, List.length_zipIdx,
          segmentStates_length S h.pos, Call.envelopes, h.state, h.segmentSize]
        rfl
    · rcases c.run_cases with ⟨log, e, hfail, hlog⟩ | hperforms
      · refine .inr ⟨hadmissible, e, congrArg Logged.result hfail, fun event hevent => ?_⟩
        rw [Call.run, hfail] at hevent
        exact ⟨_, List.mem_singleton.mp (hlog hevent)⟩
      · exact absurd (ChunkedCall.admissible_iff.mpr hperforms) hadmissible

/-- Three bytes in segments of two make two envelopes. -/
theorem toyChunkedCall_all_or_nothing :
    (encryptions (toyChunkedCall 0x44 [0x01, 0x02, 0x03]).run.log).length = 2 := by
  rcases seal_all_or_nothing toy_aeadTag (.chunked (toyChunkedCall 0x44 [0x01, 0x02, 0x03])) with
    ⟨-, X, -, hcount⟩ | ⟨hnot, -⟩
  · exact hcount
  · refine absurd ?_ hnot
    exact ⟨⟨⟨_, rfl⟩, ⟨_, rfl, by decide⟩, ⟨9, rfl, by decide⟩⟩, ⟨_, rfl, by decide⟩,
      ⟨_, rfl, by decide⟩, ⟨2, rfl, by decide, by decide⟩⟩

/-! ## 4. The ceiling -/

/-- A call that returned was given a count below the ceiling, if it was given any. -/
theorem SealCall.count_lt {c : SealCall P} {X : Bytes} (h : c.run.result = .ok X) {a : Arg Int}
    (ha : c.sealCount = some a) :
    ∃ n : Nat, a = .of (n : Int) ∧ n < SEAL_COUNT_CEILING_PER_KEY := by
  obtain ⟨b, S, hperforms, -⟩ := SealCall.performs_of_ok h
  exact checkSealCount_iff.mp hperforms.sealCount a ha

/-- The number a call was given as its count. -/
def SealCall.countOf (c : SealCall P) : Nat :=
  match c.sealCount with
  | some (.of n) => n.toNat
  | _ => 0

/-- The calls that returned something under a secret and an epoch. -/
def sealsUnder (secret : Arg Bytes) (epochId : Arg Int) (calls : List (SealCall P)) :
    List (SealCall P) :=
  calls.filter fun c =>
    c.run.result.isOk && (decide (c.masterSecret = secret) && decide (c.epochId = epochId))

/-- **The ceiling holds.**  When every call of a history passes a count, and calls under one secret
and epoch pass different ones, as the documentation asks, then no more than the ceiling of them
ever return, whatever the order and whatever else they are given. -/
theorem seal_ceiling {calls : List (SealCall P)}
    (hcounted : ∀ c ∈ calls, ∃ a, c.sealCount = some a)
    (hdistinct : calls.Pairwise fun c c' => c.masterSecret = c'.masterSecret →
      c.epochId = c'.epochId → c.sealCount ≠ c'.sealCount)
    (secret : Arg Bytes) (epochId : Arg Int) :
    (sealsUnder secret epochId calls).length ≤ SEAL_COUNT_CEILING_PER_KEY := by
  have hmem : ∀ c ∈ sealsUnder secret epochId calls, c.masterSecret = secret ∧
      c.epochId = epochId ∧ ∃ n : Nat, c.sealCount = some (.of (n : Int)) ∧
        n < SEAL_COUNT_CEILING_PER_KEY := by
    intro c hc
    obtain ⟨hc, hreturned⟩ := List.mem_filter.mp hc
    simp only [Bool.and_eq_true, decide_eq_true_eq] at hreturned
    obtain ⟨hok, hsecret, hepoch⟩ := hreturned
    obtain ⟨a, ha⟩ := hcounted c hc
    cases hresult : c.run.result with
    | error e =>
      rw [hresult] at hok
      exact absurd hok (by simp [Except.isOk, Except.toBool])
    | ok X =>
      obtain ⟨n, rfl, hn⟩ := c.count_lt hresult ha
      exact ⟨hsecret, hepoch, n, ha, hn⟩
  -- the counts are distinct numbers below the ceiling
  have hcount : ∀ c ∈ sealsUnder secret epochId calls,
      c.sealCount = some (.of (c.countOf : Int)) ∧ c.countOf < SEAL_COUNT_CEILING_PER_KEY := by
    intro c hc
    obtain ⟨-, -, n, ha, hn⟩ := hmem c hc
    have hcountOf : c.countOf = n := by
      rw [SealCall.countOf, ha]
      exact Int.toNat_natCast n
    rw [hcountOf]
    exact ⟨ha, hn⟩
  have hnodup : ((sealsUnder secret epochId calls).map SealCall.countOf).Nodup := by
    refine List.pairwise_map.mpr ((hdistinct.filter _).imp_of_mem fun {c c'} hc hc' hne heq => ?_)
    obtain ⟨hsecret, hepoch, -⟩ := hmem c hc
    obtain ⟨hsecret', hepoch', -⟩ := hmem c' hc'
    refine hne (hsecret.trans hsecret'.symm) (hepoch.trans hepoch'.symm) ?_
    rw [(hcount c hc).1, (hcount c' hc').1, heq]
  have hsubset : (sealsUnder secret epochId calls).map SealCall.countOf
      ⊆ List.range SEAL_COUNT_CEILING_PER_KEY := by
    intro n hn
    obtain ⟨c, hc, rfl⟩ := List.mem_map.mp hn
    exact List.mem_range.mpr (hcount c hc).2
  have hlength := (List.subperm_of_subset hnodup hsubset).length_le
  rwa [List.length_map, List.length_range] at hlength

/-- Two calls with the counts 0 and 1. -/
theorem toySealCall_ceiling :
    (sealsUnder (.of toySecret) (.of 9)
      [{ toySealCall [0x01] 0x22 with sealCount := some (.of 0) },
        { toySealCall [0x02] 0x23 with sealCount := some (.of 1) }]).length
      ≤ SEAL_COUNT_CEILING_PER_KEY := by
  refine seal_ceiling ?_ ?_ _ _
  · simp
  · simp

end Sce
