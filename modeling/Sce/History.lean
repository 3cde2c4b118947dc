/-
# Histories of seals

A history is a list of calls of `seal_state` and `seal_state_chunked`, each with its arguments
and with what it drew, run one after the other.  Its log is the concatenation of their logs,
the failed ones included.

`Call.Seals` names the seals behind a call: its own for `seal_state`, one for each segment for
`seal_state_chunked`.  What is used later of a history is two facts:

* every encryption in its log is that of one of these seals, whose derivation the log shows as
  well (`encryption_carriedOut`);
* when the stream ids drawn are distinct, a stream id names a call (`eq_of_streamId`).

Nothing is assumed of the platform here.
-/
import Sce.StreamSeal
import Mathlib.Data.List.Nodup

namespace Sce

variable {P : Platform}

/-! ## 1. Calls -/

/-- A call of `seal_state`. -/
structure SealCall (P : Platform) where
  draw : Draw
  state : Arg Bytes
  manifest : Arg (Manifest P)
  masterSecret : Arg Bytes
  epochId : Arg Int
  context : Arg Bytes
  sealCount : Option (Arg Int)

def SealCall.run (c : SealCall P) : Py Bytes :=
  sealState P c.draw c.state c.manifest c.masterSecret c.epochId c.context c.sealCount

/-- A call of `seal_state_chunked`. -/
structure ChunkedCall (P : Platform) where
  draw : StreamDraw
  state : Arg Bytes
  manifest : Arg (Manifest P)
  masterSecret : Arg Bytes
  epochId : Arg Int
  context : Arg Bytes
  segmentSize : Arg Int

def ChunkedCall.run (c : ChunkedCall P) : Py Bytes :=
  sealStateChunked P c.draw c.state c.manifest c.masterSecret c.epochId c.context c.segmentSize

/-- A call of either entry point. -/
inductive Call (P : Platform)
  | direct (c : SealCall P)
  | chunked (c : ChunkedCall P)

def Call.run : Call P → Py Bytes
  | .direct c => c.run
  | .chunked c => c.run

/-- What a history records. -/
def historyLog (calls : List (Call P)) : List Event := calls.flatMap fun c => c.run.log

theorem log_subset_historyLog {calls : List (Call P)} {c : Call P} (hc : c ∈ calls) :
    c.run.log ⊆ historyLog calls :=
  fun _ he => List.mem_flatMap.mpr ⟨c, hc, he⟩

/-! ## 2. The seals behind a call -/

/-- The call reaches the cipher: its arguments present `b` and the state `S`. -/
structure SealCall.Performs (c : SealCall P) (b : Binding) (S : Bytes) : Prop where
  presented : b.PresentedBy c.manifest c.masterSecret c.epochId c.context
  state : c.state = .of S
  state_le : S.length ≤ MAX_STATE
  sealCount : checkSealCount c.sealCount = .ok ()

/-- The call reaches its loop: its arguments present `B`, the state `S` and the segment size
`C`. -/
structure ChunkedCall.Performs (c : ChunkedCall P) (B : StreamBinding) (S : Bytes) (C : Nat) :
    Prop where
  presented : B.PresentedBy c.manifest c.masterSecret c.epochId c.context
  state : c.state = .of S
  segmentSize : c.segmentSize = .of (C : Int)
  state_lt : S.length < 2 ^ 64
  pos : 0 < C
  cap : C ≤ MAX_STATE

/-- The header such a call writes. -/
def ChunkedCall.Performs.header {c : ChunkedCall P} {B : StreamBinding} {S : Bytes} {C : Nat}
    (h : c.Performs B S C) : StreamHeader :=
  streamHeader c.draw h.state_lt h.pos h.cap

/-- **The seals behind a call**: the binding, the draw and the plaintext of each. -/
inductive Call.Seals : Call P → Binding → Draw → Bytes → Prop
  | direct {c : SealCall P} {b : Binding} {S : Bytes} (h : c.Performs b S) :
      Call.Seals (.direct c) b c.draw S
  | segment {c : ChunkedCall P} {B : StreamBinding} {S : Bytes} {C : Nat}
      (h : c.Performs B S C) {i : Nat} {s : Bytes} (hs : (segmentStates S C)[i]? = some s) :
      Call.Seals (.chunked c) (B.segment h.header i) (c.draw.segment i) s

/-- No seal is of more than the cap. -/
theorem Call.Seals.length_le {c : Call P} {b : Binding} {draw : Draw} {S : Bytes}
    (h : c.Seals b draw S) : S.length ≤ MAX_STATE := by
  cases h with
  | direct h => exact h.state_le
  | segment h hs =>
    rw [(length_of_segmentStates h.pos hs).2]
    exact (Nat.min_le_left _ _).trans h.cap

/-! ## 3. What one call does -/

theorem SealCall.Performs.run_eq {c : SealCall P} {b : Binding} {S : Bytes}
    (h : c.Performs b S) :
    c.run = ⟨b.sealLog P c.draw S, frame (b.header P c.draw) (b.ciphertext P c.draw S)⟩ := by
  rw [SealCall.run, h.state]
  exact sealState_eq h.presented h.state_le h.sealCount

theorem ChunkedCall.Performs.run_eq {c : ChunkedCall P} {B : StreamBinding} {S : Bytes} {C : Nat}
    (h : c.Performs B S C) :
    c.run = B.sealStream P h.header c.draw (segmentStates S C) := by
  rw [ChunkedCall.run, h.state, h.segmentSize]
  exact sealStateChunked_eq h.presented h.state_lt h.pos h.cap

/-- The seal of a direct call is its own. -/
theorem Call.Seals.performs {c : SealCall P} {b : Binding} {draw : Draw} {S : Bytes}
    (h : (Call.direct c).Seals b draw S) : c.Performs b S ∧ c.draw = draw := by
  cases h with
  | direct h => exact ⟨h, rfl⟩

/-- **Everything a direct call can do.** -/
theorem SealCall.run_cases (c : SealCall P) :
    (∃ e, c.run = .fail e) ∨ ∃ b S, c.Performs b S := by
  rcases sealState_cases c.draw c.state c.manifest c.masterSecret c.epochId c.context c.sealCount
    with hfail | ⟨b, S, hb, hstate, hS, hcount⟩
  · exact .inl hfail
  · exact .inr ⟨b, S, hb, hstate, hS, hcount⟩

/-- **Everything a chunked call can do.** -/
theorem ChunkedCall.run_cases (c : ChunkedCall P) :
    (∃ log e, c.run = ⟨log, .error e⟩ ∧ log ⊆ [.streamId c.draw.streamId]) ∨
      ∃ B S C, c.Performs B S C := by
  rcases sealStateChunked_cases c.draw c.state c.manifest c.masterSecret c.epochId c.context
    c.segmentSize with hfail | ⟨B, S, C, hS, hC, hcap, hB, hstate, hsize⟩
  · exact .inl hfail
  · exact .inr ⟨B, S, C, hB, hstate, hsize, hS, hC, hcap⟩

/-- The stream id of a call that reached its loop is in the log. -/
theorem ChunkedCall.Performs.streamId_mem {c : ChunkedCall P} {B : StreamBinding} {S : Bytes}
    {C : Nat} (h : c.Performs B S C) : c.draw.streamId ∈ streamIds c.run.log := by
  rw [h.run_eq, StreamBinding.log_sealStream]
  exact List.mem_cons_self

/-- A chunked call that returned something reached its loop. -/
theorem ChunkedCall.performs_of_ok {c : ChunkedCall P} {X : Bytes} (h : c.run.result = .ok X) :
    ∃ B S C, c.Performs B S C := by
  rcases c.run_cases with ⟨log, e, hfail, -⟩ | hperforms
  · rw [hfail] at h
    exact absurd h (by simp)
  · exact hperforms

/-- A direct call that returned something reached the cipher, and returned its envelope. -/
theorem SealCall.performs_of_ok {c : SealCall P} {X : Bytes} (h : c.run.result = .ok X) :
    ∃ b S, c.Performs b S ∧ X = b.sealed P c.draw S := by
  rcases c.run_cases with ⟨e, hfail⟩ | ⟨b, S, hperforms⟩
  · rw [hfail] at h
    exact absurd h (by simp)
  · rw [hperforms.run_eq] at h
    exact ⟨b, S, hperforms, (frame_eq_ok.mp h).2.symm⟩

/-- **The seals a call carried out**: those whose derivation and encryption it recorded.  The
loop of a chunked call may have stopped before the others. -/
structure Call.CarriesOut (c : Call P) (b : Binding) (draw : Draw) (S : Bytes) : Prop where
  seals : c.Seals b draw S
  recorded : b.sealLog P draw S ⊆ c.run.log

theorem SealCall.Performs.carriesOut {c : SealCall P} {b : Binding} {S : Bytes}
    (h : c.Performs b S) : (Call.direct c).CarriesOut b c.draw S := by
  refine ⟨.direct h, ?_⟩
  rw [Call.run, h.run_eq]
  exact List.Subset.refl _

/-- **Every encryption of a call is that of a seal it carried out.** -/
theorem Call.encryption_carriedOut {c : Call P} {e : Encryption} (he : .encrypt e ∈ c.run.log) :
    ∃ b draw S, c.CarriesOut b draw S ∧ e = b.encryption P draw S := by
  have hseal : ∀ {b : Binding} {draw : Draw} {S : Bytes},
      .encrypt e ∈ b.sealLog P draw S → e = b.encryption P draw S := by
    intro b draw S h
    simpa [Binding.sealLog, Binding.deriveLog] using h
  cases c with
  | direct c =>
    rcases c.run_cases with ⟨err, hfail⟩ | ⟨b, S, hperforms⟩
    · rw [Call.run, hfail] at he
      exact absurd he (by simp)
    · rw [Call.run, hperforms.run_eq] at he
      exact ⟨b, c.draw, S, hperforms.carriesOut, hseal he⟩
  | chunked c =>
    rcases c.run_cases with ⟨log, err, hfail, hlog⟩ | ⟨B, S, C, hperforms⟩
    · rw [Call.run, hfail] at he
      exact absurd (hlog he) (by simp)
    · rw [Call.run, hperforms.run_eq] at he
      rcases StreamBinding.mem_log_sealStream he with hid | ⟨i, s, hs, he, hsub⟩
      · exact absurd hid (by simp)
      · refine ⟨_, _, s, ⟨.segment hperforms hs, ?_⟩, hseal he⟩
        rw [Call.run, hperforms.run_eq]
        exact hsub

/-! ## 4. What a history does -/

/-- **Every encryption of a history is that of a seal one of its calls carried out.** -/
theorem encryption_carriedOut {calls : List (Call P)} {e : Encryption}
    (he : e ∈ encryptions (historyLog calls)) :
    ∃ c ∈ calls, ∃ b draw S, c.CarriesOut b draw S ∧ e = b.encryption P draw S := by
  obtain ⟨c, hc, he⟩ := List.mem_flatMap.mp (mem_encryptions.mp he)
  exact ⟨c, hc, c.encryption_carriedOut he⟩

/-- The history has recorded the derivation of such a seal. -/
theorem Call.CarriesOut.derivedIn {calls : List (Call P)} {c : Call P} (hc : c ∈ calls)
    {b : Binding} {draw : Draw} {S : Bytes} (h : c.CarriesOut b draw S) :
    b.DerivedIn P draw.salt (historyLog calls) := fun _ hx =>
  log_subset_historyLog hc (h.recorded (List.mem_append_left _ hx))

theorem streamIds_historyLog (calls : List (Call P)) :
    streamIds (historyLog calls) = calls.flatMap fun c => streamIds c.run.log :=
  List.filterMap_flatMap

/-- Sublists without a repetition in common do not share an element. -/
theorem eq_of_mem_of_nodup_flatMap {α β : Type} {f : α → List β} {l : List α}
    (h : (l.flatMap f).Nodup) {k k' : Nat} {a a' : α} {x : β} (hk : l[k]? = some a)
    (hk' : l[k']? = some a') (hx : x ∈ f a) (hx' : x ∈ f a') : k = k' := by
  have hpair := List.pairwise_iff_getElem.mp (List.nodup_flatMap.mp h).2
  obtain ⟨hlt, rfl⟩ := List.getElem?_eq_some_iff.mp hk
  obtain ⟨hlt', rfl⟩ := List.getElem?_eq_some_iff.mp hk'
  rcases Nat.lt_trichotomy k k' with hkk | hkk | hkk
  · exact absurd hx' (hpair k k' hlt hlt' hkk hx)
  · exact hkk
  · exact absurd hx (hpair k' k hlt' hlt hkk hx')

/-- **A stream id names a call**, the ids drawn being distinct. -/
theorem eq_of_streamId {calls : List (Call P)} (h : (streamIds (historyLog calls)).Nodup)
    {k k' : Nat} {c c' : Call P} (hk : calls[k]? = some c) (hk' : calls[k']? = some c')
    {sid : Bytes} (hs : sid ∈ streamIds c.run.log) (hs' : sid ∈ streamIds c'.run.log) : k = k' :=
  eq_of_mem_of_nodup_flatMap (streamIds_historyLog calls ▸ h) hk hk' hs hs'

end Sce
