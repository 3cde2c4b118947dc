/-
# The fuzz target finds nothing

`TestOneInput` of `fuzz/fuzz_envelope.py` hands arbitrary bytes to one of six entry points, lets
`SCEError` pass, and reports everything else: an exception of another class, or a state that does
not come back from the round trip.  The driver replays a corpus, tries generated inputs, and exits
with 1 at the first report.

Whatever the inputs are, and whatever the seals among them draw, there is no report
(`fuzz_exits_clean`).  Each entry point is called with a context of at most four bytes, so the two
chunked ones are within the bound that keeps their promise.
-/
import Sce.Carriers
import Sce.History
import Sce.StreamRaises

namespace Sce

open BigEndian Logged

variable {P : Platform}

/-! ## 1. The target -/

/-- A property violation. -/
inductive FuzzFailure
  | roundTrip (sealed recovered : Nat)
  | escaped (selector : Nat) (exc : PyExc)
  deriving DecidableEq

/-- What the body of the target raises. -/
inductive FuzzExc
  | py (exc : PyExc)
  | failure (finding : FuzzFailure)
  deriving DecidableEq

/-- `MASTER` -/
def FUZZ_MASTER : Bytes := List.replicate 32 0x11

/-- `_ENTRY_POINTS` -/
def ENTRY_POINTS : Nat := 6

section Target

variable (P) (M : Manifest P) (draw : Draw)

/-- Call an entry point and drop what it returns. -/
def callEntry {α : Type} (run : Py α) : Logged Event FuzzExc Unit := do
  let _ ← run.mapError .py
  return ()

/-- The round trip, at an epoch and a context of the fuzzer's choice. -/
def fuzzRoundTrip (payload : Bytes) : Logged Event FuzzExc Unit := do
  let epoch : Nat := if 2 ≤ payload.length then beNat (slice payload 0 2) else 0
  let ctx := slice payload 2 6
  let body := payload.drop 6
  let sealed ← (sealState P draw (.of body) (.of M) (.of FUZZ_MASTER) (.of (epoch : Int))
    (.of ctx)).mapError .py
  let out ← (unsealState P (.of (.bytes sealed)) (.of M) (.of FUZZ_MASTER) (.of (epoch : Int))
    (.of ctx)).mapError .py
  if out ≠ body then .fail (.failure (.roundTrip body.length out.length)) else return ()

/-- The body of the `try`. -/
def fuzzBody (selector : Nat) (payload : Bytes) : Logged Event FuzzExc Unit :=
  match selector with
  | 0 => callEntry (unsealState P (.of (.bytes payload)) (.of M) (.of FUZZ_MASTER))
  | 1 => callEntry (liftM (describeEnvelope (.of (.bytes payload))))
  | 2 => callEntry (liftM (explainMismatch P (.of (.bytes payload)) (.of M)))
  | 3 => callEntry (unsealStateChunked P (.of (.bytes payload)) (.of M) (.of FUZZ_MASTER))
  | 4 => callEntry (liftM (describeStream (.of (.bytes payload))))
  | 5 => fuzzRoundTrip P M draw payload
  | _ => return ()

/-- `TestOneInput` -/
def testOneInput : Bytes → Logged Event FuzzExc Unit
  | [] => return ()
  | selectorByte :: payload =>
    let selector := selectorByte.toNat % ENTRY_POINTS
    (fuzzBody P M draw selector payload).handle fun
      | .py e => if e.isSCEError then return () else .fail (.failure (.escaped selector e))
      | .failure finding => .fail (.failure finding)

end Target

/-- The loops of `main`: the exit status after these inputs. -/
def fuzzMain (P : Platform) (M : Manifest P) : List (Draw × Bytes) → Logged Event FuzzExc Nat
  | [] => return 0
  | (draw, data) :: inputs => do
    let found ← (testOneInput P M draw data >>= fun _ => return false).handle fun
      | .failure _ => return true
      | e => .fail e
    if found then return 1 else fuzzMain P M inputs

/-! ## 2. One input -/

/-- What the body may raise. -/
def Quiet (e : FuzzExc) : Prop := ∃ exc, e = .py exc ∧ LibraryError exc

theorem RaisesOnly.mapError_py {α : Type} {run : Py α} (h : RaisesOnly LibraryError run) :
    RaisesOnly Quiet (run.mapError FuzzExc.py) := by
  intro e he
  cases hrun : run.result with
  | ok a =>
    simp [Logged.mapError, hrun, Except.mapError] at he
  | error exc =>
    simp only [Logged.mapError, hrun, Except.mapError, Except.error.injEq] at he
    exact ⟨exc, he.symm, h exc hrun⟩

theorem callEntry_quiet {α : Type} {run : Py α} (h : RaisesOnly LibraryError run) :
    RaisesOnly Quiet (callEntry run) :=
  .bind (RaisesOnly.mapError_py h) fun _ _ => .pure _

theorem parse_bytes_raises (X : Bytes) : (parse (.of (.bytes X))).RaisesOnly LibraryError :=
  .bind (requireEnvelopeBytes_raises _ _) fun _ _ => parseBytes_raises _

theorem describeEnvelope_raises (X : Bytes) :
    (describeEnvelope (.of (.bytes X))).RaisesOnly LibraryError :=
  .bind (parse_bytes_raises X) fun _ _ => .bind (.ok _) fun _ _ => .pure _

theorem describeStream_raises (X : Bytes) :
    (describeStream (.of (.bytes X))).RaisesOnly LibraryError :=
  .bind (requireEnvelopeBytes_raises _ _) fun _ _ =>
    .bind (parseStreamHeader_raises _) fun _ _ => .bind (.ok _) fun _ _ => .pure _

theorem explainMismatch_raises (X : Bytes) (M : Manifest P) :
    (explainMismatch P (.of (.bytes X)) (.of M)).RaisesOnly LibraryError := by
  refine .bind (requireManifest_raises _) fun M _ => ?_
  intro e he
  split at he
  · exact nomatch he
  · rename_i exc _ hparse
    obtain rfl := Except.error.inj he
    exact parse_bytes_raises X _ hparse
  · exact nomatch he

/-- What a seal returned opens to the state that was sealed. -/
theorem unseal_of_sealed (hcorrect : P.AeadCorrect) (htag : P.AeadTag) {draw : Draw}
    {S X : Bytes} {manifest : Arg (Manifest P)} {masterSecret : Arg Bytes} {epochId : Arg Int}
    {context : Arg Bytes} {sealCount : Option (Arg Int)}
    (h : (sealState P draw (.of S) manifest masterSecret epochId context sealCount).result
      = .ok X) :
    (unsealState P (.of (.bytes X)) manifest masterSecret epochId context).result = .ok S := by
  obtain ⟨b, S', hperforms, rfl⟩ := SealCall.performs_of_ok (c := ⟨draw, .of S, manifest,
    masterSecret, epochId, context, sealCount⟩) h
  obtain rfl : S = S' := Arg.of.inj hperforms.state
  have hS : S.length ≤ MAX_STATE := hperforms.state_le
  exact (unsealState_eq_ok hperforms.presented).mpr
    ⟨b.envelope htag draw hS, (b.envelope_bytes htag draw hS).symm,
      b.envelope_opens hcorrect htag draw hS⟩

theorem ok_of_mapError {α : Type} {run : Py α} {a : α}
    (h : (run.mapError FuzzExc.py).result = .ok a) : run.result = .ok a := by
  cases hrun : run.result with
  | ok b =>
    simpa [Logged.mapError, hrun, Except.mapError] using h
  | error e => simp [Logged.mapError, hrun, Except.mapError] at h

/-- The round trip raises a library error or comes back. -/
theorem fuzzRoundTrip_quiet (hcorrect : P.AeadCorrect) (htag : P.AeadTag) (M : Manifest P)
    (draw : Draw) (payload : Bytes) : RaisesOnly Quiet (fuzzRoundTrip P M draw payload) := by
  refine .bind (RaisesOnly.mapError_py (sealState_raises htag _ _ _ _ _ _ _)) fun X hX => ?_
  refine .bind (RaisesOnly.mapError_py (unsealState_raises _ _ _ _ _)) fun out hout => ?_
  have hopen := unseal_of_sealed hcorrect htag (ok_of_mapError hX)
  obtain rfl := Except.ok.inj (hopen.symm.trans (ok_of_mapError hout))
  rw [if_neg (by simp)]
  exact .pure _

/-- So is every branch of the target. -/
theorem fuzzBody_quiet (hcorrect : P.AeadCorrect) (htag : P.AeadTag) (M : Manifest P)
    (draw : Draw) (selector : Nat) (payload : Bytes) :
    RaisesOnly Quiet (fuzzBody P M draw selector payload) := by
  unfold fuzzBody
  split
  · exact callEntry_quiet (unsealState_raises _ _ _ _ _)
  · exact callEntry_quiet (.lift (describeEnvelope_raises _))
  · exact callEntry_quiet (.lift (explainMismatch_raises _ _))
  · exact callEntry_quiet ((unsealStateChunked_raises_iff _ _ _ _ _).mpr (.inl (by decide)))
  · exact callEntry_quiet (.lift (describeStream_raises _))
  · exact fuzzRoundTrip_quiet hcorrect htag M draw payload
  · exact .pure _

/-- **One input, one silence.** -/
theorem testOneInput_quiet (hcorrect : P.AeadCorrect) (htag : P.AeadTag) (M : Manifest P)
    (draw : Draw) (data : Bytes) : (testOneInput P M draw data).result = .ok () := by
  cases data with
  | nil => rfl
  | cons selectorByte payload =>
    have hquiet := fuzzBody_quiet hcorrect htag M draw (selectorByte.toNat % ENTRY_POINTS) payload
    unfold testOneInput Logged.handle
    cases hbody : (fuzzBody P M draw (selectorByte.toNat % ENTRY_POINTS) payload).result with
    | ok u => simp [hbody]
    | error e =>
      obtain ⟨exc, rfl, hexc⟩ := hquiet e hbody
      have hexc : exc.isSCEError = true := hexc
      simp [hbody, hexc]

/-! ## 3. A whole run -/

/-- **The driver exits with 0**, whatever its corpus, whatever it generates, and whatever is drawn
while it runs. -/
theorem fuzz_exits_clean (hcorrect : P.AeadCorrect) (htag : P.AeadTag) (M : Manifest P)
    (inputs : List (Draw × Bytes)) : (fuzzMain P M inputs).result = .ok 0 := by
  induction inputs with
  | nil => rfl
  | cons input inputs ih =>
    obtain ⟨draw, data⟩ := input
    have hquiet := testOneInput_quiet hcorrect htag M draw data
    have hfound : ((testOneInput P M draw data >>= fun _ => return false).handle fun
        | .failure _ => return true
        | e => .fail e : Logged Event FuzzExc Bool).result = .ok false := by
      unfold Logged.handle
      rw [Logged.bind_of_ok hquiet]
      rfl
    rw [fuzzMain, Logged.result_bind_eq_ok]
    exact ⟨false, hfound, ih⟩

/-- Nothing, an envelope behind each selector, and a round trip. -/
theorem toyInputs_clean :
    (fuzzMain toy toyManifest ((toyDraw, []) :: (List.range 256).map fun selector =>
      (toyDraw, UInt8.ofNat selector :: toyEnvelope))).result = .ok 0 :=
  fuzz_exits_clean toy_aeadExact.correct toy_aeadTag toyManifest _

end Sce
