/-
# Where a state resumed from comes from

A history of requests is a list of `ChatCall`, whoever sent them, to whatever servers under
whatever manifests.  This file says what such a history records and seals, and what follows of
the states its models are run on.

* `IdealRun` is what is assumed: the hashes do not collide on what was hashed, and a ciphertext
  that opens was made earlier.
* `resumed_from_earlier`: a request that resumes from a state does so from the one an earlier
  request ended in, at a server with the same secret and under the same fingerprint.
* `prior_invariant`: so a property of states that the model keeps holds of every state it is run
  on, although each of them was out of the servers' hands in between.
-/
import Sce.Authenticity
import Sce.ServingSpec

namespace Sce

variable {P : Platform}

/-! ## 1. The cipher along a run -/

namespace Platform

/-- **Authenticity along a log**: a decryption that succeeds is of a ciphertext that an
encryption before it produced. -/
def AuthenticSince (P : Platform) : (past log : List Event) → Prop
  | _, [] => True
  | past, e :: log => P.AeadAuthentic past [e] ∧ P.AuthenticSince (past ++ [e]) log

instance AuthenticSince.decidable (P : Platform) :
    (past log : List Event) → Decidable (P.AuthenticSince past log)
  | _, [] => inferInstanceAs (Decidable True)
  | past, e :: log =>
    have := AuthenticSince.decidable P (past ++ [e]) log
    inferInstanceAs (Decidable (P.AeadAuthentic past [e] ∧ P.AuthenticSince (past ++ [e]) log))

theorem AuthenticSince.append {log' : List Event} : ∀ {log past : List Event},
    P.AuthenticSince past (log ++ log') →
      P.AuthenticSince past log ∧ P.AuthenticSince (past ++ log) log' := by
  intro log
  induction log with
  | nil =>
    intro past h
    exact ⟨trivial, by simpa using h⟩
  | cons e log ih =>
    intro past h
    obtain ⟨hlog, hlog'⟩ := ih h.2
    exact ⟨⟨h.1, hlog⟩, by simpa using hlog'⟩

/-- Seen from its end. -/
theorem AuthenticSince.authentic : ∀ {log past : List Event}, P.AuthenticSince past log →
    P.AeadAuthentic (past ++ log) log := by
  intro log
  induction log with
  | nil =>
    intro past _ d hd
    exact absurd hd (by simp [decryptions])
  | cons e log ih =>
    intro past h d hd hsome
    have hmono : ∀ {e' : Encryption}, e' ∈ encryptions past →
        e' ∈ encryptions (past ++ e :: log) := by
      intro e' he'
      rw [mem_encryptions] at he' ⊢
      exact List.mem_append_left _ he'
    rcases List.mem_cons.mp (mem_decryptions.mp hd) with rfl | hlog
    · obtain ⟨e', he', hmatch⟩ := h.1 d (by simp) hsome
      exact ⟨e', hmono he', hmatch⟩
    · obtain ⟨e', he', hmatch⟩ := ih h.2 d (mem_decryptions.mpr hlog) hsome
      exact ⟨e', by simpa using he', hmatch⟩

/-- **The libraries behave ideally** throughout the events of a run. -/
structure IdealRun (P : Platform) (log : List Event) : Prop where
  correct : P.AeadCorrect
  authentic : P.AuthenticSince [] log
  sha3 : P.Sha3CollisionFree log
  hkdf : P.HkdfCollisionFree log

end Platform

/-! ## 2. Histories of requests -/

/-- What a history of requests records. -/
def chatLog (model : Model) (calls : List (ChatCall P)) : List Event :=
  calls.flatMap fun c => (c.run model).log

/-- The seals of a history of requests. -/
def chatSeals (model : Model) (calls : List (ChatCall P)) : List (Call P) :=
  calls.flatMap fun c => (c.seals model).map .direct

theorem mem_chatSeals {model : Model} {calls : List (ChatCall P)} {call : Call P} :
    call ∈ chatSeals model calls ↔
      ∃ c ∈ calls, ∃ sealing ∈ c.seals model, Call.direct sealing = call := by
  simp [chatSeals]

theorem historyLog_chatSeals_subset (model : Model) (calls : List (ChatCall P)) :
    historyLog (chatSeals model calls) ⊆ chatLog model calls := by
  intro e he
  obtain ⟨call, hcall, he⟩ := List.mem_flatMap.mp he
  obtain ⟨c, hc, hcall⟩ := List.mem_flatMap.mp hcall
  refine List.mem_flatMap.mpr ⟨c, hc, ?_⟩
  rw [c.log_run model]
  exact List.mem_append_right _ (List.mem_flatMap.mpr ⟨call, hcall, he⟩)

/-- Resuming encrypts nothing. -/
theorem ChatCall.encrypt_not_mem_resumed (c : ChatCall P) (e : Encryption) :
    .encrypt e ∉ c.resumed.log := by
  have hunseal : ∀ V : Envelope, .encrypt e ∉ c.server.binding.unsealLog P V := by
    intro V he
    simp [Binding.unsealLog, Binding.deriveLog] at he
  intro he
  rw [ChatCall.resumed] at he
  rcases c.server.resume_cases c.request.continuation with hnone | ⟨text, htext, hne, hcases⟩
  · rw [Server.resume_of_none hnone] at he
    exact absurd he (by simp)
  · rw [htext] at he
    rcases hcases with ⟨err, herr⟩ | ⟨X, message, hX, hmessage⟩ | ⟨V, hV, ⟨p, hp⟩ | hrefused⟩
    · rw [Server.resume_of_error hne herr] at he
      exact absurd he (by simp)
    · rw [Server.resume_of_malformed hne hX hmessage] at he
      exact absurd he (by simp)
    · rw [Server.resume_of_opens hne hV hp] at he
      exact hunseal V he
    · rw [Server.resume_of_refused hne hV hrefused] at he
      exact hunseal V he

/-- Every encryption of a history is one of its seals. -/
theorem encryptions_chatLog {model : Model} {calls : List (ChatCall P)} {e : Encryption}
    (he : e ∈ encryptions (chatLog model calls)) :
    e ∈ encryptions (historyLog (chatSeals model calls)) := by
  rw [mem_encryptions] at he ⊢
  obtain ⟨c, hc, he⟩ := List.mem_flatMap.mp he
  rw [c.log_run model] at he
  rcases List.mem_append.mp he with hresumed | hseals
  · exact absurd hresumed (c.encrypt_not_mem_resumed e)
  · obtain ⟨call, hcall, he⟩ := List.mem_flatMap.mp hseals
    exact List.mem_flatMap.mpr ⟨call, List.mem_flatMap.mpr ⟨c, hc, hcall⟩, he⟩

/-- **What a request may rely on** in an ideal history: the seals before it, and what it
opens. -/
theorem Platform.IdealRun.request {model : Model} {past rest : List (ChatCall P)}
    {c : ChatCall P} (h : P.IdealRun (chatLog model (past ++ c :: rest))) :
    P.Ideal (historyLog (chatSeals model past)) c.resumed.log := by
  have hlog : chatLog model (past ++ c :: rest) = chatLog model past ++
      (c.resumed.log ++ (historyLog ((c.seals model).map .direct) ++ chatLog model rest)) := by
    rw [← List.append_assoc c.resumed.log, ← c.log_run model]
    simp [chatLog]
  have hsub : historyLog (chatSeals model past) ++ c.resumed.log
      ⊆ chatLog model (past ++ c :: rest) := by
    rw [hlog]
    refine List.append_subset.mpr ⟨?_, ?_⟩
    · exact List.Subset.trans (historyLog_chatSeals_subset model past)
        (List.subset_append_left _ _)
    · exact List.Subset.trans (List.subset_append_left _ _) (List.subset_append_right _ _)
  refine ⟨h.correct, ?_, ?_, ?_⟩
  · have hauthentic := h.authentic
    rw [hlog] at hauthentic
    have hresumed := hauthentic.append.2.append.1.authentic
    intro d hd hsome
    obtain ⟨e, he, hmatch⟩ := hresumed d hd hsome
    refine ⟨e, encryptions_chatLog ?_, hmatch⟩
    rw [mem_encryptions, List.nil_append, List.mem_append] at he
    exact mem_encryptions.mpr (he.resolve_right (c.encrypt_not_mem_resumed e))
  · exact h.sha3.mono fun x hx => mem_sha3Inputs.mpr (hsub (mem_sha3Inputs.mp hx))
  · exact h.hkdf.mono fun x hx => mem_hkdfInputs.mpr (hsub (mem_hkdfInputs.mp hx))

/-! ## 3. Provenance -/

/-- The seal of a request that sealed something is of what its model returned. -/
theorem ChatCall.mem_seals {model : Model} {c : ChatCall P} {sealing : SealCall P}
    (h : sealing ∈ c.seals model) : ∃ prior reply newState,
      c.resumed.result = .ok (.ok prior) ∧
        model c.request.message prior = .ok (reply, newState) ∧
        sealing = c.server.sealCall c.draw newState := by
  cases hresumed : c.resumed.result with
  | error e =>
    rw [ChatCall.seals, hresumed] at h
    exact absurd h (by simp)
  | ok resumed =>
  cases resumed with
  | error warning =>
    rw [ChatCall.seals, hresumed] at h
    exact absurd h (by simp)
  | ok prior =>
    rw [ChatCall.seals_of_prior hresumed] at h
    cases hmodel : model c.request.message prior with
    | error e =>
      rw [hmodel] at h
      exact absurd h (by simp)
    | ok out =>
      rw [hmodel] at h
      exact ⟨prior, out.1, out.2, rfl, hmodel, List.mem_singleton.mp h⟩

/-- **Where a state comes from.**  A request that resumes carries nothing, or carries what an
earlier request of the history was answered with: by a server with the same secret, under the
same fingerprint, when the model had ended in just that state. -/
theorem resumed_from_earlier {model : Model} {past rest : List (ChatCall P)} {c : ChatCall P}
    {prior : Bytes} (hideal : P.IdealRun (chatLog model (past ++ c :: rest)))
    (hresumed : c.resumed.result = .ok (.ok prior)) :
    (Server.NoContinuation c.request.continuation ∧ prior = []) ∨
      ∃ c' ∈ past, ∃ (text : PyStr) (X prior' : Bytes) (reply : PyStr),
        c.request.continuation = some text ∧ b64decode text = .ok X ∧
          c'.resumed.result = .ok (.ok prior') ∧
          model c'.request.message prior' = .ok (reply, prior) ∧
          c'.response model = .ok (.reply reply (b64encode X)) ∧
          c'.server.masterSecret = c.server.masterSecret ∧
          c'.server.manifest.memh = c.server.manifest.memh := by
  rcases Server.resume_eq_ok hresumed with hnone | ⟨text, V, htext, -, hV, hopens, hlog⟩
  · exact .inl hnone
  have hrequest := hideal.request
  have hunseal : c.server.binding.unsealLog P V ⊆ c.resumed.log := by
    rw [ChatCall.resumed, hlog]
    exact List.Subset.refl _
  obtain ⟨call, hcall, hcarries, hciphertext⟩ := hopens.sealed hrequest hunseal
  obtain ⟨c', hc', sealing, hsealing, rfl⟩ := mem_chatSeals.mp hcall
  obtain ⟨prior', reply, newState, hresumed', hmodel, rfl⟩ := ChatCall.mem_seals hsealing
  obtain ⟨hperforms, hdraw⟩ := hcarries.seals.performs
  obtain rfl : newState = prior := Arg.of.inj hperforms.state
  -- the two servers present one binding
  have hbinding := hperforms.presented.unique c'.server.binding_presentedBy
  have hsealed : (c'.server.sealNew c'.draw newState).result = .ok V.bytes := by
    rw [← Server.sealCall_run, hperforms.run_eq, frame_eq_ok]
    have hd : (c'.server.sealCall c'.draw newState).draw = V.toDraw := hdraw
    rw [hd, ← hciphertext, hopens.bytes_eq_sealed hciphertext, Binding.sealed, hciphertext]
    exact ⟨hciphertext ▸ V.ciphertext_lt, rfl⟩
  refine .inr ⟨c', hc', text, V.bytes, prior', reply, htext, hV, hresumed', hmodel, ?_,
    (congrArg Binding.masterSecret hbinding).symm,
    (congrArg (fun b : Binding => b.memh) hbinding).symm⟩
  rw [ChatCall.response_of_prior hresumed', hmodel]
  simp only [hsealed]

/-- What the first was answered with comes back, then altered, then cut short. -/
def toyHistory : List (ChatCall toy) :=
  [toyFirst, toyCarrying toyToken 0x23, toyCarrying (toyToken.dropLast ++ [0x00]) 0x24,
    toyCarrying [0x00] 0x25]

theorem toyHistory_ideal : toy.IdealRun (chatLog runModel toyHistory) := by
  refine ⟨toy_aeadExact.correct, ?_, ?_, ?_⟩
  · decide +kernel
  · decide +kernel
  · decide +kernel

theorem toyCarrying_resumed :
    (toyCarrying toyToken 0x23).resumed.result = .ok (.ok toyState) := by decide +kernel

/-- The second request of that history resumes from the first. -/
theorem toyCarrying_from_earlier :
    (Server.NoContinuation (toyCarrying toyToken 0x23).request.continuation ∧ toyState = []) ∨
      ∃ c' ∈ [toyFirst], ∃ (text : PyStr) (X prior' : Bytes) (reply : PyStr),
        (toyCarrying toyToken 0x23).request.continuation = some text ∧ b64decode text = .ok X ∧
          c'.resumed.result = .ok (.ok prior') ∧
          runModel c'.request.message prior' = .ok (reply, toyState) ∧
          c'.response runModel = .ok (.reply reply (b64encode X)) ∧
          c'.server.masterSecret = (toyCarrying toyToken 0x23).server.masterSecret ∧
          c'.server.manifest.memh = (toyCarrying toyToken 0x23).server.manifest.memh :=
  have hideal : toy.IdealRun (chatLog runModel ([toyFirst] ++ toyCarrying toyToken 0x23 ::
      [toyCarrying (toyToken.dropLast ++ [0x00]) 0x24, toyCarrying [0x00] 0x25])) :=
    toyHistory_ideal
  resumed_from_earlier hideal toyCarrying_resumed

/-- **A property of states survives its time out of the servers' hands.**  If the empty state has
it and the model keeps it, every state a model is run on in an ideal history has it, whatever the
requests carry. -/
theorem prior_invariant {model : Model} {Inv : Bytes → Prop} (hempty : Inv [])
    (hmodel : ∀ message prior reply newState, Inv prior →
      model message prior = .ok (reply, newState) → Inv newState)
    {calls : List (ChatCall P)} (hideal : P.IdealRun (chatLog model calls)) {c : ChatCall P}
    (hc : c ∈ calls) {prior : Bytes} (hresumed : c.resumed.result = .ok (.ok prior)) :
    Inv prior := by
  -- by strong induction on how many requests were sent before
  have hpast : ∀ (n : Nat) (past rest : List (ChatCall P)) (c : ChatCall P) (prior : Bytes),
      past.length = n → calls = past ++ c :: rest → c.resumed.result = .ok (.ok prior) →
      Inv prior := by
    intro n
    induction n using Nat.strong_induction_on with
    | _ n ih =>
      rintro past rest c prior rfl hcalls hresumed
      rw [hcalls] at hideal
      rcases resumed_from_earlier hideal hresumed with ⟨-, rfl⟩ |
        ⟨c', hc', _, _, prior', reply, -, -, hresumed', hreturned, -⟩
      · exact hempty
      · obtain ⟨before, between, rfl⟩ := List.append_of_mem hc'
        refine hmodel _ _ _ _ (ih before.length ?_ before (between ++ c :: rest) c' prior' rfl ?_
          hresumed') hreturned
        · simp
        · rw [hcalls]
          simp
  obtain ⟨past, rest, hcalls⟩ := List.append_of_mem hc
  exact hpast _ past rest c prior rfl hcalls hresumed

/-! ## 4. The adapter's model -/

/-- A state the adapter's model can read. -/
def Readable (state : Bytes) : Prop := ∃ history, readState state = .ok history

theorem readable_nil : Readable [] := ⟨[], rfl⟩

/-- **What it does with a message**: it reads a history, extends it, and leaves it to be read. -/
theorem runModel_ok {message reply : PyStr} {prior newState : Bytes}
    (h : runModel message prior = .ok (reply, newState)) :
    ∃ history, readState prior = .ok history ∧ reply = (extendHistory message history).1 ∧
      readState newState = .ok (extendHistory message history).2 := by
  obtain ⟨history, hread, hrest⟩ := Except.bind_eq_ok.mp h
  obtain ⟨state, hstate, hreturn⟩ := Except.bind_eq_ok.mp hrest
  obtain ⟨hreply, rfl⟩ := Prod.mk.inj (Except.pure_eq_ok.mp hreturn)
  refine ⟨history, hread, hreply.symm, ?_⟩
  cases hencode : encodeUtf8 (extendHistory message history).2 with
  | error e =>
    rw [hencode] at hstate
    exact absurd hstate (by simp [Except.mapError])
  | ok b =>
    rw [hencode] at hstate
    obtain rfl := Except.ok.inj hstate
    have hdecode := decodeUtf8_of_encode hencode
    by_cases hb : b = []
    · subst hb
      exact hdecode
    · exact (if_neg hb).trans hdecode

/-- **It leaves states it can read.** -/
theorem runModel_readable {message reply : PyStr} {prior newState : Bytes}
    (h : runModel message prior = .ok (reply, newState)) : Readable newState := by
  obtain ⟨history, -, -, hread⟩ := runModel_ok h
  exact ⟨_, hread⟩

/-- All it can raise on a state it can read. -/
theorem runModel_error {message : PyStr} {prior : Bytes} (hprior : Readable prior)
    {e : ServerExc} (h : runModel message prior = .error e) : e = .py .unicodeEncodeError := by
  obtain ⟨history, hread⟩ := hprior
  rcases Except.bind_eq_error.mp h with hfail | ⟨history', -, hrest⟩
  · rw [hread] at hfail
    exact absurd hfail (by simp)
  rcases Except.bind_eq_error.mp hrest with hfail | ⟨state, -, hreturn⟩
  · unfold encodeUtf8 at hfail
    split at hfail
    · exact (Except.error.inj hfail).symm
    · exact absurd hfail (by simp [Except.mapError])
  · exact absurd hreturn (by simp [pure, Except.pure])

/-- The state it resumes from is one the model can read. -/
theorem toyState_readable : Readable toyState :=
  prior_invariant readable_nil (fun _ _ _ _ _ hreturned => runModel_readable hreturned)
    toyHistory_ideal (by simp [toyHistory]) toyCarrying_resumed

/-- What the adapter's `chat` can raise. -/
inductive ChatRaises : ServerExc → Prop
  | valueError : ChatRaises .valueError
  | binasciiError (e : Base64.DecodeError) : ChatRaises (.binasciiError e)
  | malformedEnvelope (message : String) : ChatRaises (.py (.malformedEnvelope message))
  | unicodeEncodeError : ChatRaises (.py .unicodeEncodeError)
  | sceError (message : String) : ChatRaises (.py (.sceError message))

theorem refusalOf_raises {text : PyStr} {e : ServerExc} (h : refusalOf text = .error e) :
    ChatRaises e := by
  rcases Except.bind_eq_error.mp h with hdecode | ⟨X, -, hrest⟩
  · unfold b64decode at hdecode
    split at hdecode
    · cases hbase : Base64.decode (text.map fun c => UInt8.ofNat c.val) with
      | error d =>
        rw [hbase] at hdecode
        obtain rfl := Except.error.inj hdecode
        exact .binasciiError d
      | ok b =>
        rw [hbase] at hdecode
        exact absurd hdecode (by simp [Except.mapError])
    · obtain rfl := Except.error.inj hdecode
      exact .valueError
  rcases Except.bind_eq_error.mp hrest with hparse | ⟨p, -, hreturn⟩
  · rcases parseBytes_cases X with ⟨message, hmessage⟩ | ⟨V, rfl⟩
    · rw [hmessage] at hparse
      obtain rfl := Except.error.inj hparse
      exact .malformedEnvelope message
    · rw [parseBytes_bytes] at hparse
      exact absurd hparse (by simp [Except.mapError])
  · exact absurd hreturn (by simp [pure, Except.pure])

/-- **All the adapter's `chat` can raise**, in any ideal history and whatever it is sent.  A
refused state is not among it, nor is a state the model cannot read. -/
theorem chat_raises (htag : P.AeadTag) {calls : List (ChatCall P)}
    (hideal : P.IdealRun (chatLog runModel calls)) {c : ChatCall P} (hc : c ∈ calls)
    {e : ServerExc} (h : c.response runModel = .error e) : ChatRaises e := by
  rcases c.resumes_or_refusal runModel with ⟨prior, hresumed⟩ | ⟨text, -, hrefusal⟩
  · have hprior : Readable prior := prior_invariant readable_nil
      (fun _ _ _ _ _ hreturned => runModel_readable hreturned) hideal hc hresumed
    rw [ChatCall.response_of_prior hresumed] at h
    cases hmodel : runModel c.request.message prior with
    | error err =>
      rw [hmodel] at h
      obtain rfl := Except.error.inj h
      rw [runModel_error hprior hmodel]
      exact .unicodeEncodeError
    | ok out =>
      rw [hmodel] at h
      by_cases hle : out.2.length ≤ MAX_STATE
      · simp only [Server.sealNew_of_le htag c.draw hle] at h
        exact absurd h (by simp)
      · obtain ⟨message, -, hfail⟩ := c.server.sealNew_of_gt c.draw hle
        simp only [hfail, Logged.fail_result] at h
        obtain rfl := Except.error.inj h
        exact .sceError message
  · rw [hrefusal] at h
    exact refusalOf_raises h

/-- The last request of the history raises. -/
theorem toyCarrying_raises :
    ChatRaises (.py (.malformedEnvelope "sealed blob is shorter than the SCE header")) :=
  chat_raises toy_aeadTag toyHistory_ideal (c := toyCarrying [0x00] 0x25) (by simp [toyHistory])
    (by decide +kernel)

end Sce
