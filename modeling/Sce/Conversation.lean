/-
# Conversations go on as if they were remembered

The other side of `Vault.lean`: clients that keep what they are given and send it back, as
`Client` of the adapter does, at a server that forgets them and whose model changes under them.

* `Session` is what a server that remembers would keep of one client: the state and the
  fingerprint of the model it is of, and the transcript.  `Session.say` is a turn with that
  server.  It runs the model on the state it has, or on the replayed transcript if the model has
  changed since.  There is no key in it, no token and no randomness.
* `world` is the adapter: one server, any number of clients taking turns in any order, updates,
  and requests of strangers in between.
* `conversations_remembered`: what each client is told, exceptions included, is what it would be
  told by the server that remembers.

The cipher need not be secure for this, as clients only send what they were given; that no
commitment is shared by two models is what makes a stale state refused.
-/
import Sce.Provenance
import Sce.Lib.Machine

namespace Sce

variable {P : Platform}

/-! ## 1. A server that remembers -/

/-- What it keeps of one client: the last state, with the fingerprint it is of, and what was
said. -/
structure Session where
  memory : Option (Bytes × Bytes)
  transcript : List (Role × PyStr)

/-- Nothing. -/
def Session.new : Session := { memory := none, transcript := [] }

/-- Run the model; a state above the cap is not kept. -/
def remember (model : Model) (message : PyStr) (prior : Bytes) :
    Except ServerExc (PyStr × Bytes) := do
  let (reply, newState) ← model message prior
  (checkStateLength newState).mapError .py
  return (reply, newState)

namespace Session

/-- The session after the model has run, if it did. -/
def settle (memh : Bytes) (s : Session) :
    Except ServerExc (PyStr × Bytes) → Session × Except ServerExc PyStr
  | .error e => (s, .error e)
  | .ok (reply, newState) =>
    ({ memory := some (memh, newState), transcript := s.transcript ++ [(.assistant, reply)] },
      .ok reply)

/-- **A turn with a server that remembers.** -/
def say (model : Model) (memh : Bytes) (s : Session) (message : PyStr) :
    Session × Except ServerExc PyStr :=
  let asked : Session := { s with transcript := s.transcript ++ [(.user, message)] }
  match s.memory with
  | none => asked.settle memh (remember model message [])
  | some (memh', state) =>
    if memh' = memh then asked.settle memh (remember model message state)
    else
      let cleared : Session := { asked with memory := none }
      cleared.settle memh (remember model (replay cleared.transcript) [])

end Session

/-! ## 2. What a client holds -/

/-- The client that has asked. -/
def Client.ask (client : Client) (message : PyStr) : Client :=
  { client with transcript := client.transcript ++ [(.user, message)] }

/-- The client that has been refused. -/
def Client.clear (client : Client) : Client := { client with continuation := none }

/-- A client holds a token of the state that is remembered of it: a seal by a server with this
secret, whose derivation the log shows. -/
structure Client.Tracks (P : Platform) (secret : Bytes) (log : List Event) (client : Client)
    (s : Session) : Prop where
  transcript : client.transcript = s.transcript
  forgets : s.memory = none → client.continuation = none
  holds : ∀ memh state, s.memory = some (memh, state) →
    ∃ (S : Server P) (draw : Draw), S.masterSecret = secret ∧ S.manifest.memh = memh ∧
      state.length ≤ MAX_STATE ∧ S.binding.DerivedIn P draw.salt log ∧
      client.continuation = some (b64encode (S.binding.sealed P draw state))

theorem Client.Tracks.mono {secret : Bytes} {log log' : List Event} {client : Client}
    {s : Session} (h : client.Tracks P secret log s) (hsub : log ⊆ log') :
    client.Tracks P secret log' s where
  transcript := h.transcript
  forgets := h.forgets
  holds := by
    intro memh state hmemory
    obtain ⟨S, draw, hsecret, hmemh, hle, hderived, hcontinuation⟩ := h.holds memh state hmemory
    exact ⟨S, draw, hsecret, hmemh, hle, hderived.mono hsub, hcontinuation⟩

theorem Client.new_tracks (secret : Bytes) : Client.new.Tracks P secret [] Session.new where
  transcript := rfl
  forgets := fun _ => rfl
  holds := fun _ _ h => absurd h (by simp [Session.new])

/-- What is said is added to both. -/
theorem Client.Tracks.ask {secret : Bytes} {log : List Event} {client : Client} {s : Session}
    (h : client.Tracks P secret log s) (message : PyStr) :
    (client.ask message).Tracks P secret log
      { s with transcript := s.transcript ++ [(.user, message)] } where
  transcript := congrArg (· ++ [(Role.user, message)]) h.transcript
  forgets := h.forgets
  holds := h.holds

/-- Both forget. -/
theorem Client.Tracks.clear {secret : Bytes} {log : List Event} {client : Client} {s : Session}
    (h : client.Tracks P secret log s) :
    client.clear.Tracks P secret log { s with memory := none } where
  transcript := h.transcript
  forgets := fun _ => rfl
  holds := fun _ _ hmemory => absurd hmemory (by simp)

/-! ## 3. One answer -/

/-- **Everything an answer can be**: a failure, or a reply with a token of the new state. -/
theorem Server.answer_cases (htag : P.AeadTag) (model : Model) (S : Server P) (message : PyStr)
    (draw : Draw) (prior : Bytes) :
    (∃ e, remember model message prior = .error e ∧
        (S.answer model message draw prior).result = .error e) ∨
      ∃ reply newState, remember model message prior = .ok (reply, newState) ∧
        newState.length ≤ MAX_STATE ∧
        S.binding.DerivedIn P draw.salt (S.answer model message draw prior).log ∧
        (S.answer model message draw prior).result = .ok
          ⟨.reply reply (b64encode (S.binding.sealed P draw newState)), []⟩ := by
  cases hmodel : model message prior with
  | error e =>
    refine .inl ⟨e, ?_, ?_⟩
    · rw [remember, hmodel]
      rfl
    · rw [Server.answer, hmodel]
      rfl
  | ok out =>
    by_cases hle : out.2.length ≤ MAX_STATE
    · have hanswer : S.answer model message draw prior = ⟨S.binding.sealLog P draw out.2,
          .ok ⟨.reply out.1 (b64encode (S.binding.sealed P draw out.2)), []⟩⟩ := by
        rw [Server.answer, hmodel, Logged.liftM_ok, Logged.pure_bind]
        simp only [Server.sealNew_of_le htag draw hle, Logged.mapError, Except.mapError]
        rw [Logged.bind_of_ok rfl]
        simp
      refine .inr ⟨out.1, out.2, ?_, hle, ?_, ?_⟩
      · rw [remember, hmodel]
        simp only [bind, Except.bind, checkStateLength_eq_ok.mpr hle]
        rfl
      · rw [hanswer]
        intro x hx
        exact List.mem_append_left _ hx
      · rw [hanswer]
    · obtain ⟨text, hcheck, hfail⟩ := S.sealNew_of_gt draw hle
      refine .inl ⟨.py (.sceError text), ?_, ?_⟩
      · rw [remember, hmodel]
        simp only [bind, Except.bind, hcheck]
        rfl
      · rw [Server.answer, hmodel]
        simp only [Logged.liftM_ok, Logged.pure_bind, hfail]
        rfl

/-- An answer keeps the two together. -/
theorem Client.Tracks.answer (htag : P.AeadTag) {log : List Event} {client : Client}
    {s : Session} {S : Server P} (h : client.Tracks P S.masterSecret log s) (model : Model)
    (message : PyStr) (draw : Draw) (prior : Bytes) :
    (client.finish (S.answer model message draw prior).result).1.Tracks P S.masterSecret
        (log ++ (S.answer model message draw prior).log)
        (s.settle S.manifest.memh (remember model message prior)).1 ∧
      (client.finish (S.answer model message draw prior).result).2
        = (s.settle S.manifest.memh (remember model message prior)).2 := by
  rcases S.answer_cases htag model message draw prior with ⟨e, hremember, hresult⟩ |
    ⟨reply, newState, hremember, hle, hderived, hresult⟩
  · rw [hremember, hresult]
    exact ⟨h.mono (List.subset_append_left _ _), rfl⟩
  · rw [hremember, hresult]
    refine ⟨⟨?_, ?_, ?_⟩, rfl⟩
    · show client.transcript ++ _ = s.transcript ++ _
      rw [h.transcript]
    · intro hmemory
      exact absurd hmemory (by simp [Session.settle])
    · intro memh state hmemory
      obtain ⟨rfl, rfl⟩ := Prod.mk.inj (Option.some.inj hmemory)
      exact ⟨S, draw, rfl, rfl, hle, hderived.mono (List.subset_append_right _ _), rfl⟩

/-! ## 4. One turn -/

section Turn

variable (model : Model) (S : Server P) (client : Client) (message : PyStr) (draw retry : Draw)

/-- What it is refused for, or answered, comes first in the log. -/
theorem Client.resume_log_subset_say :
    (S.resume client.continuation).log ⊆ (client.say model S message draw retry).2.log := by
  have hfirst : (S.resume client.continuation).log
      ⊆ (S.chat model ⟨message, client.continuation⟩ draw).log := by
    rw [show S.chat model ⟨message, client.continuation⟩ draw
      = (⟨S, ⟨message, client.continuation⟩, draw⟩ : ChatCall P).run model from rfl,
      ChatCall.log_run]
    exact List.subset_append_left _ _
  refine List.Subset.trans hfirst ?_
  rw [Client.say]
  dsimp only
  split
  · exact List.subset_append_left _ _
  · exact List.Subset.refl _

variable {model S client message draw retry}

/-- A turn that resumes. -/
theorem Client.say_of_prior (htag : P.AeadTag) {prior : Bytes}
    (h : (S.resume client.continuation).result = .ok (.ok prior)) :
    client.say model S message draw retry =
      (((client.ask message).finish (S.answer model message draw prior).result).1,
        ⟨(S.resume client.continuation).log ++ (S.answer model message draw prior).log,
          ((client.ask message).finish (S.answer model message draw prior).result).2⟩) := by
  have hchat : S.chat model ⟨message, client.continuation⟩ draw
      = ⟨(S.resume client.continuation).log ++ (S.answer model message draw prior).log,
        (S.answer model message draw prior).result⟩ :=
    ChatCall.run_of_prior (c := ⟨S, ⟨message, client.continuation⟩, draw⟩) h
  rw [Client.say, hchat]
  rcases S.answer_cases htag model message draw prior with ⟨e, -, hresult⟩ |
    ⟨reply, newState, -, -, -, hresult⟩
  · simp only [hresult]
    rfl
  · simp only [hresult]
    rfl

/-- A turn that is refused, and taken again from the transcript. -/
theorem Client.say_of_refused {warning : String}
    (h : (S.resume client.continuation).result = .ok (.error warning)) :
    client.say model S message draw retry =
      (((client.ask message).clear.finish
          (S.answer model (replay (client.ask message).transcript) retry []).result).1,
        ⟨(S.resume client.continuation).log ++
            (S.answer model (replay (client.ask message).transcript) retry []).log,
          ((client.ask message).clear.finish
            (S.answer model (replay (client.ask message).transcript) retry []).result).2⟩) := by
  have hfirst : S.chat model ⟨message, client.continuation⟩ draw
      = ⟨(S.resume client.continuation).log, .ok ⟨.stateEpochMismatch, [warning]⟩⟩ :=
    ChatCall.run_of_refused (c := ⟨S, ⟨message, client.continuation⟩, draw⟩) h
  have hsecond : S.chat model ⟨replay (client.ask message).transcript, none⟩ retry
      = S.answer model (replay (client.ask message).transcript) retry [] := by
    refine (ChatCall.run_of_prior
      (c := ⟨S, ⟨replay (client.ask message).transcript, none⟩, retry⟩) rfl).trans ?_
    rfl
  rw [Client.say, hfirst]
  dsimp only
  rw [show S.chat model ⟨replay (client.transcript ++ [(.user, message)]), none⟩ retry
    = S.answer model (replay (client.ask message).transcript) retry [] from hsecond]
  rfl

end Turn

/-- A token of the present model opens. -/
theorem Server.resume_of_sealed (hcorrect : P.AeadCorrect) (htag : P.AeadTag) {S S' : Server P}
    (hsecret : S'.masterSecret = S.masterSecret) (hmemh : S'.manifest.memh = S.manifest.memh)
    (draw : Draw) {state : Bytes} (hle : state.length ≤ MAX_STATE) :
    (S.resume (some (b64encode (S'.binding.sealed P draw state)))).result = .ok (.ok state) := by
  rw [Server.binding_eq hsecret hmemh, ← S.binding.envelope_bytes htag draw hle]
  have htext := b64encode_ne_nil (Envelope.bytes_ne_nil (S.binding.envelope htag draw hle))
  rw [Server.resume_of_opens htext (b64decode_b64encode _)
    (S.binding.envelope_opens hcorrect htag draw hle)]

/-- **A token of another model is refused**, no commitment being shared. -/
theorem Server.resume_of_stale (htag : P.AeadTag) {S S' : Server P}
    (hmemh : S'.manifest.memh ≠ S.manifest.memh) (draw : Draw) {state : Bytes}
    (hle : state.length ≤ MAX_STATE) {log : List Event}
    (hderived : S'.binding.DerivedIn P draw.salt log) (hsha : P.Sha3CollisionFree log)
    (hcom : P.ComHalfCollisionFree log)
    (hlog : (S.resume (some (b64encode (S'.binding.sealed P draw state)))).log ⊆ log) :
    (S.resume (some (b64encode (S'.binding.sealed P draw state)))).result
      = .ok (.error S.warning) := by
  let V : Envelope := S'.binding.envelope htag draw hle
  have hbytes : V.bytes = S'.binding.sealed P draw state := S'.binding.envelope_bytes htag draw hle
  rw [← hbytes] at hlog ⊢
  have htext := b64encode_ne_nil (Envelope.bytes_ne_nil V)
  have hdecode := b64decode_b64encode V.bytes
  have hrefused : ∀ prior, ¬ S.binding.Opens P V prior := by
    intro prior hopens
    rw [Server.resume_of_opens htext hdecode hopens] at hlog
    have hcommitment : S'.binding.commitment P draw.salt = S.binding.commitment P draw.salt :=
      hopens.commitment
    have hbinding := (Binding.eq_of_commitment hsha hcom hderived
      (Binding.DerivedIn.of_unsealLog hlog) hcommitment).1
    exact hmemh (congrArg (fun b : Binding => b.memh) hbinding)
  rw [Server.resume_of_refused htext hdecode hrefused]

/-- **One turn**: the client is told what it would be told by a server that remembers, and holds
what that server would remember. -/
theorem Client.Tracks.say (hcorrect : P.AeadCorrect) (htag : P.AeadTag) {log : List Event}
    {client : Client} {s : Session} {S : Server P} (h : client.Tracks P S.masterSecret log s)
    {model : Model} {message : PyStr} {draw retry : Draw}
    (hsha : P.Sha3CollisionFree (log ++ (client.say model S message draw retry).2.log))
    (hcom : P.ComHalfCollisionFree (log ++ (client.say model S message draw retry).2.log)) :
    (client.say model S message draw retry).1.Tracks P S.masterSecret
        (log ++ (client.say model S message draw retry).2.log)
        (s.say model S.manifest.memh message).1 ∧
      (client.say model S message draw retry).2.result
        = (s.say model S.manifest.memh message).2 := by
  -- a turn that resumes from what the session remembers
  have hgoes : ∀ prior, (S.resume client.continuation).result = .ok (.ok prior) →
      s.say model S.manifest.memh message
        = Session.settle S.manifest.memh { s with transcript := s.transcript ++ [(.user, message)] }
          (remember model message prior) →
      (client.say model S message draw retry).1.Tracks P S.masterSecret
          (log ++ (client.say model S message draw retry).2.log)
          (s.say model S.manifest.memh message).1 ∧
        (client.say model S message draw retry).2.result
          = (s.say model S.manifest.memh message).2 := by
    intro prior hprior hsay
    obtain ⟨htracks, hresult⟩ := (h.ask message).answer htag model message draw prior
    rw [Client.say_of_prior htag hprior, hsay]
    refine ⟨htracks.mono ?_, hresult⟩
    refine List.append_subset.mpr ⟨List.subset_append_left _ _, ?_⟩
    exact List.Subset.trans (List.subset_append_right _ _) (List.subset_append_right _ _)
  cases hmemory : s.memory with
  | none =>
    have hcontinuation := h.forgets hmemory
    refine hgoes [] ?_ ?_
    · rw [hcontinuation]
      rfl
    · rw [Session.say, hmemory]
  | some memory =>
    obtain ⟨memh, state⟩ := memory
    obtain ⟨S', draw', hsecret, hmemh, hle, hderived, hcontinuation⟩ := h.holds memh state hmemory
    by_cases hsame : memh = S.manifest.memh
    · refine hgoes state ?_ ?_
      · rw [hcontinuation]
        exact Server.resume_of_sealed hcorrect htag hsecret (hmemh.trans hsame) draw' hle
      · rw [Session.say, hmemory]
        simp only [if_pos hsame]
    · have hresume : (S.resume client.continuation).log
          ⊆ log ++ (client.say model S message draw retry).2.log :=
        List.Subset.trans (client.resume_log_subset_say model S message draw retry)
          (List.subset_append_right _ _)
      have hstale : (S.resume client.continuation).result = .ok (.error S.warning) := by
        rw [hcontinuation] at hresume ⊢
        exact Server.resume_of_stale htag (hmemh ▸ hsame) draw' hle
          (hderived.mono (List.subset_append_left _ _)) hsha hcom hresume
      have hsay : s.say model S.manifest.memh message = Session.settle S.manifest.memh
          { memory := none, transcript := s.transcript ++ [(.user, message)] }
          (remember model (replay (s.transcript ++ [(.user, message)])) []) := by
        rw [Session.say, hmemory]
        simp only [if_neg hsame]
      have htranscript : (client.ask message).transcript = s.transcript ++ [(.user, message)] :=
        (h.ask message).transcript
      obtain ⟨htracks, hresult⟩ := (h.ask message).clear.answer htag model
        (replay (s.transcript ++ [(.user, message)])) retry []
      rw [Client.say_of_refused hstale, hsay, htranscript]
      refine ⟨htracks.mono ?_, hresult⟩
      refine List.append_subset.mpr ⟨List.subset_append_left _ _, ?_⟩
      exact List.Subset.trans (List.subset_append_right _ _) (List.subset_append_right _ _)

/-! ## 5. Many clients -/

section World

variable {κ : Type}

/-- The adapter: one server, and the clients it does not remember. -/
structure World (P : Platform) (κ : Type) where
  server : Server P
  clients : κ → Client

/-- What can happen in it. -/
inductive WorldInput (P : Platform) (κ : Type)
  | say (k : κ) (message : PyStr) (draw retry : Draw)
  | stranger (request : Request) (draw : Draw)
  | updateModel (manifest : Manifest P)

/-- What one step records, and what a client was told in it. -/
structure Observed (κ : Type) where
  log : List Event
  told : Option (κ × Except ServerExc PyStr)

/-- The clients take turns in any order, strangers send what they like, the model changes. -/
def world (P : Platform) (κ : Type) [DecidableEq κ] (model : Model) :
    Machine (World P κ) (WorldInput P κ) (Observed κ) where
  step
    | W, .say k message draw retry =>
      let turn := (W.clients k).say model W.server message draw retry
      ({ W with clients := Function.update W.clients k turn.1 },
        ⟨turn.2.log, some (k, turn.2.result)⟩)
    | W, .stranger request draw => (W, ⟨(W.server.chat model request draw).log, none⟩)
    | W, .updateModel manifest =>
      ({ W with server := W.server.updateModel manifest }, ⟨[], none⟩)

/-- **A server that remembers its clients**: the fingerprint of its model, and a session for each
of them. -/
structure Sessions (κ : Type) where
  memh : Bytes
  sessions : κ → Session

/-- The same inputs, with a server that remembers; strangers are nothing to it. -/
def rememberingWorld (P : Platform) (κ : Type) [DecidableEq κ] (model : Model) :
    Machine (Sessions κ) (WorldInput P κ) (Option (κ × Except ServerExc PyStr)) where
  step
    | R, .say k message _ _ =>
      let turn := (R.sessions k).say model R.memh message
      ({ R with sessions := Function.update R.sessions k turn.1 }, some (k, turn.2))
    | R, .stranger _ _ => (R, none)
    | R, .updateModel manifest => ({ R with memh := manifest.memh }, none)

/-- What a run records. -/
def worldLog (outs : List (Observed κ)) : List Event := outs.flatMap Observed.log

theorem worldLog_append (outs outs' : List (Observed κ)) :
    worldLog (outs ++ outs') = worldLog outs ++ worldLog outs' := List.flatMap_append

theorem worldLog_singleton (out : Observed κ) : worldLog [out] = out.log := by
  simp [worldLog]

variable [DecidableEq κ]

/-- Every client holds what is remembered of it. -/
structure World.Tracks (past : List (Observed κ)) (W : World P κ) (R : Sessions κ) : Prop where
  memh : W.server.manifest.memh = R.memh
  clients : ∀ k, (W.clients k).Tracks P W.server.masterSecret (worldLog past) (R.sessions k)

/-- **One step.** -/
theorem World.Tracks.step (hcorrect : P.AeadCorrect) (htag : P.AeadTag) {model : Model}
    {past : List (Observed κ)} {W : World P κ} {R : Sessions κ} (h : W.Tracks past R)
    (input : WorldInput P κ)
    (hsha : P.Sha3CollisionFree (worldLog (past ++ [((world P κ model).step W input).2])))
    (hcom : P.ComHalfCollisionFree (worldLog (past ++ [((world P κ model).step W input).2]))) :
    ((world P κ model).step W input).1.Tracks (past ++ [((world P κ model).step W input).2])
        ((rememberingWorld P κ model).step R input).1 ∧
      ((rememberingWorld P κ model).step R input).2
        = ((world P κ model).step W input).2.told := by
  rw [worldLog_append, worldLog_singleton] at hsha hcom
  cases input with
  | say k message draw retry =>
    obtain ⟨htracks, hresult⟩ := (h.clients k).say hcorrect htag hsha hcom
    rw [h.memh] at htracks hresult
    refine ⟨⟨h.memh, fun k' => ?_⟩, ?_⟩
    · rw [worldLog_append, worldLog_singleton]
      by_cases hk : k' = k
      · subst hk
        simpa only [world, rememberingWorld, Function.update_self] using htracks
      · simp only [world, rememberingWorld, Function.update_of_ne hk]
        exact (h.clients k').mono (List.subset_append_left _ _)
    · exact congrArg (fun result => some (k, result)) hresult.symm
  | stranger request draw =>
    refine ⟨⟨h.memh, fun k => (h.clients k).mono ?_⟩, rfl⟩
    rw [worldLog_append]
    exact List.subset_append_left _ _
  | updateModel manifest =>
    refine ⟨⟨rfl, fun k => (h.clients k).mono ?_⟩, rfl⟩
    rw [worldLog_append]
    exact List.subset_append_left _ _

/-- **Any run** that starts with what is remembered. -/
theorem World.Tracks.run (hcorrect : P.AeadCorrect) (htag : P.AeadTag) {model : Model}
    {past : List (Observed κ)} {W : World P κ} {R : Sessions κ} (h : W.Tracks past R)
    (inputs : List (WorldInput P κ))
    (hsha : P.Sha3CollisionFree (worldLog (past ++ ((world P κ model).run W inputs).2)))
    (hcom : P.ComHalfCollisionFree (worldLog (past ++ ((world P κ model).run W inputs).2))) :
    ((rememberingWorld P κ model).run R inputs).2
      = ((world P κ model).run W inputs).2.map Observed.told := by
  refine Machine.run_simulation (R := World.Tracks) ?_ inputs h rfl
  rintro past W R input h ⟨rest, htotal⟩
  rw [← htotal, worldLog_append] at hsha hcom
  refine h.step hcorrect htag input ?_ ?_
  · exact hsha.mono fun x hx => mem_sha3Inputs.mpr
      (List.mem_append_left _ (mem_sha3Inputs.mp hx))
  · exact hcom.mono fun x hx => mem_hkdfInputs.mpr
      (List.mem_append_left _ (mem_hkdfInputs.mp hx))

/-- **Every client is told, in every run of the adapter, what it would be told by a server that
remembers**: whatever the order of turns, updates and strangers' requests. -/
theorem conversations_remembered (model : Model) (hcorrect : P.AeadCorrect) (htag : P.AeadTag)
    (S : Server P) (inputs : List (WorldInput P κ))
    (hsha : P.Sha3CollisionFree
      (worldLog ((world P κ model).run ⟨S, fun _ => Client.new⟩ inputs).2))
    (hcom : P.ComHalfCollisionFree
      (worldLog ((world P κ model).run ⟨S, fun _ => Client.new⟩ inputs).2)) :
    ((rememberingWorld P κ model).run ⟨S.manifest.memh, fun _ => Session.new⟩ inputs).2
      = ((world P κ model).run ⟨S, fun _ => Client.new⟩ inputs).2.map Observed.told := by
  have hstart : World.Tracks [] (⟨S, fun _ => Client.new⟩ : World P κ)
      ⟨S.manifest.memh, fun _ => Session.new⟩ := ⟨rfl, fun _ => Client.new_tracks _⟩
  exact hstart.run hcorrect htag inputs hsha hcom

end World

/-- Two clients, a stranger with the token of one of them, and an update between their turns. -/
def toyTurns : List (WorldInput toy Bool) :=
  [.say true [0x68] toyDraw toyDraw,
    .say false [0x69] (toyCarrying toyToken 0x23).draw toyDraw,
    .stranger (toyCarrying toyToken 0x24).request (toyCarrying toyToken 0x24).draw,
    .say true [0x6a] (toyCarrying toyToken 0x25).draw toyDraw,
    .updateModel toyUpdated,
    .say true [0x6b] (toyCarrying toyToken 0x26).draw toyDraw]

theorem toyTurns_remembered :
    ((rememberingWorld toy Bool runModel).run ⟨toyServer.manifest.memh, fun _ => Session.new⟩
        toyTurns).2
      = ((world toy Bool runModel).run ⟨toyServer, fun _ => Client.new⟩ toyTurns).2.map
          Observed.told := by
  refine conversations_remembered runModel toy_aeadExact.correct toy_aeadTag toyServer toyTurns
    ?_ ?_
  · decide +kernel
  · decide +kernel

end Sce
