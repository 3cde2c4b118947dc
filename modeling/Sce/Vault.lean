/-
# A server without memory that answers as if it had one

The adapter's server keeps no conversation, and whoever talks to it may send any text as a
continuation.  What a provider wants of it is that it cannot be told from a server with a vault:
one that files every state it hands out under the token it hands out for it, and resumes from a
continuation only by finding it there, filed under the present model.

* `Vault` is that server.  It opens nothing and never looks at a key, only at its files; how a
  token is made is all it shares with the code.
* `provider` is the adapter's server over any run of requests and model updates.
* `stateless_refines_vault`: over every run the two answer alike, to every request.

What is assumed is said of the events of the run: the hashes do not collide on what was hashed,
and a ciphertext that opens was made earlier in the run.
-/
import Sce.Provenance
import Sce.Lib.Machine

namespace Sce

variable {P : Platform}

/-! ## 1. The provider -/

/-- What can happen to a provider. -/
inductive ProviderInput (P : Platform)
  | chat (request : Request) (draw : Draw)
  | updateModel (manifest : Manifest P)

/-- The adapter's server.  It puts out the requests it was sent, each with itself as it was. -/
def provider (P : Platform) : Machine (Server P) (ProviderInput P) (Option (ChatCall P)) where
  step
    | S, .chat request draw => (S, some ⟨S, request, draw⟩)
    | S, .updateModel manifest => (S.updateModel manifest, none)

/-- The requests among what a run put out. -/
def requestsOf (outs : List (Option (ChatCall P))) : List (ChatCall P) := outs.filterMap id

@[simp] theorem requestsOf_append (outs outs' : List (Option (ChatCall P))) :
    requestsOf (outs ++ outs') = requestsOf outs ++ requestsOf outs' := List.filterMap_append

@[simp] theorem requestsOf_some (c : ChatCall P) : requestsOf [some c] = [c] := rfl

@[simp] theorem requestsOf_none : requestsOf [(none : Option (ChatCall P))] = [] := rfl

/-! ## 2. The vault -/

/-- One file: a state, the token it was handed out as, the fingerprint of the model it is of. -/
structure VaultEntry where
  token : Bytes
  memh : Bytes
  state : Bytes

/-- **A server that keeps every state it hands out.** -/
structure Vault (P : Platform) where
  server : Server P
  entries : List VaultEntry

namespace Vault

/-- The state filed under a token and the present model. -/
def lookup (v : Vault P) (token : Bytes) : Option Bytes :=
  (v.entries.find? fun entry =>
    entry.token = token ∧ entry.memh = v.server.manifest.memh).map VaultEntry.state

/-- What a request resumes from, or `none` if it is refused. -/
def prior (v : Vault P) (continuation : Option PyStr) : Except ServerExc (Option Bytes) :=
  match continuation with
  | none => .ok (some [])
  | some [] => .ok (some [])
  | some (c :: text) => do
    let token ← b64decode (c :: text)
    match v.lookup token with
    | some state => return some state
    | none =>
      let _ ← (parseBytes token).mapError .py
      return none

/-- File a state, if a token can be made for it. -/
def file (v : Vault P) (draw : Draw) (reply : PyStr) (newState : Bytes) :
    Vault P × Except ServerExc Response :=
  match (v.server.sealNew draw newState).result with
  | .error e => (v, .error (.py e))
  | .ok token =>
    ({ v with entries := ⟨token, v.server.manifest.memh, newState⟩ :: v.entries },
      .ok (.reply reply (b64encode token)))

/-- Answer a request. -/
def chat (model : Model) (v : Vault P) (request : Request) (draw : Draw) :
    Vault P × Except ServerExc Response :=
  match v.prior request.continuation with
  | .error e => (v, .error e)
  | .ok none => (v, .ok .stateEpochMismatch)
  | .ok (some state) =>
    match model request.message state with
    | .error e => (v, .error e)
    | .ok (reply, newState) => v.file draw reply newState

end Vault

/-- The server with a vault, over the same runs. -/
def vaultProvider (model : Model) :
    Machine (Vault P) (ProviderInput P) (Option (Except ServerExc Response)) where
  step
    | v, .chat request draw => ((v.chat model request draw).1, some (v.chat model request draw).2)
    | v, .updateModel manifest => ({ v with server := v.server.updateModel manifest }, none)

/-! ## 3. The files agree with the seals -/

/-- A file is right: its token is a seal of its state, by this server under the model it is
of. -/
def VaultEntry.Genuine (secret : Bytes) (entry : VaultEntry) : Prop :=
  ∃ (S : Server P) (draw : Draw), S.masterSecret = secret ∧ S.manifest.memh = entry.memh ∧
    entry.state.length ≤ MAX_STATE ∧ entry.token = S.binding.sealed P draw entry.state

/-- **The vault goes with a run of the server**: its files are right, and it has every seal. -/
structure Vault.Tracks (model : Model) (past : List (Option (ChatCall P))) (S : Server P)
    (v : Vault P) : Prop where
  server : v.server = S
  secret : ∀ c ∈ requestsOf past, c.server.masterSecret = S.masterSecret
  genuine : ∀ entry ∈ v.entries, entry.Genuine (P := P) S.masterSecret
  complete : ∀ call, .direct call ∈ chatSeals model (requestsOf past) → ∀ b state,
    call.Performs b state → ⟨b.sealed P call.draw state, b.memh, state⟩ ∈ v.entries

theorem Vault.lookup_eq_some {v : Vault P} {token state : Bytes}
    (h : v.lookup token = some state) : ∃ entry ∈ v.entries,
      entry.token = token ∧ entry.memh = v.server.manifest.memh ∧ entry.state = state := by
  obtain ⟨entry, hfind, hstate⟩ := Option.map_eq_some_iff.mp h
  have hmatch := List.find?_some hfind
  simp only [decide_eq_true_eq] at hmatch
  exact ⟨entry, List.mem_of_find?_eq_some hfind, hmatch.1, hmatch.2, hstate⟩

theorem Vault.lookup_ne_none {v : Vault P} {entry : VaultEntry} (h : entry ∈ v.entries)
    (hmemh : entry.memh = v.server.manifest.memh) : v.lookup entry.token ≠ none := by
  intro hnone
  rw [Vault.lookup, Option.map_eq_none_iff, List.find?_eq_none] at hnone
  exact hnone entry h (by simp [hmemh])

/-- A right file opens under the model it is of. -/
theorem VaultEntry.Genuine.opens (hcorrect : P.AeadCorrect) (htag : P.AeadTag)
    {S : Server P} {entry : VaultEntry} (h : entry.Genuine (P := P) S.masterSecret)
    (hmemh : entry.memh = S.manifest.memh) :
    ∃ V : Envelope, entry.token = V.bytes ∧ S.binding.Opens P V entry.state := by
  obtain ⟨S', draw, hsecret, hmemh', hstate, htoken⟩ := h
  have hbinding : S'.binding = S.binding := Server.binding_eq hsecret (hmemh'.trans hmemh)
  rw [hbinding] at htoken
  exact ⟨S.binding.envelope htag draw hstate,
    htoken.trans (S.binding.envelope_bytes htag draw hstate).symm,
    S.binding.envelope_opens hcorrect htag draw hstate⟩

/-- What a token under the present model opens to is what is filed. -/
theorem Vault.Tracks.lookup_eq_of_opens {model : Model} {past : List (Option (ChatCall P))}
    {S : Server P} {v : Vault P} (h : v.Tracks model past S) (hcorrect : P.AeadCorrect)
    (htag : P.AeadTag) {V : Envelope} {prior filed : Bytes} (hopens : S.binding.Opens P V prior)
    (hfiled : v.lookup V.bytes = some filed) : filed = prior := by
  obtain ⟨entry, hentry, htoken, hmemh, rfl⟩ := Vault.lookup_eq_some hfiled
  rw [h.server] at hmemh
  obtain ⟨V', htoken', hopens'⟩ := (h.genuine entry hentry).opens hcorrect htag hmemh
  obtain rfl := Envelope.bytes_inj (htoken.symm.trans htoken')
  exact Option.some.inj (hopens'.plaintext.symm.trans hopens.plaintext)

/-- **A token that opens is filed.** -/
theorem Vault.Tracks.lookup_of_opens {model : Model} {past : List (Option (ChatCall P))}
    {S : Server P} {v : Vault P} (h : v.Tracks model past S) (htag : P.AeadTag)
    {opened : List Event} (hideal : P.Ideal (historyLog (chatSeals model (requestsOf past))) opened)
    {V : Envelope} {prior : Bytes} (hopens : S.binding.Opens P V prior)
    (hlog : S.binding.unsealLog P V ⊆ opened) : v.lookup V.bytes = some prior := by
  obtain ⟨call, hcall, hcarries, hciphertext⟩ := hopens.sealed hideal hlog
  obtain ⟨c, hc, hmem⟩ := List.mem_flatMap.mp hcall
  obtain ⟨sealing, hsealing, rfl⟩ := List.mem_map.mp hmem
  obtain ⟨hperforms, hdraw⟩ := hcarries.seals.performs
  have hfiled := h.complete sealing hcall _ _ hperforms
  rw [hdraw, ← hopens.bytes_eq_sealed hciphertext] at hfiled
  have hfound : v.lookup V.bytes ≠ none :=
    Vault.lookup_ne_none hfiled (congrArg (fun S : Server P => S.manifest.memh) h.server.symm)
  obtain ⟨filed, hlookup⟩ := Option.ne_none_iff_exists'.mp hfound
  rw [hlookup, h.lookup_eq_of_opens hideal.correct htag hopens hlookup]

/-- **The vault resumes from what the server resumes from.** -/
theorem Vault.Tracks.prior_eq {model : Model} {past : List (Option (ChatCall P))}
    {S : Server P} {v : Vault P} (h : v.Tracks model past S) (htag : P.AeadTag)
    {continuation : Option PyStr}
    (hideal : P.Ideal (historyLog (chatSeals model (requestsOf past)))
      (S.resume continuation).log) :
    v.prior continuation = (S.resume continuation).result.map Except.toOption := by
  have hrefuses : ∀ {token : Bytes}, (∀ (V : Envelope) (p : Bytes), token = V.bytes →
      ¬ S.binding.Opens P V p) → v.lookup token = none := by
    intro token hno
    by_contra hfound
    obtain ⟨filed, hlookup⟩ := Option.ne_none_iff_exists'.mp hfound
    obtain ⟨entry, hentry, htoken, hmemh, rfl⟩ := Vault.lookup_eq_some hlookup
    rw [h.server] at hmemh
    obtain ⟨V, hV, hopens⟩ := (h.genuine entry hentry).opens hideal.correct htag hmemh
    exact hno V _ (htoken.symm.trans hV) hopens
  rcases S.resume_cases continuation with hnone | ⟨text, rfl, hne, hcases⟩
  · rw [Server.resume_of_none hnone]
    rcases hnone with rfl | rfl
    · rfl
    · rfl
  obtain ⟨c, text, rfl⟩ := List.exists_cons_of_ne_nil hne
  rcases hcases with ⟨e, he⟩ | ⟨X, message, hX, hmessage⟩ | ⟨V, hV, ⟨p, hp⟩ | hrefused⟩
  · rw [Server.resume_of_error hne he, Vault.prior, he]
    rfl
  · have hlookup : v.lookup X = none := by
      refine hrefuses fun V p hXV _ => ?_
      rw [hXV, parseBytes_bytes] at hmessage
      exact absurd hmessage (by simp)
    rw [Server.resume_of_malformed hne hX hmessage, Vault.prior, hX]
    simp only [bind, Except.bind, hlookup, hmessage]
    rfl
  · have hresume := Server.resume_of_opens hne hV hp
    rw [hresume] at hideal
    rw [hresume, Vault.prior, hV]
    simp only [bind, Except.bind, h.lookup_of_opens htag hideal hp (List.Subset.refl _)]
    rfl
  · have hlookup : v.lookup V.bytes = none := by
      refine hrefuses fun V' p hVV' hopens => ?_
      obtain rfl := Envelope.bytes_inj hVV'
      exact hrefused p hopens
    rw [Server.resume_of_refused hne hV hrefused, Vault.prior, hV]
    simp only [bind, Except.bind, hlookup, parseBytes_bytes]
    rfl

/-! ## 4. Refinement -/

namespace Vault.Tracks

variable {model : Model} {past : List (Option (ChatCall P))} {S : Server P} {v : Vault P}

/-- A request that seals nothing changes nothing. -/
theorem of_seals_nil (h : v.Tracks model past S) {c : ChatCall P} (hc : c.server = S)
    (hseals : c.seals model = []) : v.Tracks model (past ++ [some c]) S where
  server := h.server
  secret := by
    intro c' hc'
    rw [requestsOf_append, requestsOf_some, List.mem_append, List.mem_singleton] at hc'
    rcases hc' with hc' | rfl
    · exact h.secret c' hc'
    · rw [hc]
  genuine := h.genuine
  complete := by
    have hsame : chatSeals model (requestsOf (past ++ [some c]))
        = chatSeals model (requestsOf past) := by simp [chatSeals, hseals]
    rw [hsame]
    exact h.complete

/-- A request that seals a state files it. -/
theorem file (h : v.Tracks model past S) (htag : P.AeadTag) {c : ChatCall P} (hc : c.server = S)
    (reply : PyStr) {newState : Bytes} (hseals : c.seals model = [S.sealCall c.draw newState]) :
    (v.file c.draw reply newState).1.Tracks model (past ++ [some c]) S := by
  have hsecret : ∀ c' ∈ requestsOf (past ++ [some c]), c'.server.masterSecret = S.masterSecret := by
    intro c' hc'
    rw [requestsOf_append, requestsOf_some, List.mem_append, List.mem_singleton] at hc'
    rcases hc' with hc' | rfl
    · exact h.secret c' hc'
    · rw [hc]
  have hruns : chatSeals model (requestsOf (past ++ [some c]))
      = chatSeals model (requestsOf past) ++ [.direct (S.sealCall c.draw newState)] := by
    simp [chatSeals, hseals]
  -- the seal the request makes performs for its own state only
  have hnew : ∀ {b : Binding} {state : Bytes},
      (S.sealCall c.draw newState).Performs b state → b = S.binding ∧ state = newState :=
    fun hperforms => ⟨hperforms.presented.unique S.binding_presentedBy,
      (Arg.of.inj hperforms.state).symm⟩
  by_cases hle : newState.length ≤ MAX_STATE
  · have hfile : (v.file c.draw reply newState).1 = { v with
        entries :=
          ⟨S.binding.sealed P c.draw newState, S.manifest.memh, newState⟩ :: v.entries } := by
      rw [Vault.file, h.server, Server.sealNew_of_le htag c.draw hle]
    rw [hfile]
    refine ⟨h.server, hsecret, ?_, ?_⟩
    · intro entry hentry
      rcases List.mem_cons.mp hentry with rfl | hentry
      · exact ⟨S, c.draw, rfl, rfl, hle, rfl⟩
      · exact h.genuine entry hentry
    · intro call hcall b state hperforms
      rw [hruns, List.mem_append, List.mem_singleton] at hcall
      rcases hcall with hcall | hcall
      · exact List.mem_cons_of_mem _ (h.complete call hcall b state hperforms)
      · obtain rfl := Call.direct.inj hcall
        obtain ⟨rfl, rfl⟩ := hnew hperforms
        exact List.mem_cons_self
  · obtain ⟨message, -, hfail⟩ := S.sealNew_of_gt c.draw hle
    have hfile : (v.file c.draw reply newState).1 = v := by
      rw [Vault.file, h.server, hfail]
      rfl
    rw [hfile]
    refine ⟨h.server, hsecret, h.genuine, ?_⟩
    intro call hcall b state hperforms
    rw [hruns, List.mem_append, List.mem_singleton] at hcall
    rcases hcall with hcall | hcall
    · exact h.complete call hcall b state hperforms
    · obtain rfl := Call.direct.inj hcall
      obtain ⟨-, rfl⟩ := hnew hperforms
      exact absurd hperforms.state_le hle

/-- **One request**: the vault answers as the server does, and goes on with it. -/
theorem chat (h : v.Tracks model past S) (htag : P.AeadTag) (request : Request) (draw : Draw)
    (hideal : P.Ideal (historyLog (chatSeals model (requestsOf past)))
      (S.resume request.continuation).log) :
    (v.chat model request draw).1.Tracks model (past ++ [some ⟨S, request, draw⟩]) S ∧
      (v.chat model request draw).2 = (⟨S, request, draw⟩ : ChatCall P).response model := by
  let c : ChatCall P := ⟨S, request, draw⟩
  have hprior := h.prior_eq htag hideal
  cases hresumed : c.resumed.result with
  | error e =>
    have hresult : (S.resume request.continuation).result = .error e := hresumed
    have hchat : v.chat model request draw = (v, .error e) := by
      rw [Vault.chat, hprior, hresult]
      rfl
    rw [hchat, ChatCall.response_of_error hresumed]
    exact ⟨h.of_seals_nil rfl (by rw [ChatCall.seals, hresumed]), rfl⟩
  | ok resumed =>
  have hresult : (S.resume request.continuation).result = .ok resumed := hresumed
  cases resumed with
  | error warning =>
    have hchat : v.chat model request draw = (v, .ok .stateEpochMismatch) := by
      rw [Vault.chat, hprior, hresult]
      rfl
    rw [hchat, ChatCall.response_of_refused hresumed]
    exact ⟨h.of_seals_nil rfl (by rw [ChatCall.seals, hresumed]), rfl⟩
  | ok prior =>
    have hchat : v.chat model request draw = match model request.message prior with
        | .error e => (v, .error e)
        | .ok (reply, newState) => v.file draw reply newState := by
      rw [Vault.chat, hprior, hresult]
      rfl
    have hseals : c.seals model = _ := ChatCall.seals_of_prior hresumed
    rw [hchat, ChatCall.response_of_prior hresumed]
    cases hmodel : model request.message prior with
    | error e =>
      have hnil : c.seals model = [] := by simp [hseals, c, hmodel]
      exact ⟨h.of_seals_nil rfl hnil, rfl⟩
    | ok out =>
      have hone : c.seals model = [S.sealCall draw out.2] := by simp [hseals, c, hmodel]
      refine ⟨h.file htag rfl out.1 hone, ?_⟩
      show (v.file draw out.1 out.2).2 = match (S.sealNew draw out.2).result with
        | .error e => .error (.py e)
        | .ok token => .ok (.reply out.1 (b64encode token))
      rw [Vault.file, h.server]
      cases (S.sealNew draw out.2).result with
      | error e => rfl
      | ok token => rfl

/-- A new model has the same files. -/
theorem updateModel (h : v.Tracks model past S) (manifest : Manifest P) :
    Vault.Tracks model (past ++ [none]) (S.updateModel manifest)
      { v with server := v.server.updateModel manifest } where
  server := congrArg (Server.updateModel · manifest) h.server
  secret := by
    intro c hc
    rw [requestsOf_append, requestsOf_none, List.append_nil] at hc
    exact h.secret c hc
  genuine := h.genuine
  complete := by
    have hsame : chatSeals model (requestsOf (past ++ [none]))
        = chatSeals model (requestsOf past) := by simp
    rw [hsame]
    exact h.complete

end Vault.Tracks

/-- **A server without memory answers every run of requests, whatever continuations these carry,
as a server with a vault does.** -/
theorem stateless_refines_vault (model : Model) (htag : P.AeadTag) (S : Server P)
    (inputs : List (ProviderInput P))
    (hideal : P.IdealRun (chatLog model (requestsOf ((provider P).run S inputs).2))) :
    ((vaultProvider model).run ⟨S, []⟩ inputs).2
      = ((provider P).run S inputs).2.map (Option.map (ChatCall.response model)) := by
  have hstart : Vault.Tracks model [] S ⟨S, []⟩ :=
    ⟨rfl, fun _ hc => absurd hc (by simp [requestsOf]), fun _ he => absurd he (by simp),
      fun _ hcall => absurd hcall (by simp [chatSeals, requestsOf])⟩
  refine Machine.run_simulation (R := Vault.Tracks model) ?_ inputs hstart
    (List.nil_append _)
  intro past S' v input h hprefix
  cases input with
  | chat request draw =>
    obtain ⟨rest, htotal⟩ := hprefix
    have hrequest : P.Ideal (historyLog (chatSeals model (requestsOf past)))
        (S'.resume request.continuation).log := by
      rw [← htotal] at hideal
      simp only [requestsOf_append, List.append_assoc] at hideal
      exact hideal.request (c := ⟨S', request, draw⟩)
    obtain ⟨htracks, hresponse⟩ := h.chat htag request draw hrequest
    exact ⟨htracks, congrArg some hresponse⟩
  | updateModel manifest => exact ⟨h.updateModel manifest, rfl⟩

/-- The toy history with an update behind it, after which the token is refused. -/
def toyInputs : List (ProviderInput toy) :=
  toyHistory.map (fun c => .chat c.request c.draw) ++
    [.updateModel toyUpdated, .chat (toyCarrying toyToken 0x23).request toyDraw]

theorem toyInputs_refine :
    ((vaultProvider runModel).run ⟨toyServer, []⟩ toyInputs).2
      = ((provider toy).run toyServer toyInputs).2.map
          (Option.map (ChatCall.response runModel)) := by
  refine stateless_refines_vault runModel toy_aeadTag toyServer toyInputs
    ⟨toy_aeadExact.correct, ?_, ?_, ?_⟩
  · decide +kernel
  · decide +kernel
  · decide +kernel

end Sce
