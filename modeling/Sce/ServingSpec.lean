/-
# What one request does

The closed forms of `Server.resume`, `Server.answer` and `Server.chat`.  A request resumes from
nothing, from what its continuation opens to, or not at all; in the last case it is refused, or
an exception escapes that is not the mismatch `chat` catches (`resume_cases`).

`ChatCall` is one request put to a server, and `ChatCall.seals` the seals it makes.  A history of
requests is a list of these, whoever sent them and whatever the server's manifest was.
-/
import Sce.EnvelopeImage
import Sce.History
import Sce.Serving

namespace Sce

variable {P : Platform}

/-! ## 1. Text -/

/-- ASCII bytes come back from their text. -/
theorem map_asciiText (b : Bytes) : (asciiText b).map (fun c => UInt8.ofNat c.val) = b := by
  rw [asciiText, List.map_map]
  refine (List.map_congr_left fun c _ => ?_).trans (List.map_id b)
  have hc : c.toNat < 0x110000 := c.toNat_lt.trans (by decide)
  rw [Function.comp_apply, Fin.val_ofNat, Nat.mod_eq_of_lt hc, UInt8.ofNat_toNat]
  rfl

/-- **A continuation reads back as the bytes it was made of.** -/
theorem b64decode_b64encode (b : Bytes) : b64decode (b64encode b) = .ok b := by
  have hascii : (b64encode b).all (·.val < 0x80) := by
    rw [List.all_eq_true]
    intro c hc
    obtain ⟨u, hu, rfl⟩ := List.mem_map.mp hc
    have hlt : u.toNat < 0x80 := Base64.encode_lt b u hu
    rw [Fin.val_ofNat, Nat.mod_eq_of_lt (by omega), decide_eq_true_eq]
    exact hlt
  rw [b64decode, if_pos hascii, b64encode, map_asciiText, Base64.decode_encode]
  rfl

theorem b64encode_ne_nil {b : Bytes} (h : b ≠ []) : b64encode b ≠ [] := by
  rw [b64encode, asciiText, ne_eq, List.map_eq_nil_iff]
  exact Base64.encode_ne_nil h

theorem toNat_ofNat_of_lt {n : Nat} (h : n < 256) : (UInt8.ofNat n).toNat = n := by
  rw [UInt8.toNat_ofNat', Nat.mod_eq_of_lt h]

/-- The bytes of a character carry its number. -/
theorem utf8Value_utf8Char (c : CodePoint) : utf8Value (utf8Char c) = c.val := by
  have hc : c.val < 0x110000 := c.isLt
  unfold utf8Char
  dsimp only
  split
  · show (UInt8.ofNat c.val).toNat = c.val
    rw [toNat_ofNat_of_lt (by omega)]
  · split
    · show ((UInt8.ofNat (0xC0 + c.val / 64)).toNat - 0xC0) * 64
        + ((UInt8.ofNat (0x80 + c.val % 64)).toNat - 0x80) = c.val
      rw [toNat_ofNat_of_lt (by omega), toNat_ofNat_of_lt (by omega)]
      omega
    · split
      · show ((UInt8.ofNat (0xE0 + c.val / 4096)).toNat - 0xE0) * 4096
          + ((UInt8.ofNat (0x80 + c.val / 64 % 64)).toNat - 0x80) * 64
          + ((UInt8.ofNat (0x80 + c.val % 64)).toNat - 0x80) = c.val
        rw [toNat_ofNat_of_lt (by omega), toNat_ofNat_of_lt (by omega),
          toNat_ofNat_of_lt (by omega)]
        omega
      · show ((UInt8.ofNat (0xF0 + c.val / 262144)).toNat - 0xF0) * 262144
          + ((UInt8.ofNat (0x80 + c.val / 4096 % 64)).toNat - 0x80) * 4096
          + ((UInt8.ofNat (0x80 + c.val / 64 % 64)).toNat - 0x80) * 64
          + ((UInt8.ofNat (0x80 + c.val % 64)).toNat - 0x80) = c.val
        rw [toNat_ofNat_of_lt (by omega), toNat_ofNat_of_lt (by omega),
          toNat_ofNat_of_lt (by omega), toNat_ofNat_of_lt (by omega)]
        omega

/-- The first byte tells how many there are. -/
theorem utf8Width_utf8Char {c : CodePoint} {lead : UInt8} {tail : Bytes}
    (h : utf8Char c = lead :: tail) : utf8Width lead = (lead :: tail).length := by
  obtain ⟨n, hn⟩ := c
  simp only [utf8Char] at h
  split_ifs at h <;> obtain ⟨rfl, rfl⟩ := List.cons.inj h <;>
    simp only [utf8Width, UInt8.lt_iff_toNat_lt, UInt8.toNat_ofNat', List.length_cons,
      List.length_nil] <;>
    split_ifs <;> simp_all <;> omega

theorem readUtf8Char_utf8Char {c : CodePoint} (h : ¬ Surrogate c) (rest : Bytes) :
    readUtf8Char (utf8Char c ++ rest) = some (c, rest) := by
  obtain ⟨lead, tail, hchar⟩ := List.exists_cons_of_ne_nil (utf8Char_ne_nil c)
  have hwidth := utf8Width_utf8Char hchar
  have htake : (lead :: (tail ++ rest)).take (utf8Width lead) = utf8Char c := by
    rw [hwidth, hchar, ← List.cons_append, List.take_left]
  have hdrop : (lead :: (tail ++ rest)).drop (utf8Width lead) = rest := by
    rw [hwidth, ← List.cons_append, List.drop_left]
  have hvalue : Fin.ofNat 0x110000 (utf8Value (utf8Char c)) = c := by
    rw [utf8Value_utf8Char]
    exact Fin.ext (Nat.mod_eq_of_lt c.isLt)
  rw [hchar, List.cons_append, readUtf8Char]
  simp only [htake, hdrop, hvalue]
  rw [if_pos ⟨trivial, h⟩]

theorem readUtf8_utf8 {s : PyStr} : ∀ {fuel : Nat}, s.length ≤ fuel →
    (∀ c ∈ s, ¬ Surrogate c) → readUtf8 fuel (utf8 s) = some s := by
  induction s with
  | nil =>
    intro fuel _ _
    cases fuel <;> rfl
  | cons c s ih =>
    intro fuel hfuel hs
    obtain ⟨fuel, rfl⟩ : ∃ n, fuel = n + 1 := ⟨fuel - 1, by simp at hfuel; omega⟩
    obtain ⟨lead, tail, hchar⟩ := List.exists_cons_of_ne_nil (utf8Char_ne_nil c)
    have hread := readUtf8Char_utf8Char (hs c List.mem_cons_self) (utf8 s)
    have hcons : utf8 (c :: s) = utf8Char c ++ utf8 s := rfl
    rw [hcons]
    rw [hchar, List.cons_append] at hread ⊢
    rw [readUtf8, hread]
    simp only [ih (by simpa using hfuel) fun d hd => hs d (List.mem_cons_of_mem _ hd),
      Option.map_some]

theorem length_le_utf8 (s : PyStr) : s.length ≤ (utf8 s).length := by
  induction s with
  | nil => simp
  | cons c s ih =>
    have hpos : 0 < (utf8Char c).length := List.length_pos_of_ne_nil (utf8Char_ne_nil c)
    simp only [utf8, List.flatMap_cons, List.length_append, List.length_cons] at ih ⊢
    omega

/-- **Text that was encoded is decoded.** -/
theorem decodeUtf8_of_encode {s : PyStr} {b : Bytes} (h : encodeUtf8 s = .ok b) :
    decodeUtf8 b = .ok s := by
  obtain ⟨hs, rfl⟩ := encodeUtf8_eq_ok.mp h
  rw [decodeUtf8, readUtf8_utf8 (length_le_utf8 s) hs]

theorem Envelope.bytes_ne_nil (V : Envelope) : V.bytes ≠ [] := by
  intro h
  have hlen := V.bytes_length
  rw [h, List.length_nil] at hlen
  omega

/-! ## 2. Resuming -/

namespace Server

variable (S : Server P)

/-- What the server seals and unseals under: the epoch and the context are the defaults. -/
def binding : Binding where
  memh := S.manifest.memh
  epochId := 0
  context := []
  masterSecret := S.masterSecret
  memh_length := S.manifest.memh_length
  epochId_lt := by decide
  context_le := by decide
  secret_length := by
    rw [S.masterSecret_length]
    decide

theorem binding_presentedBy :
    S.binding.PresentedBy (.of S.manifest) (.of S.masterSecret) (.of 0) (.of []) :=
  ⟨⟨⟨S.manifest, rfl, rfl⟩, rfl, rfl⟩, rfl⟩

/-- Servers with one secret and one fingerprint have one binding. -/
theorem binding_eq {S S' : Server P} (hsecret : S.masterSecret = S'.masterSecret)
    (hmemh : S.manifest.memh = S'.manifest.memh) : S.binding = S'.binding :=
  Binding.ext hmemh rfl rfl hsecret

/-- What the server logs of a refusal. -/
def warning : String :=
  "SCE unseal refused (server log only): " ++ refusalNote S.manifest.memh

variable {S} {text : PyStr}

/-- The continuation is text of an envelope that opens. -/
theorem resume_of_opens (htext : text ≠ []) {V : Envelope} (hV : b64decode text = .ok V.bytes)
    {prior : Bytes} (h : S.binding.Opens P V prior) :
    S.resume (some text) = ⟨S.binding.unsealLog P V, .ok (.ok prior)⟩ := by
  obtain ⟨c, text, rfl⟩ := List.exists_cons_of_ne_nil htext
  have hrun : unsealState P (.of (.bytes V.bytes)) (.of S.manifest) (.of S.masterSecret)
      = ⟨S.binding.unsealLog P V, .ok prior⟩ := by
    rw [unsealState_eq S.binding_presentedBy rfl, Binding.opens_iff.mpr h]
  rw [resume, hV, Logged.liftM_ok, Logged.pure_bind, hrun]
  rfl

/-- It is text of an envelope that does not open. -/
theorem resume_of_refused (htext : text ≠ []) {V : Envelope} (hV : b64decode text = .ok V.bytes)
    (h : ∀ prior, ¬ S.binding.Opens P V prior) :
    S.resume (some text) = ⟨S.binding.unsealLog P V, .ok (.error S.warning)⟩ := by
  obtain ⟨c, text, rfl⟩ := List.exists_cons_of_ne_nil htext
  have hrun : unsealState P (.of (.bytes V.bytes)) (.of S.manifest) (.of S.masterSecret)
      = ⟨S.binding.unsealLog P V, .error mismatch⟩ := by
    rw [unsealState_eq S.binding_presentedBy rfl]
    cases hrelease : release (V.commitment == S.binding.commitment P V.salt)
        (P.plaintextOf (S.binding.decryption P V)) with
    | ok prior => exact absurd (Binding.opens_iff.mp hrelease) (h prior)
    | error e => rw [release_eq_error hrelease]
  have hnote : explainMismatch P (.of (.bytes V.bytes)) (.of S.manifest)
      = .ok (refusalNote S.manifest.memh) := by
    rw [explainMismatch, requireManifest_eq_ok.mpr rfl, parse_of, Carrier.toBytes,
      parseBytes_bytes]
    rfl
  rw [resume, hV, Logged.liftM_ok, Logged.pure_bind, hrun, hnote]
  simp only [Logged.mapError, Except.mapError, Logged.handle, mismatch]
  exact congrArg (Logged.mk · _) (List.append_nil _)

/-- It is text of something else. -/
theorem resume_of_malformed (htext : text ≠ []) {X : Bytes} (hX : b64decode text = .ok X)
    {message : String} (h : parseBytes X = .error (.malformedEnvelope message)) :
    S.resume (some text) = .fail (.py (.malformedEnvelope message)) := by
  obtain ⟨c, text, rfl⟩ := List.exists_cons_of_ne_nil htext
  have hrun : unsealState P (.of (.bytes X)) (.of S.manifest) (.of S.masterSecret)
      = .fail (.malformedEnvelope message) := by
    rw [unsealState, unsealStateWith_eq_parse S.binding_presentedBy.toPresentedBy, parse_of,
      Carrier.toBytes, h]
    rfl
  rw [resume, hX, Logged.liftM_ok, Logged.pure_bind, hrun]
  rfl

/-- It is not text of anything. -/
theorem resume_of_error (htext : text ≠ []) {e : ServerExc} (he : b64decode text = .error e) :
    S.resume (some text) = .fail e := by
  obtain ⟨c, text, rfl⟩ := List.exists_cons_of_ne_nil htext
  rw [resume, he, Logged.liftM_error, Logged.fail_bind]

/-- A request that carries no continuation; the empty text counts as none. -/
def NoContinuation (continuation : Option PyStr) : Prop :=
  continuation = none ∨ continuation = some []

theorem resume_of_none {continuation : Option PyStr} (h : NoContinuation continuation) :
    S.resume continuation = pure (.ok []) := by
  obtain rfl | rfl := h
  · rfl
  · rfl

/-- **Everything a request can resume from.** -/
theorem resume_cases (S : Server P) (continuation : Option PyStr) :
    NoContinuation continuation ∨
      ∃ text, continuation = some text ∧ text ≠ [] ∧
        ((∃ e, b64decode text = .error e) ∨
          (∃ X message, b64decode text = .ok X ∧
            parseBytes X = .error (.malformedEnvelope message)) ∨
          ∃ V : Envelope, b64decode text = .ok V.bytes ∧
            ((∃ prior, S.binding.Opens P V prior) ∨ ∀ prior, ¬ S.binding.Opens P V prior)) := by
  match continuation with
  | none => exact .inl (.inl rfl)
  | some [] => exact .inl (.inr rfl)
  | some (c :: text) =>
    refine .inr ⟨c :: text, rfl, List.cons_ne_nil c text, ?_⟩
    cases hdecode : b64decode (c :: text) with
    | error e => exact .inl ⟨e, rfl⟩
    | ok X =>
      rcases parseBytes_cases X with ⟨message, hmessage⟩ | ⟨V, rfl⟩
      · exact .inr (.inl ⟨X, message, rfl, hmessage⟩)
      · refine .inr (.inr ⟨V, rfl, ?_⟩)
        by_cases hopens : ∃ prior, S.binding.Opens P V prior
        · exact .inl hopens
        · exact .inr (not_exists.mp hopens)

/-- **What a request resumed from opened**, and its envelope is what the text carries. -/
theorem resume_eq_ok {continuation : Option PyStr} {prior : Bytes}
    (h : (S.resume continuation).result = .ok (.ok prior)) :
    (NoContinuation continuation ∧ prior = []) ∨
      ∃ (text : PyStr) (V : Envelope), continuation = some text ∧ text ≠ [] ∧
        b64decode text = .ok V.bytes ∧ S.binding.Opens P V prior ∧
          (S.resume continuation).log = S.binding.unsealLog P V := by
  rcases S.resume_cases continuation with hnone | ⟨text, rfl, htext, hcases⟩
  · rw [resume_of_none hnone] at h
    exact .inl ⟨hnone, (Except.ok.inj (Except.ok.inj h)).symm⟩
  · rcases hcases with ⟨e, he⟩ | ⟨X, message, hX, hmessage⟩ | ⟨V, hV, ⟨p, hp⟩ | hrefused⟩
    · rw [resume_of_error htext he] at h
      exact absurd h (by simp)
    · rw [resume_of_malformed htext hX hmessage] at h
      exact absurd h (by simp)
    · have hrun := resume_of_opens htext hV hp
      rw [hrun] at h
      obtain rfl := Except.ok.inj (Except.ok.inj h)
      exact .inr ⟨text, V, rfl, htext, hV, hp, congrArg Logged.log hrun⟩
    · rw [resume_of_refused htext hV hrefused] at h
      exact absurd (Except.ok.inj h) (by simp)

/-! ## 3. Answering -/

/-- The call of `seal_state` behind a new state. -/
def sealCall (S : Server P) (draw : Draw) (newState : Bytes) : SealCall P where
  draw := draw
  state := .of newState
  manifest := .of S.manifest
  masterSecret := .of S.masterSecret
  epochId := .of 0
  context := .of []
  sealCount := none

theorem sealCall_run (draw : Draw) (newState : Bytes) :
    (S.sealCall draw newState).run = S.sealNew draw newState := rfl

theorem sealNew_of_le (htag : P.AeadTag) {newState : Bytes} (draw : Draw)
    (h : newState.length ≤ MAX_STATE) : S.sealNew draw newState
      = ⟨S.binding.sealLog P draw newState, .ok (S.binding.sealed P draw newState)⟩ :=
  sealState_eq_sealed htag S.binding_presentedBy h rfl

/-- A state above the cap is not sealed. -/
theorem sealNew_of_gt {newState : Bytes} (draw : Draw) (h : ¬ newState.length ≤ MAX_STATE) :
    ∃ message, checkStateLength newState = .error (.sceError message) ∧
      S.sealNew draw newState = .fail (.sceError message) := by
  have hcheck : ∃ message, checkStateLength newState = .error (.sceError message) :=
    ⟨_, if_pos (not_le.mp h)⟩
  obtain ⟨message, hmessage⟩ := hcheck
  refine ⟨message, hmessage, ?_⟩
  rw [sealNew, sealState, sealStateWith, requireManifest_eq_ok.mpr rfl,
    requireState_eq_ok.mpr rfl]
  simp only [Logged.liftM_ok, Logged.pure_bind, hmessage]
  rfl

end Server

/-! ## 4. Requests -/

/-- One request put to a server. -/
structure ChatCall (P : Platform) where
  server : Server P
  request : Request
  draw : Draw

namespace ChatCall

variable (model : Model) (c : ChatCall P)

def run : Logged Event ServerExc Served := c.server.chat model c.request c.draw

/-- What it resumes from. -/
def resumed : Logged Event ServerExc (Except String Bytes) :=
  c.server.resume c.request.continuation

/-- What the client sees of it. -/
def response : Except ServerExc Response := (c.run model).result.map Served.response

/-- The seals it makes: one, if the model gets to run and returns. -/
def seals : List (SealCall P) :=
  match c.resumed.result with
  | .ok (.ok priorState) =>
    match model c.request.message priorState with
    | .ok (_, newState) => [c.server.sealCall c.draw newState]
    | .error _ => []
  | _ => []

variable {model} {c}

theorem run_of_error {e : ServerExc} (h : c.resumed.result = .error e) :
    c.run model = ⟨c.resumed.log, .error e⟩ := Logged.bind_of_error h _

theorem run_of_refused {warning : String} (h : c.resumed.result = .ok (.error warning)) :
    c.run model = ⟨c.resumed.log, .ok ⟨.stateEpochMismatch, [warning]⟩⟩ := by
  refine (Logged.bind_of_ok h _).trans ?_
  simp

theorem run_of_prior {prior : Bytes} (h : c.resumed.result = .ok (.ok prior)) :
    c.run model = ⟨c.resumed.log ++ (c.server.answer model c.request.message c.draw prior).log,
      (c.server.answer model c.request.message c.draw prior).result⟩ := Logged.bind_of_ok h _

theorem seals_of_prior {prior : Bytes} (h : c.resumed.result = .ok (.ok prior)) :
    c.seals model = match model c.request.message prior with
      | .ok (_, newState) => [c.server.sealCall c.draw newState]
      | .error _ => [] := by
  rw [seals, h]

variable (model) (c)

/-- **What a request records**: what it opens, then what it seals. -/
theorem log_run :
    (c.run model).log = c.resumed.log ++ historyLog ((c.seals model).map .direct) := by
  cases h : c.resumed.result with
  | error e =>
    have hseals : c.seals model = [] := by rw [seals, h]
    rw [run_of_error h, hseals]
    exact (List.append_nil _).symm
  | ok resumed =>
    cases resumed with
    | error warning =>
      have hseals : c.seals model = [] := by rw [seals, h]
      rw [run_of_refused h, hseals]
      exact (List.append_nil _).symm
    | ok prior =>
      rw [run_of_prior h, seals_of_prior h, Server.answer]
      cases model c.request.message prior with
      | error e => rfl
      | ok out =>
        simp only [Logged.liftM_ok, Logged.pure_bind]
        cases hseal : ((c.server.sealNew c.draw out.2).mapError ServerExc.py).result with
        | error e =>
          rw [Logged.bind_of_error hseal]
          simp [historyLog, Call.run, Server.sealCall_run, Logged.mapError]
        | ok X =>
          rw [Logged.bind_of_ok hseal]
          simp [historyLog, Call.run, Server.sealCall_run, Logged.mapError]

variable {model} {c}

theorem response_of_error {e : ServerExc} (h : c.resumed.result = .error e) :
    c.response model = .error e := by
  rw [response, run_of_error h]
  rfl

theorem response_of_refused {warning : String} (h : c.resumed.result = .ok (.error warning)) :
    c.response model = .ok .stateEpochMismatch := by
  rw [response, run_of_refused h]
  rfl

/-- The answer to a request that resumes from a state. -/
theorem response_of_prior {prior : Bytes} (h : c.resumed.result = .ok (.ok prior)) :
    c.response model = match model c.request.message prior with
      | .error e => .error e
      | .ok (reply, newState) =>
        match (c.server.sealNew c.draw newState).result with
        | .error e => .error (.py e)
        | .ok sealedNew => .ok (.reply reply (b64encode sealedNew)) := by
  rw [response, run_of_prior h, Server.answer]
  cases model c.request.message prior with
  | error e => rfl
  | ok out =>
    simp only [Logged.liftM_ok, Logged.pure_bind]
    cases hseal : (c.server.sealNew c.draw out.2).result with
    | error e =>
      have herror : ((c.server.sealNew c.draw out.2).mapError ServerExc.py).result
          = .error (.py e) := by rw [Logged.mapError, hseal]; rfl
      rw [Logged.bind_of_error herror]
      rfl
    | ok X =>
      have hok : ((c.server.sealNew c.draw out.2).mapError ServerExc.py).result = .ok X := by
        rw [Logged.mapError, hseal]
        rfl
      rw [Logged.bind_of_ok hok]
      rfl

end ChatCall

/-- A server of the toy platform. -/
def toyServer : Server toy where
  masterSecret := List.replicate 32 0x33
  manifest := toyManifest
  masterSecret_length := rfl

/-- The manifest of another model. -/
def toyUpdated : Manifest toy :=
  .ofFields { toyFields with extra := [] } (by decide)
    { core := fun f => by cases f <;> decide +kernel
      entries := by decide +kernel
      count := by decide +kernel }

/-- A first request. -/
def toyFirst : ChatCall toy where
  server := toyServer
  request := { message := [0x68], continuation := none }
  draw := toyDraw

/-- The state the adapter's model ends in, and the bytes it is handed out as. -/
def toyState : Bytes := utf8 (extendHistory [0x68] []).2

def toyToken : Bytes := toyServer.binding.sealed toy toyDraw toyState

/-- A request that carries some bytes. -/
def toyCarrying (token : Bytes) (nonce : UInt8) : ChatCall toy where
  server := toyServer
  request := { message := [0x69], continuation := some (b64encode token) }
  draw := { toyDraw with nonce := List.replicate 12 nonce }

/-! ## 5. What a refusal shows -/

/-- What becomes of a continuation that does not open: read off its text alone. -/
def refusalOf (text : PyStr) : Except ServerExc Response := do
  let sealed ← b64decode text
  let _ ← (parseBytes sealed).mapError .py
  return .stateEpochMismatch

namespace ChatCall

variable {model : Model} {c : ChatCall P}

/-- **A request resumes, or is answered from its text alone.** -/
theorem resumes_or_refusal (c : ChatCall P) (model : Model) :
    (∃ prior, c.resumed.result = .ok (.ok prior)) ∨
      ∃ text, c.request.continuation = some text ∧ c.response model = refusalOf text := by
  rcases c.server.resume_cases c.request.continuation with hnone | ⟨text, htext, hne, hcases⟩
  · refine .inl ⟨[], ?_⟩
    rw [resumed, Server.resume_of_none hnone]
    rfl
  rcases hcases with ⟨e, he⟩ | ⟨X, message, hX, hmessage⟩ | ⟨V, hV, ⟨p, hp⟩ | hrefused⟩
  · refine .inr ⟨text, htext, ?_⟩
    have hresumed : c.resumed.result = .error e := by
      rw [resumed, htext, Server.resume_of_error hne he]
      rfl
    rw [response_of_error hresumed, refusalOf, he]
    rfl
  · refine .inr ⟨text, htext, ?_⟩
    have hresumed : c.resumed.result = .error (.py (.malformedEnvelope message)) := by
      rw [resumed, htext, Server.resume_of_malformed hne hX hmessage]
      rfl
    rw [response_of_error hresumed, refusalOf, hX]
    simp only [bind, Except.bind, hmessage]
    rfl
  · refine .inl ⟨p, ?_⟩
    rw [resumed, htext, Server.resume_of_opens hne hV hp]
  · refine .inr ⟨text, htext, ?_⟩
    have hresumed : c.resumed.result = .ok (.error c.server.warning) := by
      rw [resumed, htext, Server.resume_of_refused hne hV hrefused]
    rw [response_of_refused hresumed, refusalOf, hV]
    simp only [bind, Except.bind, parseBytes_bytes]
    rfl

/-- **Refusals are no oracle.**  Put one continuation to two servers, with any secrets, manifests
and models, and any messages: if it opens at neither, the two answers are the same. -/
theorem refusals_agree {P' : Platform} (model model' : Model) (c : ChatCall P)
    (c' : ChatCall P') (hsame : c.request.continuation = c'.request.continuation)
    (hc : ∀ prior, c.resumed.result ≠ .ok (.ok prior))
    (hc' : ∀ prior, c'.resumed.result ≠ .ok (.ok prior)) :
    c.response model = c'.response model' := by
  rcases c.resumes_or_refusal model with ⟨prior, h⟩ | ⟨text, htext, hresponse⟩
  · exact absurd h (hc prior)
  rcases c'.resumes_or_refusal model' with ⟨prior', h'⟩ | ⟨text', htext', hresponse'⟩
  · exact absurd h' (hc' prior')
  obtain rfl : text = text' := by
    rw [htext, htext'] at hsame
    exact Option.some.inj hsame
  rw [hresponse, hresponse']

end ChatCall

/-- An altered token, at the server that made it and after an update. -/
theorem toyCarrying_refusals_agree :
    (toyCarrying (toyToken.dropLast ++ [0x00]) 0x24).response runModel =
      ({ toyCarrying (toyToken.dropLast ++ [0x00]) 0x24 with
        server := toyServer.updateModel toyUpdated } : ChatCall toy).response runModel := by
  refine ChatCall.refusals_agree runModel runModel _ _ rfl ?_ ?_
  · have hresumed : (toyCarrying (toyToken.dropLast ++ [0x00]) 0x24).resumed.result
        = .ok (.error toyServer.warning) := by decide +kernel
    rw [hresumed]
    simp
  · have hresumed : ({ toyCarrying (toyToken.dropLast ++ [0x00]) 0x24 with
        server := toyServer.updateModel toyUpdated } : ChatCall toy).resumed.result
        = .ok (.error (toyServer.updateModel toyUpdated).warning) := by decide +kernel
    rw [hresumed]
    simp

end Sce
