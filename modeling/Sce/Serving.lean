/-
# A stateless server around the envelope

`examples/serving_adapter.py` shows how the package is meant to be used.  The server keeps no
conversation.  It seals the state of a turn, hands it to the client as text, and takes it back
with the next request; a state that does not open under the present manifest is refused, and the
client starts again from its transcript.

* The one line the adapter mocks is the model, here any function of a message and a prior state
  (`Model`).  `runModel` is the one the adapter has.
* `Server.chat` is split where the source catches an exception: `resume` is what it gets out of
  the request, `answer` what it does with that.
* `Client.say` is the other party.  Both draw what `os.urandom` returns from an argument.
-/
import Sce.Inspect
import Sce.Lib.Base64
import Sce.Lib.Occurrences
import Sce.SealSpec

namespace Sce

/-! ## 1. Text -/

/-- What the adapter can raise: an exception the package knows, or one of the built-ins it
calls itself. -/
inductive ServerExc
  | py (e : PyExc)
  | valueError
  | binasciiError (e : Base64.DecodeError)
  | unicodeDecodeError
  | keyError
  deriving DecidableEq, Repr

/-- A literal. -/
def pyStr (s : String) : PyStr := s.toList.map fun c => Fin.ofNat _ c.toNat

/-- The ASCII text of some bytes. -/
def asciiText (b : Bytes) : PyStr := b.map fun c => Fin.ofNat _ c.toNat

/-- `base64.b64encode(b).decode()` -/
def b64encode (b : Bytes) : PyStr := asciiText (Base64.encode b)

/-- `base64.b64decode(s)` of a string, which has to be ASCII. -/
def b64decode (s : PyStr) : Except ServerExc Bytes :=
  if s.all (·.val < 0x80) then
    (Base64.decode (s.map fun c => UInt8.ofNat c.val)).mapError .binasciiError
  else .error .valueError

/-- How long the sequence is that starts with this byte. -/
def utf8Width (lead : UInt8) : Nat :=
  if lead < 0x80 then 1 else if lead < 0xE0 then 2 else if lead < 0xF0 then 3 else 4

/-- The number one sequence of bytes carries. -/
def utf8Value : Bytes → Nat
  | [a] => a.toNat
  | [a, b] => (a.toNat - 0xC0) * 64 + (b.toNat - 0x80)
  | [a, b, c] => (a.toNat - 0xE0) * 4096 + (b.toNat - 0x80) * 64 + (c.toNat - 0x80)
  | [a, b, c, d] =>
    (a.toNat - 0xF0) * 262144 + (b.toNat - 0x80) * 4096 + (c.toNat - 0x80) * 64
      + (d.toNat - 0x80)
  | _ => 0

/-- The first character, if the bytes start with the strict encoding of one. -/
def readUtf8Char : Bytes → Option (CodePoint × Bytes)
  | [] => none
  | lead :: rest =>
    let bytes := (lead :: rest).take (utf8Width lead)
    let c : CodePoint := Fin.ofNat _ (utf8Value bytes)
    if utf8Char c = bytes ∧ ¬ Surrogate c then some (c, (lead :: rest).drop (utf8Width lead))
    else none

/-- At most `fuel` characters. -/
def readUtf8 : (fuel : Nat) → Bytes → Option PyStr
  | _, [] => some []
  | 0, _ :: _ => none
  | fuel + 1, lead :: rest =>
    match readUtf8Char (lead :: rest) with
    | none => none
    | some (c, rest) => (readUtf8 fuel rest).map (c :: ·)

/-- `b.decode()` -/
def decodeUtf8 (b : Bytes) : Except ServerExc PyStr :=
  match readUtf8 b.length b with
  | some s => .ok s
  | none => .error .unicodeDecodeError

/-! ## 2. The server -/

/-- The model: a reply and a new state from a message and a prior state. -/
abbrev Model := (message : PyStr) → (priorState : Bytes) → Except ServerExc (PyStr × Bytes)

/-- `prior_state.decode() if prior_state else ""` -/
def readState (priorState : Bytes) : Except ServerExc PyStr :=
  if priorState = [] then .ok [] else decodeUtf8 priorState

/-- The reply to a message, and the history with both at its end. -/
def extendHistory (message history : PyStr) : PyStr × PyStr :=
  let history := (if history = [] then [] else history ++ pyStr "\n") ++ pyStr "user:" ++ message
  let turns := Occurrences.countFrom (pyStr "user:") 0 history
  let reply := pyStr "(model reply on turn " ++ pyStr (toString turns) ++ pyStr "; I have "
    ++ pyStr (toString history.length) ++ pyStr " bytes of state)"
  (reply, history ++ pyStr "\nassistant:" ++ reply)

/-- `_run_model` -/
def runModel : Model := fun message priorState => do
  let history ← readState priorState
  let newState ← (encodeUtf8 (extendHistory message history).2).mapError .py
  return ((extendHistory message history).1, newState)

variable (P : Platform)

/-- `MockInferenceServer`: its secret and its model identity, and no conversations. -/
structure Server where
  masterSecret : Bytes
  manifest : Manifest P
  masterSecret_length : masterSecret.length = 32

/-- What `chat` is sent. -/
structure Request where
  message : PyStr
  continuation : Option PyStr

/-- What `chat` returns. -/
inductive Response
  | reply (reply continuation : PyStr)
  | stateEpochMismatch
  deriving DecidableEq

/-- A response, and what the server wrote to its own log. -/
structure Served where
  response : Response
  warnings : List String

namespace Server

variable {P}

/-- `update_model` -/
def updateModel (S : Server P) (manifest : Manifest P) : Server P := { S with manifest }

/-- **The state a request resumes from**, or the warning that goes with a refusal. -/
def resume (S : Server P) (continuation : Option PyStr) :
    Logged Event ServerExc (Except String Bytes) :=
  match continuation with
  | none => pure (.ok [])
  | some [] => pure (.ok [])
  | some (c :: text) => do
    let sealed ← liftM (b64decode (c :: text))
    let opened := (unsealState P (.of (.bytes sealed)) (.of S.manifest)
      (.of S.masterSecret)).mapError .py
    (Except.ok <$> opened).handle fun
      | .py (.stateSealMismatch _) => do
        let note ← liftM ((explainMismatch P (.of (.bytes sealed)) (.of S.manifest)).mapError
          ServerExc.py)
        return .error ("SCE unseal refused (server log only): " ++ note)
      | e => .fail e

/-- The seal of a new state. -/
def sealNew (S : Server P) (draw : Draw) (newState : Bytes) : Py Bytes :=
  sealState P draw (.of newState) (.of S.manifest) (.of S.masterSecret)

/-- Run the model and seal what it returns. -/
def answer (model : Model) (S : Server P) (message : PyStr) (draw : Draw) (priorState : Bytes) :
    Logged Event ServerExc Served := do
  let (reply, newState) ← liftM (model message priorState)
  let sealedNew ← (S.sealNew draw newState).mapError .py
  return { response := .reply reply (b64encode sealedNew), warnings := [] }

/-- `chat` -/
def chat (model : Model) (S : Server P) (request : Request) (draw : Draw) :
    Logged Event ServerExc Served := do
  let resumed ← S.resume request.continuation
  match resumed with
  | .error warning => return { response := .stateEpochMismatch, warnings := [warning] }
  | .ok priorState => S.answer model request.message draw priorState

end Server

/-! ## 3. The client -/

inductive Role
  | user
  | assistant
  deriving DecidableEq

def Role.text : Role → PyStr
  | .user => pyStr "user"
  | .assistant => pyStr "assistant"

/-- `Client`: the sealed state it cannot read, and its own record. -/
structure Client where
  continuation : Option PyStr
  transcript : List (Role × PyStr)

/-- `Client(server)` -/
def Client.new : Client := { continuation := none, transcript := [] }

/-- The transcript as one message. -/
def replay (transcript : List (Role × PyStr)) : PyStr :=
  (pyStr " | ").intercalate (transcript.map fun entry => entry.1.text ++ pyStr ":" ++ entry.2)

namespace Client

/-- The client after a response that carries a continuation. -/
def settle (client : Client) (reply continuation : PyStr) : Client where
  continuation := some continuation
  transcript := client.transcript ++ [(.assistant, reply)]

/-- The client after `resp["continuation"]` and `resp["reply"]`. -/
def finish (client : Client) : Except ServerExc Served → Client × Except ServerExc PyStr
  | .error e => (client, .error e)
  | .ok ⟨.stateEpochMismatch, _⟩ => (client, .error .keyError)
  | .ok ⟨.reply reply continuation, _⟩ => (client.settle reply continuation, .ok reply)

variable {P}

/-- `say`; an exception leaves the client as far as it had got. -/
def say (model : Model) (S : Server P) (client : Client) (message : PyStr) (draw retry : Draw) :
    Client × Logged Event ServerExc PyStr :=
  let asked : Client := { client with transcript := client.transcript ++ [(.user, message)] }
  let first := S.chat model { message, continuation := client.continuation } draw
  match first.result with
  | .ok ⟨.stateEpochMismatch, _⟩ =>
    -- rebuild from the transcript, with no stale state
    let cleared : Client := { asked with continuation := none }
    let second := S.chat model { message := replay cleared.transcript, continuation := none } retry
    let done := cleared.finish second.result
    (done.1, ⟨first.log ++ second.log, done.2⟩)
  | result =>
    let done := asked.finish result
    (done.1, ⟨first.log, done.2⟩)

end Client

end Sce
