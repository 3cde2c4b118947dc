/-
# Which turns are remembered

The adapter's model says in each reply which turn it is on: it counts `user:` in the history that
the sealed state carries.  So the numbers a client is told show what became of its conversation
while it was out of the server's hands.

* A turn adds one to the count of the state (`extendHistory_turns`), and a replayed transcript has
  one for each of its turns (`turnsIn_replay`).
* `turns_counted`: in every run, the n-th answer a client gets says turn n, and turn n + 1 once the
  model has changed between two of its turns, as the replayed transcript is itself the message of
  a user.  What the messages themselves contain of the pattern comes on top.  No turn is lost.
* `failed_rebuild_forgets`: unless a turn raises while it is taken again.  `say` has dropped the
  continuation by then, and only a refusal makes it replay the transcript, so the client goes on
  as if it were new.
-/
import Sce.Conversation

namespace Sce

/-! ## 1. Histories -/

/-- The turns a text has. -/
def turnsIn (text : PyStr) : Nat := Occurrences.countFrom (pyStr "user:") 0 text

/-- What the adapter's model replies. -/
def replyOn (turns size : Nat) : PyStr :=
  pyStr "(model reply on turn " ++ pyStr (toString turns) ++ pyStr "; I have "
    ++ pyStr (toString size) ++ pyStr " bytes of state)"

/-- A reply names its turn. -/
def Says (turns : Nat) (reply : PyStr) : Prop := ∃ size, reply = replyOn turns size

theorem turnsIn_append_cons {c : CodePoint} (hc : c ∉ pyStr "user:") (a b : PyStr) :
    turnsIn (a ++ c :: b) = turnsIn a + turnsIn b :=
  Occurrences.countFrom_append_cons (by decide) hc b (Nat.zero_le _)

theorem turnsIn_user (message : PyStr) :
    turnsIn (pyStr "user:" ++ message) = 1 + turnsIn message :=
  Occurrences.countFrom_pattern (by decide) message

theorem pyStr_inj {s t : String} (h : pyStr s = pyStr t) : s = t := by
  have hchars : Function.Injective fun c : Char => (Fin.ofNat 0x110000 c.toNat) := by
    intro c d hcd
    have hvalid : ∀ c : Char, c.toNat < 0x110000 := fun c =>
      c.valid.elim (fun h => h.trans (by decide)) (fun h => h.2)
    have hval := congrArg Fin.val hcd
    simp only [Fin.val_ofNat, Nat.mod_eq_of_lt (hvalid _)] at hval
    exact Char.toNat_inj.mp hval
  exact String.toList_inj.mp (List.map_injective_iff.mpr hchars h)

/-- A number is written in digits. -/
theorem mem_pyStr_toString {n : Nat} {c : CodePoint} (h : c ∈ pyStr (toString n)) :
    0x30 ≤ c.val ∧ c.val ≤ 0x39 := by
  obtain ⟨d, hd, rfl⟩ := List.mem_map.mp h
  have hdigit : d ∈ Nat.toDigits 10 n := by simpa using hd
  have hrange : 0x30 ≤ d.toNat ∧ d.toNat ≤ 0x39 := Char.isDigit_iff_toNat.mp
    (Nat.isDigit_of_mem_toDigits (by decide) (by decide) hdigit)
  rw [Fin.val_ofNat, Nat.mod_eq_of_lt (by omega)]
  exact hrange

/-- A reply names one turn. -/
theorem Says.unique {n n' : Nat} {reply : PyStr} (h : Says n reply) (h' : Says n' reply) :
    n = n' := by
  obtain ⟨size, rfl⟩ := h
  obtain ⟨size', h'⟩ := h'
  -- the number ends at the semicolon
  have hread : ∀ n size, ((replyOn n size).drop 21).takeWhile (fun c => c.val ≤ 0x39)
      = pyStr (toString n) := by
    intro n size
    have hdrop : (replyOn n size).drop 21 = pyStr (toString n) ++ (pyStr "; I have "
        ++ pyStr (toString size) ++ pyStr " bytes of state)") := by
      rw [replyOn, List.append_assoc, List.append_assoc, List.append_assoc,
        List.drop_left' (by decide)]
      simp only [List.append_assoc]
    have hstop : (pyStr "; I have " ++ pyStr (toString size)
        ++ pyStr " bytes of state)").takeWhile (fun c => c.val ≤ 0x39) = [] := rfl
    rw [hdrop, List.takeWhile_append_of_pos, hstop, List.append_nil]
    intro c hc
    exact decide_eq_true (mem_pyStr_toString hc).2
  have htext : pyStr (toString n) = pyStr (toString n') := by
    rw [← hread n size, h', hread n' size']
  have hdigits := congrArg String.toList (pyStr_inj htext)
  have hnumber := congrArg (fun ds => Nat.ofDigitChars 10 ds 0) hdigits
  simpa [Nat.toString_eq_ofList_toDigits] using hnumber

/-- A reply has no turns in it. -/
theorem turnsIn_reply {n : Nat} {reply : PyStr} (h : Says n reply) :
    turnsIn (pyStr "assistant:" ++ reply) = 0 := by
  obtain ⟨size, rfl⟩ := h
  have hcolon : Fin.ofNat 0x110000 0x3A ∉ replyOn n size := by
    intro hmem
    simp only [replyOn, List.mem_append] at hmem
    rcases hmem with (((hmem | hmem) | hmem) | hmem) | hmem
    · exact absurd hmem (by decide)
    · exact absurd (mem_pyStr_toString hmem).2 (by decide)
    · exact absurd hmem (by decide)
    · exact absurd (mem_pyStr_toString hmem).2 (by decide)
    · exact absurd hmem (by decide)
  obtain ⟨rest, hrest⟩ : ∃ rest, replyOn n size = Fin.ofNat 0x110000 0x28 :: rest := ⟨_, rfl⟩
  rw [hrest] at hcolon ⊢
  have hzero : turnsIn (pyStr "assistant:") = 0 := by decide
  rw [turnsIn_append_cons (by decide), hzero, Nat.zero_add]
  exact Occurrences.countFrom_eq_zero (by decide) fun h => hcolon (List.mem_cons_of_mem _ h)

/-- What a message adds to the count. -/
def turnOf (message : PyStr) : Nat := 1 + turnsIn message

/-- **A turn is counted once**, in the reply and in the history behind it. -/
theorem extendHistory_turns (message history : PyStr) :
    Says (turnsIn history + turnOf message) (extendHistory message history).1 ∧
      turnsIn (extendHistory message history).2 = turnsIn history + turnOf message := by
  let asked := (if history = [] then [] else history ++ pyStr "\n") ++ pyStr "user:" ++ message
  have hasked : turnsIn asked = turnsIn history + turnOf message := by
    by_cases hempty : history = []
    · subst hempty
      exact (turnsIn_user message).trans (Nat.zero_add _).symm
    · have hsplit : asked = history ++ Fin.ofNat _ 0x0A :: (pyStr "user:" ++ message) := by
        simp only [asked, if_neg hempty, List.append_assoc]
        rfl
      rw [hsplit, turnsIn_append_cons (by decide), turnsIn_user, turnOf]
  have hnames : Says (turnsIn history + turnOf message) (extendHistory message history).1 :=
    ⟨asked.length, congrArg (replyOn · asked.length) hasked⟩
  refine ⟨hnames, ?_⟩
  have hsplit : (extendHistory message history).2 = asked ++ Fin.ofNat _ 0x0A ::
      (pyStr "assistant:" ++ (extendHistory message history).1) :=
    List.append_assoc _ _ _
  rw [hsplit, turnsIn_append_cons (by decide), turnsIn_reply hnames, hasked, Nat.add_zero]

/-- A state the adapter's model reads as a history with so many turns. -/
def HoldsTurns (n : Nat) (state : Bytes) : Prop :=
  ∃ history, readState state = .ok history ∧ turnsIn history = n

theorem holdsTurns_nil : HoldsTurns 0 [] := ⟨[], rfl, rfl⟩

/-- One run of the adapter's model, kept by a server that remembers. -/
theorem remember_turns {message reply : PyStr} {prior newState : Bytes} {n : Nat}
    (hprior : HoldsTurns n prior)
    (h : remember runModel message prior = .ok (reply, newState)) :
    Says (n + turnOf message) reply ∧ HoldsTurns (n + turnOf message) newState := by
  obtain ⟨history, hread, rfl⟩ := hprior
  obtain ⟨out, hmodel, hrest⟩ := Except.bind_eq_ok.mp h
  obtain ⟨-, -, hreturn⟩ := Except.bind_eq_ok.mp hrest
  obtain rfl : out = (reply, newState) := Except.pure_eq_ok.mp hreturn
  obtain ⟨history', hread', rfl, hnew⟩ := runModel_ok hmodel
  obtain rfl := Except.ok.inj (hread.symm.trans hread')
  obtain ⟨hnames, hturns⟩ := extendHistory_turns message history
  exact ⟨hnames, _, hnew, hturns⟩

/-! ## 2. Transcripts -/

theorem turnsIn_cons {c : CodePoint} (hc : c ∉ pyStr "user:") (text : PyStr) :
    turnsIn (c :: text) = turnsIn text :=
  (turnsIn_append_cons hc [] text).trans (Nat.zero_add _)

/-- What an entry of a transcript is replayed as. -/
def entryText (entry : Role × PyStr) : PyStr := entry.1.text ++ pyStr ":" ++ entry.2

theorem turnsIn_entryText_user (message : PyStr) :
    turnsIn (entryText (.user, message)) = turnOf message := turnsIn_user message

theorem turnsIn_entryText_assistant {n : Nat} {reply : PyStr} (h : Says n reply) :
    turnsIn (entryText (.assistant, reply)) = 0 := turnsIn_reply h

/-- **A replayed transcript has the turns of its entries.** -/
theorem turnsIn_replay (transcript : List (Role × PyStr)) :
    turnsIn (replay transcript) = (transcript.map fun entry => turnsIn (entryText entry)).sum := by
  induction transcript with
  | nil => rfl
  | cons entry transcript ih =>
    cases transcript with
    | nil => simp [replay, entryText, List.intercalate]
    | cons entry' transcript =>
      have hsplit : replay (entry :: entry' :: transcript) = entryText entry ++ Fin.ofNat _ 0x20 ::
          Fin.ofNat _ 0x7C :: Fin.ofNat _ 0x20 :: replay (entry' :: transcript) := rfl
      rw [hsplit, turnsIn_append_cons (by decide), turnsIn_cons (by decide),
        turnsIn_cons (by decide), ih]
      simp

theorem turnsIn_replay_append (transcript : List (Role × PyStr)) (entry : Role × PyStr) :
    turnsIn (replay (transcript ++ [entry]))
      = turnsIn (replay transcript) + turnsIn (entryText entry) := by
  simp [turnsIn_replay]

/-! ## 3. One turn -/

/-- A turn of a client: the fingerprint of the model it was taken with, and its message. -/
structure Turn where
  memh : Bytes
  message : PyStr

/-- The model was the same for all of them. -/
def Steady (turns : List Turn) : Prop := ∀ t ∈ turns, ∀ t' ∈ turns, t.memh = t'.memh

instance Steady.decidable : DecidablePred Steady := fun turns =>
  inferInstanceAs (Decidable (∀ t ∈ turns, ∀ t' ∈ turns, t.memh = t'.memh))

/-- What the messages of some turns add to the count. -/
def spoken (turns : List Turn) : Nat := (turns.map fun t => turnOf t.message).sum

/-- **The number of the last of some turns.** -/
def turnNumber (turns : List Turn) : Nat := spoken turns + if Steady turns then 0 else 1

theorem spoken_append (turns : List Turn) (t : Turn) :
    spoken (turns ++ [t]) = spoken turns + turnOf t.message := by simp [spoken]

theorem turnNumber_singleton (t : Turn) : turnNumber [t] = turnOf t.message := by
  have hsteady : Steady [t] := by simp [Steady]
  rw [turnNumber, if_pos hsteady]
  simp [spoken]

/-- A turn with the model of the turn before. -/
theorem turnNumber_resumed {turns : List Turn} {last t : Turn} (hlast : last ∈ turns)
    (h : last.memh = t.memh) : turnNumber (turns ++ [t]) = turnNumber turns + turnOf t.message := by
  have hsteady : Steady (turns ++ [t]) ↔ Steady turns := by
    simp only [Steady, List.mem_append, List.mem_singleton]
    constructor
    · exact fun hall x hx y hy => hall x (.inl hx) y (.inl hy)
    · rintro hall x (hx | rfl) y (hy | rfl)
      · exact hall x hx y hy
      · exact (hall x hx last hlast).trans h
      · exact h.symm.trans (hall last hlast y hy)
      · rfl
  rw [turnNumber, turnNumber, spoken_append]
  simp only [hsteady]
  omega

/-- A turn with another. -/
theorem turnNumber_rebuilt {turns : List Turn} {last t : Turn} (hlast : last ∈ turns)
    (h : last.memh ≠ t.memh) : turnNumber (turns ++ [t]) = 1 + spoken (turns ++ [t]) := by
  have hsteady : ¬ Steady (turns ++ [t]) := fun hall =>
    h (hall last (List.mem_append_left _ hlast) t (List.mem_append_right _ List.mem_cons_self))
  rw [turnNumber, if_neg hsteady, Nat.add_comm]

/-- What is remembered of a client after some turns that were all answered. -/
structure Session.Counts (turns : List Turn) (s : Session) : Prop where
  transcript : turnsIn (replay s.transcript) = spoken turns
  fresh : turns = [] → s.memory = none
  holds : ∀ past t, turns = past ++ [t] → ∃ state, s.memory = some (t.memh, state) ∧
    HoldsTurns (turnNumber turns) state

theorem Session.new_counts : Session.new.Counts [] where
  transcript := rfl
  fresh := fun _ => rfl
  holds := fun past t h => absurd h (by simp)

/-- The model was run on so many turns, and answered. -/
theorem Session.Counts.settle {turns : List Turn} {t : Turn} {asked : Session}
    (hasked : turnsIn (replay asked.transcript) = spoken (turns ++ [t])) {message : PyStr}
    {prior : Bytes} {n : Nat} (hprior : HoldsTurns n prior)
    (hnumber : turnNumber (turns ++ [t]) = n + turnOf message) {reply : PyStr}
    (hanswer : (asked.settle t.memh (remember runModel message prior)).2 = .ok reply) :
    Says (turnNumber (turns ++ [t])) reply ∧
      (asked.settle t.memh (remember runModel message prior)).1.Counts (turns ++ [t]) := by
  cases hremember : remember runModel message prior with
  | error e =>
    rw [hremember] at hanswer
    exact absurd hanswer (by simp [Session.settle])
  | ok out =>
    rw [hremember] at hanswer
    obtain rfl : out.1 = reply := Except.ok.inj hanswer
    obtain ⟨hnames, hstate⟩ := remember_turns hprior hremember
    rw [← hnumber] at hnames hstate
    refine ⟨hnames, ?_, fun h => absurd h (by simp), ?_⟩
    · show turnsIn (replay (asked.transcript ++ [(.assistant, out.1)])) = _
      rw [turnsIn_replay_append, turnsIn_entryText_assistant hnames, hasked, Nat.add_zero]
    · intro past t' h
      obtain ⟨-, hlast⟩ := List.append_inj' h rfl
      obtain rfl := (List.cons.inj hlast).1
      exact ⟨out.2, rfl, hstate⟩

/-- **One answered turn**: its number, and what is remembered after it. -/
theorem Session.Counts.say {turns : List Turn} {s : Session} (h : s.Counts turns) {t : Turn}
    {reply : PyStr} (hanswer : (s.say runModel t.memh t.message).2 = .ok reply) :
    Says (turnNumber (turns ++ [t])) reply ∧
      (s.say runModel t.memh t.message).1.Counts (turns ++ [t]) := by
  have hasked : turnsIn (replay (s.transcript ++ [(.user, t.message)])) = spoken (turns ++ [t]) := by
    rw [turnsIn_replay_append, turnsIn_entryText_user, h.transcript, spoken_append]
  rcases List.eq_nil_or_concat' turns with rfl | ⟨past, last, rfl⟩
  · have hnumber : turnNumber ([] ++ [t]) = 0 + turnOf t.message := by
      rw [List.nil_append, turnNumber_singleton, Nat.zero_add]
    rw [Session.say, h.fresh rfl] at hanswer ⊢
    exact Session.Counts.settle hasked holdsTurns_nil hnumber hanswer
  · have hlast : last ∈ past ++ [last] := List.mem_append_right _ List.mem_cons_self
    obtain ⟨state, hmemory, hstate⟩ := h.holds past last rfl
    rw [Session.say, hmemory] at hanswer ⊢
    by_cases hsame : last.memh = t.memh
    · simp only [if_pos hsame] at hanswer ⊢
      exact Session.Counts.settle hasked hstate (turnNumber_resumed hlast hsame) hanswer
    · simp only [if_neg hsame] at hanswer ⊢
      refine Session.Counts.settle hasked holdsTurns_nil ?_ hanswer
      rw [turnNumber_rebuilt hlast hsame, ← hasked, Nat.zero_add, turnOf]

/-! ## 4. Whole runs -/

section World

variable {P : Platform} {κ : Type} [DecidableEq κ]

/-- The turns a client takes in a run that starts with this model. -/
def turnsOf (k : κ) : (memh : Bytes) → List (WorldInput P κ) → List Turn
  | _, [] => []
  | memh, .say k' message _ _ :: inputs =>
    if k' = k then ⟨memh, message⟩ :: turnsOf k memh inputs else turnsOf k memh inputs
  | memh, .stranger _ _ :: inputs => turnsOf k memh inputs
  | _, .updateModel manifest :: inputs => turnsOf k manifest.memh inputs

/-- What a client is told. -/
def answersTo (k : κ) (told : List (Option (κ × Except ServerExc PyStr))) :
    List (Except ServerExc PyStr) :=
  told.filterMap fun answer => answer.bind fun a => if a.1 = k then some a.2 else none

theorem answersTo_cons_self (k : κ) (r : Except ServerExc PyStr)
    (told : List (Option (κ × Except ServerExc PyStr))) :
    answersTo k (some (k, r) :: told) = r :: answersTo k told := by
  simp [answersTo]

theorem answersTo_cons_of_ne {k k' : κ} (h : k' ≠ k) (r : Except ServerExc PyStr)
    (told : List (Option (κ × Except ServerExc PyStr))) :
    answersTo k (some (k', r) :: told) = answersTo k told := by
  simp [answersTo, h]

/-- **The run lemma**: as long as every turn is answered, the answers name them. -/
theorem Sessions.run_turns (k : κ) (inputs : List (WorldInput P κ)) :
    ∀ {R : Sessions κ} {before : List Turn}, (R.sessions k).Counts before → ∀ {i : Nat} {t : Turn},
      (turnsOf k R.memh inputs)[i]? = some t →
      (∀ r ∈ (answersTo k ((rememberingWorld P κ runModel).run R inputs).2).take (i + 1), r.isOk) →
      ∃ reply, (answersTo k ((rememberingWorld P κ runModel).run R inputs).2)[i]? = some (.ok reply)
        ∧ Says (turnNumber (before ++ (turnsOf k R.memh inputs).take (i + 1))) reply := by
  induction inputs with
  | nil =>
    intro R before _ i t ht
    exact absurd ht (by simp [turnsOf])
  | cons input inputs ih =>
    intro R before h i t ht hanswered
    cases input with
    | say k' message draw retry =>
      -- the answer of this turn, and the sessions after it
      let turn := (R.sessions k').say runModel R.memh message
      have hrun : ((rememberingWorld P κ runModel).run R
          (.say k' message draw retry :: inputs)).2 = some (k', turn.2) ::
            ((rememberingWorld P κ runModel).run ⟨R.memh, Function.update R.sessions k' turn.1⟩
              inputs).2 := rfl
      rw [hrun] at hanswered ⊢
      by_cases hk : k' = k
      · subst hk
        have hturns : turnsOf k' R.memh (.say k' message draw retry :: inputs)
            = ⟨R.memh, message⟩ :: turnsOf k' R.memh inputs := if_pos rfl
        rw [hturns] at ht ⊢
        rw [answersTo_cons_self, List.take_succ_cons] at hanswered
        rw [answersTo_cons_self, List.take_succ_cons]
        obtain ⟨hok, hrest⟩ := List.forall_mem_cons.mp hanswered
        obtain ⟨reply, hreply⟩ : ∃ reply, turn.2 = .ok reply := by
          cases hresult : turn.2 with
          | error e =>
            rw [hresult] at hok
            exact absurd hok (by simp [Except.isOk, Except.toBool])
          | ok reply => exact ⟨reply, rfl⟩
        obtain ⟨hnames, hcounts⟩ := h.say (t := ⟨R.memh, message⟩) hreply
        cases i with
        | zero => exact ⟨reply, congrArg some hreply, hnames⟩
        | succ i =>
          have hself : (Function.update R.sessions k' turn.1 k').Counts
              (before ++ [⟨R.memh, message⟩]) := by
            rw [Function.update_self]
            exact hcounts
          rw [List.append_cons]
          exact ih (R := ⟨R.memh, Function.update R.sessions k' turn.1⟩) hself ht hrest
      · have hturns : turnsOf k R.memh (.say k' message draw retry :: inputs)
            = turnsOf k R.memh inputs := if_neg hk
        rw [hturns] at ht ⊢
        rw [answersTo_cons_of_ne hk] at hanswered ⊢
        have hother : (Function.update R.sessions k' turn.1 k).Counts before := by
          rw [Function.update_of_ne (Ne.symm hk)]
          exact h
        exact ih (R := ⟨R.memh, Function.update R.sessions k' turn.1⟩) hother ht hanswered
    | stranger request draw => exact ih h ht hanswered
    | updateModel manifest => exact ih (R := ⟨manifest.memh, R.sessions⟩) h ht hanswered

/-- **No turn is lost, and none is counted twice.**  In every run of the adapter, whatever the
order of turns, updates and strangers' requests, each answer to a client whose turns were all
answered so far names its turn, and no other. -/
theorem turns_counted (hcorrect : P.AeadCorrect) (htag : P.AeadTag) (S : Server P)
    (inputs : List (WorldInput P κ))
    (hsha : P.Sha3CollisionFree
      (worldLog ((world P κ runModel).run ⟨S, fun _ => Client.new⟩ inputs).2))
    (hcom : P.ComHalfCollisionFree
      (worldLog ((world P κ runModel).run ⟨S, fun _ => Client.new⟩ inputs).2))
    (k : κ) {i : Nat} {t : Turn} (ht : (turnsOf k S.manifest.memh inputs)[i]? = some t)
    (hanswered : ∀ r ∈ (answersTo k (((world P κ runModel).run ⟨S, fun _ => Client.new⟩
      inputs).2.map Observed.told)).take (i + 1), r.isOk) :
    ∃ reply, (answersTo k (((world P κ runModel).run ⟨S, fun _ => Client.new⟩
        inputs).2.map Observed.told))[i]? = some (.ok reply) ∧
      ∀ n, Says n reply ↔ n = turnNumber ((turnsOf k S.manifest.memh inputs).take (i + 1)) := by
  have hstart : World.Tracks [] (⟨S, fun _ => Client.new⟩ : World P κ)
      ⟨S.manifest.memh, fun _ => Session.new⟩ := ⟨rfl, fun _ => Client.new_tracks _⟩
  rw [← hstart.run hcorrect htag inputs hsha hcom] at hanswered ⊢
  obtain ⟨reply, hreply, hnames⟩ := Sessions.run_turns k inputs
    (R := ⟨S.manifest.memh, fun _ => Session.new⟩) Session.new_counts ht hanswered
  exact ⟨reply, hreply, fun n => ⟨fun h => h.unique hnames, fun h => h ▸ hnames⟩⟩

end World

/-- The third turn of a client whose model changed before it is the fourth its model counts. -/
theorem toyTurns_counted :
    ∃ reply, (answersTo true (((world toy Bool runModel).run ⟨toyServer, fun _ => Client.new⟩
      toyTurns).2.map Observed.told))[2]? = some (.ok reply) ∧ ∀ n, Says n reply ↔ n = 4 := by
  have hnumber : turnNumber ((turnsOf true toyServer.manifest.memh toyTurns).take 3) = 4 := by
    decide +kernel
  have ht : (turnsOf true toyServer.manifest.memh toyTurns)[2]?
      = some ⟨toyUpdated.memh, [0x6b]⟩ := rfl
  rw [← hnumber]
  refine turns_counted toy_aeadExact.correct toy_aeadTag toyServer toyTurns ?_ ?_ true ht ?_
  · decide +kernel
  · decide +kernel
  · decide +kernel

/-! ## 5. A rebuild that fails -/

/-- A continuation that the server resumes from: none, or a token of its present model. -/
def Server.Resumable {P : Platform} (S : Server P) (continuation : Option PyStr) : Prop :=
  Server.NoContinuation continuation ∨ ∃ (draw : Draw) (state : Bytes),
    state.length ≤ MAX_STATE ∧ continuation = some (b64encode (S.binding.sealed P draw state))

section Forgets

variable {P : Platform}

theorem Server.Resumable.resume (hcorrect : P.AeadCorrect) (htag : P.AeadTag) {S : Server P}
    {continuation : Option PyStr} (h : S.Resumable continuation) :
    ∃ prior, (S.resume continuation).result = .ok (.ok prior) := by
  rcases h with hnone | ⟨draw, state, hle, rfl⟩
  · refine ⟨[], ?_⟩
    rw [Server.resume_of_none hnone]
    rfl
  · exact ⟨state, Server.resume_of_sealed hcorrect htag rfl rfl draw hle⟩

/-- What is kept of a conversation is in the continuation: two clients with the same one, that
the server resumes from, are told the same, whatever their transcripts are. -/
theorem Client.say_eq_of_continuation (hcorrect : P.AeadCorrect) (htag : P.AeadTag) {S : Server P}
    {client twin : Client} (hsame : twin.continuation = client.continuation)
    (h : S.Resumable client.continuation) (model : Model) (message : PyStr) (draw retry : Draw) :
    (twin.say model S message draw retry).2 = (client.say model S message draw retry).2 ∧
      (twin.say model S message draw retry).1.continuation
        = (client.say model S message draw retry).1.continuation ∧
      S.Resumable (client.say model S message draw retry).1.continuation := by
  obtain ⟨prior, hprior⟩ := h.resume hcorrect htag
  have hprior' : (S.resume twin.continuation).result = .ok (.ok prior) := by rw [hsame, hprior]
  rw [Client.say_of_prior htag hprior, Client.say_of_prior htag hprior', hsame]
  rcases S.answer_cases htag model message draw prior with ⟨e, -, hresult⟩ |
    ⟨reply, newState, -, hle, -, hresult⟩
  · rw [hresult]
    exact ⟨rfl, hsame, h⟩
  · rw [hresult]
    exact ⟨rfl, rfl, .inr ⟨draw, newState, hle, rfl⟩⟩

/-- A turn that was refused and then raised leaves the client without a continuation. -/
theorem Client.continuation_of_refused {S : Server P} {client : Client} {model : Model}
    {message : PyStr} {draw retry : Draw} {warning : String} {e : ServerExc}
    (hrefused : (S.resume client.continuation).result = .ok (.error warning))
    (hraised : (client.say model S message draw retry).2.result = .error e) :
    (client.say model S message draw retry).1.continuation = none := by
  rw [Client.say_of_refused hrefused] at hraised ⊢
  dsimp only at hraised ⊢
  match hresult : (S.answer model (replay (client.ask message).transcript) retry []).result with
  | .error e' => rfl
  | .ok ⟨.stateEpochMismatch, _⟩ => rfl
  | .ok ⟨.reply reply continuation, _⟩ =>
    rw [hresult] at hraised
    exact absurd hraised (by simp [Client.finish])

variable {κ : Type} [DecidableEq κ]

/-- Two worlds that differ in the transcript of one client only. -/
structure World.Twins (k : κ) (W W' : World P κ) : Prop where
  server : W'.server = W.server
  others : ∀ k', k' ≠ k → W'.clients k' = W.clients k'
  continuation : (W'.clients k).continuation = (W.clients k).continuation
  resumable : W.server.Resumable (W.clients k).continuation

/-- An input that leaves the model as it is. -/
def WorldInput.KeepsModel : WorldInput P κ → Prop
  | .updateModel _ => False
  | _ => True

theorem World.Twins.step (hcorrect : P.AeadCorrect) (htag : P.AeadTag) {model : Model} {k : κ}
    {W W' : World P κ} (h : World.Twins k W W') {input : WorldInput P κ}
    (hinput : input.KeepsModel) :
    World.Twins k ((world P κ model).step W input).1 ((world P κ model).step W' input).1 ∧
      ((world P κ model).step W' input).2 = ((world P κ model).step W input).2 := by
  obtain ⟨S, clients⟩ := W
  obtain ⟨S', clients'⟩ := W'
  obtain ⟨rfl, hothers, hcontinuation, hresumable⟩ := h
  cases input with
  | say k' message draw retry =>
    by_cases hk : k' = k
    · subst hk
      obtain ⟨htold, hkept, hgoes⟩ := Client.say_eq_of_continuation hcorrect htag hcontinuation
        hresumable model message draw retry
      refine ⟨⟨rfl, ?_, ?_, ?_⟩, ?_⟩
      · intro k'' hk''
        simpa only [world, Function.update_of_ne hk''] using hothers k'' hk''
      · simpa only [world, Function.update_self] using hkept
      · simpa only [world, Function.update_self] using hgoes
      · simp only [world, htold]
    · have hsame : clients' k' = clients k' := hothers k' hk
      refine ⟨⟨rfl, ?_, ?_, ?_⟩, ?_⟩
      · intro k'' hk''
        by_cases hk' : k'' = k'
        · subst hk'
          simp only [world, Function.update_self, hsame]
        · simpa only [world, Function.update_of_ne hk'] using hothers k'' hk''
      · simpa only [world, Function.update_of_ne (Ne.symm hk)] using hcontinuation
      · simpa only [world, Function.update_of_ne (Ne.symm hk)] using hresumable
      · simp only [world, hsame]
  | stranger request draw => exact ⟨⟨rfl, hothers, hcontinuation, hresumable⟩, rfl⟩
  | updateModel manifest => exact hinput.elim

theorem World.Twins.run (hcorrect : P.AeadCorrect) (htag : P.AeadTag) {model : Model} {k : κ}
    {inputs : List (WorldInput P κ)} : ∀ {W W' : World P κ}, World.Twins k W W' →
      (∀ input ∈ inputs, input.KeepsModel) →
      ((world P κ model).run W' inputs).2 = ((world P κ model).run W inputs).2 := by
  induction inputs with
  | nil =>
    intro W W' _ _
    rfl
  | cons input inputs ih =>
    intro W W' h hinputs
    obtain ⟨hinput, hinputs⟩ := List.forall_mem_cons.mp hinputs
    have hstep : World.Twins k ((world P κ model).step W input).1
        ((world P κ model).step W' input).1 ∧
          ((world P κ model).step W' input).2 = ((world P κ model).step W input).2 :=
      h.step hcorrect htag hinput
    rw [Machine.run_cons, Machine.run_cons, hstep.2, ih hstep.1 hinputs]

/-- **A rebuild that fails loses the conversation.**  When a turn is refused and its retry raises,
all that follows up to the next update is what it would be if the client were new: it is never
refused, and its transcript is not replayed. -/
theorem failed_rebuild_forgets (hcorrect : P.AeadCorrect) (htag : P.AeadTag) {model : Model}
    {W : World P κ} {k : κ} {message : PyStr} {draw retry : Draw} {warning : String}
    {e : ServerExc}
    (hrefused : (W.server.resume (W.clients k).continuation).result = .ok (.error warning))
    (hraised : ((W.clients k).say model W.server message draw retry).2.result = .error e)
    {inputs : List (WorldInput P κ)} (hinputs : ∀ input ∈ inputs, input.KeepsModel) :
    ((world P κ model).run ((world P κ model).step W (.say k message draw retry)).1 inputs).2
      = ((world P κ model).run ⟨W.server, Function.update W.clients k Client.new⟩ inputs).2 := by
  have hnone := Client.continuation_of_refused hrefused hraised
  have htwins : World.Twins k ((world P κ model).step W (.say k message draw retry)).1
      ⟨W.server, Function.update W.clients k Client.new⟩ := by
    refine ⟨rfl, ?_, ?_, ?_⟩
    · intro k' hk
      simp only [world, Function.update_of_ne hk]
    · simp only [world, Function.update_self, hnone]
      rfl
    · simp only [world, Function.update_self, hnone]
      exact .inl (.inl rfl)
  exact (htwins.run hcorrect htag hinputs).symm

end Forgets

/-- A client that has said something that cannot be encoded, and whose model has changed. -/
def toyPoisoned : World toy Bool :=
  ((world toy Bool runModel).run ⟨toyServer, fun _ => Client.new⟩
    [.say true [0x68] toyDraw toyDraw, .say true [0xD800] (toyCarrying toyToken 0x23).draw toyDraw,
      .updateModel toyUpdated]).1

/-- Its next turn raises, and the one after that is a first turn. -/
theorem toyPoisoned_forgets :
    ((world toy Bool runModel).run ((world toy Bool runModel).step toyPoisoned
        (.say true [0x69] (toyCarrying toyToken 0x24).draw toyDraw)).1
      [.say true [0x6a] (toyCarrying toyToken 0x25).draw toyDraw]).2
      = ((world toy Bool runModel).run ⟨toyPoisoned.server,
          Function.update toyPoisoned.clients true Client.new⟩
        [.say true [0x6a] (toyCarrying toyToken 0x25).draw toyDraw]).2 := by
  have hrefused : (toyPoisoned.server.resume (toyPoisoned.clients true).continuation).result
      = .ok (.error (toyServer.updateModel toyUpdated).warning) := by decide +kernel
  have hraised : ((toyPoisoned.clients true).say runModel toyPoisoned.server [0x69]
      (toyCarrying toyToken 0x24).draw toyDraw).2.result
        = .error (.py .unicodeEncodeError) := by decide +kernel
  exact failed_rebuild_forgets toy_aeadExact.correct toy_aeadTag hrefused hraised
    (by simp [WorldInput.KeepsModel])

end Sce
