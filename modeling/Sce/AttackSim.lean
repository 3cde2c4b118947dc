/-
# Guessing the secret

The two loops of `examples/attack_sim.py`.  Somebody holds an envelope, the manifest it was sealed
under, which is public, and its context.  The first loop counts how many of a list of guessed
secrets open the envelope.  The second knows that the secret is the hash of a six-digit number and
tries the numbers in order until one opens it.

* `bruteForce_counts`: the count is that of the true secret among the guesses, so the simulation's
  `successes == 0` holds exactly if nobody guessed it.  The simulation guesses 32 bytes each time;
  a guess of fewer than 16 would end the loop, for the check on the secret raises what the loop
  does not catch.
* `crack_finds`: the second loop stops at the true number, having tried no other after it.

Both rest on the commitment alone and on hashes that did not collide while the loops ran.
-/
import Sce.FailClosed

namespace Sce

variable {P : Platform}

/-! ## 1. The loops -/

section Attack

variable (P) (sealed : Bytes) (M : Manifest P) (context : Bytes)

/-- One attempt: `StateSealMismatch` is caught, and anything else is not. -/
def attempt (guess : Bytes) : Py Bool :=
  (unsealState P (.of (.bytes sealed)) (.of M) (.of guess) (.of 0) (.of context)
    >>= fun _ => return true).handle fun
      | .stateSealMismatch _ => return false
      | e => .fail e

/-- The loop of the first attack. -/
def bruteForce : List Bytes → (successes : Nat) → Py Nat
  | [], successes => return successes
  | guess :: guesses, successes => do
    let opened ← attempt P sealed M context guess
    bruteForce guesses (if opened then successes + 1 else successes)

/-- `b"master-pin-"` -/
def PIN_LABEL : Bytes := [0x6d, 0x61, 0x73, 0x74, 0x65, 0x72, 0x2d, 0x70, 0x69, 0x6e, 0x2d]

/-- `f"{pin:06d}"` -/
def pinDigits (pin : Nat) : List Char := List.leftpad 6 '0' (Nat.toDigits 10 pin)

/-- `f"master-pin-{pin:06d}".encode()` -/
def pinText (pin : Nat) : Bytes :=
  PIN_LABEL ++ (pinDigits pin).map fun c => UInt8.ofNat c.toNat

/-- `weak_secret` -/
def weakSecret (pin : Nat) : Py Bytes := P.sha3 (pinText pin)

/-- The loop of the second attack: the number found, if any. -/
def crack : List Nat → Py (Option Nat)
  | [] => return none
  | pin :: pins => do
    let cand ← weakSecret P pin
    let opened ← attempt P sealed M context cand
    if opened then return some pin else crack pins

end Attack

/-! ## 2. Numbers and their texts -/

/-- A digit is read back from its byte. -/
theorem ofNat_toNat_of_mem {pin : Nat} {c : Char} (h : c ∈ pinDigits pin) :
    Char.ofNat (UInt8.ofNat c.toNat).toNat = c := by
  have hlt : c.toNat < 256 := by
    rcases List.mem_append.mp h with hpad | hdigit
    · rw [List.eq_of_mem_replicate hpad]
      decide
    · have hle := (Char.isDigit_iff_toNat.mp
        (Nat.isDigit_of_mem_toDigits (by decide) (by decide) hdigit)).2
      exact hle.trans_lt (by decide)
  rw [UInt8.toNat_ofNat', Nat.mod_eq_of_lt hlt, Char.ofNat_toNat]

/-- The padding does not change the number. -/
theorem ofDigitChars_pinDigits (pin : Nat) : Nat.ofDigitChars 10 (pinDigits pin) 0 = pin := by
  rw [pinDigits, List.leftpad, Nat.ofDigitChars_append, Nat.ofDigitChars_replicate_zero,
    Nat.mul_zero, Nat.ofDigitChars_ten_toDigits]

/-- **Distinct numbers have distinct texts.** -/
theorem pinText_inj {pin pin' : Nat} (h : pinText pin = pinText pin') : pin = pin' := by
  have hread : ∀ n, ((pinDigits n).map fun c => UInt8.ofNat c.toNat).map
      (fun b => Char.ofNat b.toNat) = pinDigits n := by
    intro n
    rw [List.map_map]
    exact (List.map_congr_left fun c hc => ofNat_toNat_of_mem hc).trans (List.map_id _)
  have hdigits : pinDigits pin = pinDigits pin' := by
    rw [← hread pin, List.append_cancel_left h, hread]
  rw [← ofDigitChars_pinDigits pin, hdigits, ofDigitChars_pinDigits]

/-! ## 3. One attempt -/

section Held

variable {b : Binding} {draw : Draw} {S : Bytes} {M : Manifest P} {context : Bytes}
  {log : List Event}

/-- An attempt asks for what an unseal asks for. -/
theorem attempt_log (sealed guess : Bytes) : (attempt P sealed M context guess).log
    = (unsealState P (.of (.bytes sealed)) (.of M) (.of guess) (.of 0) (.of context)).log := by
  unfold attempt Logged.handle
  cases hrun : (unsealState P (.of (.bytes sealed)) (.of M) (.of guess) (.of 0)
      (.of context)).result with
  | ok S => rw [Logged.bind_of_ok hrun]; simp
  | error e =>
    rw [Logged.bind_of_error hrun]
    cases e <;> simp

theorem attempt_of_ok {sealed guess S : Bytes}
    (h : (unsealState P (.of (.bytes sealed)) (.of M) (.of guess) (.of 0) (.of context)).result
      = .ok S) : (attempt P sealed M context guess).result = .ok true := by
  unfold attempt Logged.handle
  rw [Logged.bind_of_ok h]
  rfl

theorem attempt_of_mismatch {sealed guess : Bytes}
    (h : (unsealState P (.of (.bytes sealed)) (.of M) (.of guess) (.of 0) (.of context)).result
      = .error mismatch) : (attempt P sealed M context guess).result = .ok false := by
  unfold attempt Logged.handle
  rw [Logged.bind_of_error h]
  rfl

/-- A guess too short to be a secret is an error that the loop does not catch. -/
theorem attempt_short (draw : Draw) (htag : P.AeadTag)
    (hb : b.PresentedBy (.of M) (.of b.masterSecret) (.of 0) (.of context))
    (hS : S.length ≤ MAX_STATE) {guess : Bytes} (hguess : guess.length < 16) :
    ∃ message, (attempt P (b.sealed P draw S) M context guess).result
      = .error (.sceError message) := by
  obtain ⟨message, hsecret⟩ : ∃ message, requireSecret (.of guess)
      = .error (.sceError message) := by
    rw [requireSecret, if_pos hguess]
    exact ⟨_, rfl⟩
  have hV : Carrier.toBytes (.bytes (b.sealed P draw S)) = (b.envelope htag draw hS).bytes :=
    (b.envelope_bytes htag draw hS).symm
  have hrun : unsealState P (.of (.bytes (b.sealed P draw S))) (.of M) (.of guess) (.of 0)
      (.of context) = .fail (.sceError message) := by
    rw [unsealState, unsealStateWith_eq hb.toPresentedBy hV, deriveKeyMaterial, hsecret]
    rfl
  refine ⟨message, ?_⟩
  rw [attempt, hrun]
  rfl

/-- **An attempt on a sealed state succeeds exactly with its secret.** -/
theorem attempt_sealed (hcorrect : P.AeadCorrect) (htag : P.AeadTag)
    (hb : b.PresentedBy (.of M) (.of b.masterSecret) (.of 0) (.of context))
    (hS : S.length ≤ MAX_STATE) {guess : Bytes} (hguess : 16 ≤ guess.length)
    (hsha : P.Sha3CollisionFree log) (hcom : P.ComHalfCollisionFree log)
    (hsealed : b.sealLog P draw S ⊆ log)
    (hasked : (attempt P (b.sealed P draw S) M context guess).log ⊆ log) :
    (attempt P (b.sealed P draw S) M context guess).result = .ok (guess == b.masterSecret) ∧
      (decryptions (attempt P (b.sealed P draw S) M context guess).log).length = 1 := by
  have hb' : Binding.PresentedBy ⟨b.toEnvironment, guess, hguess⟩ (.of M) (.of guess) (.of 0)
      (.of context) := hb.toPresentedBy.binding hguess
  have hrun := unsealState_eq hb' (x := .bytes (b.sealed P draw S)) (V := b.envelope htag draw hS)
    (b.envelope_bytes htag draw hS).symm
  have hlog := congrArg Logged.log hrun
  rw [← attempt_log] at hlog
  refine ⟨?_, by rw [hlog]; rfl⟩
  by_cases hsecret : guess = b.masterSecret
  · subst hsecret
    rw [beq_self_eq_true]
    have hopen := Binding.opens_iff.mpr (b.envelope_opens hcorrect htag draw hS)
    exact attempt_of_ok ((congrArg Logged.result hrun).trans hopen)
  · rw [beq_eq_false_iff_ne.mpr hsecret]
    refine attempt_of_mismatch ((congrArg Logged.result hrun).trans ?_)
    have hne : b ≠ ⟨b.toEnvironment, guess, hguess⟩ := fun h =>
      hsecret (congrArg Binding.masterSecret h).symm
    refine Binding.release_of_ne rfl hne hsha hcom ?_ ?_ _
    · exact fun e he => hsealed (List.mem_append_left _ he)
    · rw [hlog] at hasked
      exact .of_unsealLog hasked

/-! ## 4. The loops -/

theorem decryptions_cons_sha3 (x : Bytes) (log : List Event) :
    decryptions (.sha3 x :: log) = decryptions log := rfl

/-- The first loop adds the number of right guesses, and makes one attempt for each guess. -/
theorem bruteForce_sealed (hcorrect : P.AeadCorrect) (htag : P.AeadTag)
    (hb : b.PresentedBy (.of M) (.of b.masterSecret) (.of 0) (.of context))
    (hS : S.length ≤ MAX_STATE) (hsha : P.Sha3CollisionFree log)
    (hcom : P.ComHalfCollisionFree log) (hsealed : b.sealLog P draw S ⊆ log) :
    ∀ (guesses : List Bytes) (successes : Nat), (∀ guess ∈ guesses, 16 ≤ guess.length) →
      (bruteForce P (b.sealed P draw S) M context guesses successes).log ⊆ log →
      (bruteForce P (b.sealed P draw S) M context guesses successes).result
          = .ok (successes + guesses.count b.masterSecret) ∧
        (decryptions (bruteForce P (b.sealed P draw S) M context guesses successes).log).length
          = guesses.length := by
  intro guesses
  induction guesses with
  | nil =>
    intro successes _ _
    simp [bruteForce, decryptions]
  | cons guess guesses ih =>
    intro successes hlengths hlog
    obtain ⟨hguess, hlengths⟩ := List.forall_mem_cons.mp hlengths
    have hasked : (attempt P (b.sealed P draw S) M context guess).log ⊆ log :=
      fun e he => hlog (Logged.mem_log_bind.mpr (.inl he))
    obtain ⟨hattempt, hone⟩ := attempt_sealed hcorrect htag hb hS hguess hsha hcom hsealed hasked
    rw [bruteForce, Logged.bind_of_ok hattempt] at hlog ⊢
    have hrest := ih (if (guess == b.masterSecret) = true then successes + 1 else successes)
      hlengths (fun e he => hlog (List.mem_append_right _ he))
    refine ⟨hrest.1.trans ?_, ?_⟩
    · rw [List.count_cons]
      split
      · exact congrArg Except.ok (by omega)
      · exact congrArg Except.ok (by omega)
    · rw [decryptions_append, List.length_append, hone, hrest.2, List.length_cons]
      omega

/-- A guess that is too short ends it, whatever was counted before. -/
theorem bruteForce_short (hcorrect : P.AeadCorrect) (htag : P.AeadTag)
    (hb : b.PresentedBy (.of M) (.of b.masterSecret) (.of 0) (.of context))
    (hS : S.length ≤ MAX_STATE) (hsha : P.Sha3CollisionFree log)
    (hcom : P.ComHalfCollisionFree log) (hsealed : b.sealLog P draw S ⊆ log) :
    ∀ (guesses : List Bytes) (successes : Nat), (∃ guess ∈ guesses, guess.length < 16) →
      (bruteForce P (b.sealed P draw S) M context guesses successes).log ⊆ log →
      ∃ message, (bruteForce P (b.sealed P draw S) M context guesses successes).result
        = .error (.sceError message) := by
  intro guesses
  induction guesses with
  | nil =>
    rintro successes ⟨guess, hmem, -⟩ _
    exact absurd hmem List.not_mem_nil
  | cons guess guesses ih =>
    intro successes hshort hlog
    by_cases hguess : 16 ≤ guess.length
    · have hlater : ∃ guess ∈ guesses, guess.length < 16 := by
        obtain ⟨short, hmem, hlt⟩ := hshort
        rcases List.mem_cons.mp hmem with rfl | hmem
        · omega
        · exact ⟨short, hmem, hlt⟩
      have hasked : (attempt P (b.sealed P draw S) M context guess).log ⊆ log :=
        fun e he => hlog (Logged.mem_log_bind.mpr (.inl he))
      have hattempt := (attempt_sealed hcorrect htag hb hS hguess hsha hcom hsealed hasked).1
      rw [bruteForce, Logged.bind_of_ok hattempt] at hlog ⊢
      exact ih _ hlater fun e he => hlog (List.mem_append_right _ he)
    · obtain ⟨message, hattempt⟩ := attempt_short draw htag hb hS (Nat.lt_of_not_le hguess)
      rw [bruteForce, Logged.bind_of_error hattempt]
      exact ⟨message, rfl⟩

/-- The second loop stops at the number the secret was made of. -/
theorem crack_sealed (hcorrect : P.AeadCorrect) (htag : P.AeadTag)
    (hb : b.PresentedBy (.of M) (.of b.masterSecret) (.of 0) (.of context))
    (hS : S.length ≤ MAX_STATE) (hsha : P.Sha3CollisionFree log)
    (hcom : P.ComHalfCollisionFree log) (hsealed : b.sealLog P draw S ⊆ log) {realPin : Nat}
    (hweak : b.masterSecret = P.sha3_256 (pinText realPin))
    (hpin : .sha3 (pinText realPin) ∈ log) :
    ∀ pins : List Nat, realPin ∈ pins → (crack P (b.sealed P draw S) M context pins).log ⊆ log →
      (crack P (b.sealed P draw S) M context pins).result = .ok (some realPin) ∧
        (decryptions (crack P (b.sealed P draw S) M context pins).log).length
          = pins.idxOf realPin + 1 := by
  intro pins
  induction pins with
  | nil =>
    intro hmem _
    exact absurd hmem List.not_mem_nil
  | cons pin pins ih =>
    intro hmem hlog
    have hguess : 16 ≤ (P.sha3_256 (pinText pin)).length := by
      rw [P.sha3_256_length]
      decide
    rw [crack, weakSecret, Platform.sha3, Logged.perform_bind] at hlog ⊢
    have hasked : (attempt P (b.sealed P draw S) M context (P.sha3_256 (pinText pin))).log ⊆ log :=
      fun e he => hlog (List.mem_cons_of_mem _ (Logged.mem_log_bind.mpr (.inl he)))
    obtain ⟨hattempt, hone⟩ := attempt_sealed hcorrect htag hb hS hguess hsha hcom hsealed hasked
    rw [Logged.bind_of_ok hattempt] at hlog ⊢
    by_cases hfound : pin = realPin
    · subst hfound
      rw [beq_iff_eq.mpr hweak.symm, if_pos rfl, List.idxOf_cons_self]
      refine ⟨rfl, ?_⟩
      rw [decryptions_cons_sha3, decryptions_append, List.length_append, hone]
      rfl
    · -- another number has another hash
      have hother : P.sha3_256 (pinText pin) ≠ b.masterSecret := by
        intro h
        have hevent : .sha3 (pinText pin) ∈ log := hlog List.mem_cons_self
        exact hfound (pinText_inj (hsha.eq hevent hpin (h.trans hweak)))
      rw [beq_eq_false_iff_ne.mpr hother, if_neg (by simp)] at hlog ⊢
      have hmem : realPin ∈ pins := (List.mem_cons.mp hmem).resolve_left (Ne.symm hfound)
      obtain ⟨hresult, hcount⟩ := ih hmem fun e he =>
        hlog (List.mem_cons_of_mem _ (List.mem_append_right _ he))
      refine ⟨hresult, ?_⟩
      rw [decryptions_cons_sha3, decryptions_append, List.length_append, hone, hcount,
        List.idxOf_cons_ne _ hfound]
      omega

end Held

/-! ## 5. The attacks -/

/-- **Only the secret opens it.**  A list of guesses at the secret of a sealed state has as many
successes as it has right guesses; the manifest and the context are no help.  A guess too short
to be a secret ends the loop with `SCEError`. -/
theorem bruteForce_counts (hcorrect : P.AeadCorrect) (htag : P.AeadTag) {draw : Draw}
    {S X : Bytes} {M : Manifest P} {secret context : Bytes}
    (hseal : (sealState P draw (.of S) (.of M) (.of secret) (.of 0) (.of context)).result = .ok X)
    {guesses : List Bytes}
    (hsha : P.Sha3CollisionFree
      ((sealState P draw (.of S) (.of M) (.of secret) (.of 0) (.of context)).log
        ++ (bruteForce P X M context guesses 0).log))
    (hcom : P.ComHalfCollisionFree
      ((sealState P draw (.of S) (.of M) (.of secret) (.of 0) (.of context)).log
        ++ (bruteForce P X M context guesses 0).log)) :
    ((∀ guess ∈ guesses, 16 ≤ guess.length) →
      (bruteForce P X M context guesses 0).result = .ok (guesses.count secret)) ∧
    ((∃ guess ∈ guesses, guess.length < 16) →
      ∃ message, (bruteForce P X M context guesses 0).result = .error (.sceError message)) := by
  obtain ⟨b, S', hperforms, rfl⟩ := SealCall.performs_of_ok (c := ⟨draw, .of S, .of M,
    .of secret, .of 0, .of context, none⟩) hseal
  obtain rfl : S = S' := Arg.of.inj hperforms.state
  have hb : b.PresentedBy (.of M) (.of secret) (.of 0) (.of context) := hperforms.presented
  obtain rfl : secret = b.masterSecret := Arg.of.inj hb.masterSecret
  have hlog : (sealState P draw (.of S) (.of M) (.of b.masterSecret) (.of 0) (.of context)).log
      = b.sealLog P draw S := congrArg Logged.log hperforms.run_eq
  rw [hlog] at hsha hcom
  constructor
  · intro hguesses
    have hcount := (bruteForce_sealed hcorrect htag hb hperforms.state_le hsha hcom
      (List.subset_append_left _ _) guesses 0 hguesses (List.subset_append_right _ _)).1
    rw [hcount, Nat.zero_add]
  · intro hshort
    exact bruteForce_short hcorrect htag hb hperforms.state_le hsha hcom
      (List.subset_append_left _ _) guesses 0 hshort (List.subset_append_right _ _)

/-- **A six-digit secret is found**, at its place among the numbers tried and after no others,
whatever the bound of the search above it. -/
theorem crack_finds (hcorrect : P.AeadCorrect) (htag : P.AeadTag) {draw : Draw} {S X : Bytes}
    {M : Manifest P} {context : Bytes} {realPin bound : Nat} (hbound : realPin < bound)
    (hseal : (weakSecret P realPin >>= fun secret =>
      sealState P draw (.of S) (.of M) (.of secret) (.of 0) (.of context)).result = .ok X)
    (hsha : P.Sha3CollisionFree
      ((weakSecret P realPin >>= fun secret =>
          sealState P draw (.of S) (.of M) (.of secret) (.of 0) (.of context)).log
        ++ (crack P X M context (List.range bound)).log))
    (hcom : P.ComHalfCollisionFree
      ((weakSecret P realPin >>= fun secret =>
          sealState P draw (.of S) (.of M) (.of secret) (.of 0) (.of context)).log
        ++ (crack P X M context (List.range bound)).log)) :
    (crack P X M context (List.range bound)).result = .ok (some realPin) ∧
      (decryptions (crack P X M context (List.range bound)).log).length = realPin + 1 := by
  have hweak : (weakSecret P realPin >>= fun secret => sealState P draw (.of S) (.of M)
      (.of secret) (.of 0) (.of context)) = ⟨.sha3 (pinText realPin) :: (sealState P draw (.of S)
        (.of M) (.of (P.sha3_256 (pinText realPin))) (.of 0) (.of context)).log,
        (sealState P draw (.of S) (.of M) (.of (P.sha3_256 (pinText realPin))) (.of 0)
          (.of context)).result⟩ := Logged.perform_bind _ _ _
  rw [hweak] at hseal hsha hcom
  obtain ⟨b, S', hperforms, rfl⟩ := SealCall.performs_of_ok (c := ⟨draw, .of S, .of M,
    .of (P.sha3_256 (pinText realPin)), .of 0, .of context, none⟩) hseal
  obtain rfl : S = S' := Arg.of.inj hperforms.state
  have hb : b.PresentedBy (.of M) (.of (P.sha3_256 (pinText realPin))) (.of 0) (.of context) :=
    hperforms.presented
  have hsecret : P.sha3_256 (pinText realPin) = b.masterSecret := Arg.of.inj hb.masterSecret
  have hlog : (sealState P draw (.of S) (.of M) (.of (P.sha3_256 (pinText realPin))) (.of 0)
      (.of context)).log = b.sealLog P draw S := congrArg Logged.log hperforms.run_eq
  rw [hlog] at hsha hcom
  rw [hsecret] at hb
  have hcrack := crack_sealed hcorrect htag hb hperforms.state_le hsha hcom
    (fun e he => List.mem_append_left _ (List.mem_cons_of_mem _ he)) hsecret.symm
    (List.mem_append_left _ List.mem_cons_self) (List.range bound) (List.mem_range.mpr hbound)
    (List.subset_append_right _ _)
  have hindex : (List.range bound).idxOf realPin = realPin := by
    have hget := List.nodup_range.idxOf_getElem realPin (by simpa using hbound : realPin <
      (List.range bound).length)
    rwa [List.getElem_range] at hget
  rw [hindex] at hcrack
  exact hcrack

/-- What is held, of a good secret and of a weak one. -/
def toyHeld : Bytes :=
  (sealState toy toyDraw (.of [0x01]) (.of toyManifest) (.of toySecret) (.of 0)
    (.of [0x63])).result.toOption.getD []

def toyWeaklyHeld : Bytes :=
  (weakSecret toy 2 >>= fun secret => sealState toy toyDraw (.of [0x01]) (.of toyManifest)
    (.of secret) (.of 0) (.of [0x63])).result.toOption.getD []

/-- Two wrong guesses and a right one; and a right one with a short one behind it. -/
theorem toyHeld_guessed :
    (bruteForce toy toyHeld toyManifest [0x63]
        [List.replicate 32 0x34, toySecret, List.replicate 32 0x35] 0).result = .ok 1 ∧
      ∃ message, (bruteForce toy toyHeld toyManifest [0x63]
        [toySecret, List.replicate 15 0x34] 0).result = .error (.sceError message) := by
  have hseal : (sealState toy toyDraw (.of [0x01]) (.of toyManifest) (.of toySecret) (.of 0)
      (.of [0x63])).result = .ok toyHeld := by decide +kernel
  refine ⟨(bruteForce_counts toy_aeadExact.correct toy_aeadTag hseal (by decide +kernel)
    (by decide +kernel)).1 (by decide), ?_⟩
  exact (bruteForce_counts toy_aeadExact.correct toy_aeadTag hseal (by decide +kernel)
    (by decide +kernel)).2 (by decide)

/-- The third number is the right one. -/
theorem toyWeaklyHeld_found :
    (crack toy toyWeaklyHeld toyManifest [0x63] (List.range 5)).result = .ok (some 2) := by
  have hseal : (weakSecret toy 2 >>= fun secret => sealState toy toyDraw (.of [0x01])
      (.of toyManifest) (.of secret) (.of 0) (.of [0x63])).result = .ok toyWeaklyHeld := by
    decide +kernel
  exact (crack_finds toy_aeadExact.correct toy_aeadTag (by decide : 2 < 5) hseal
    (by decide +kernel) (by decide +kernel)).1

end Sce
