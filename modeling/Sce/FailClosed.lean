/-
# What becomes of a seal under any parameters

The guarantee the package is named for.  Take what `seal_state` or `seal_state_chunked` returned
and open it under whatever secret, epoch, context and manifest pass the checks.  There are two
outcomes: the parameters are those of the seal, the manifests being one after NFC, and the state
comes back; or they differ anywhere, and the one uniform mismatch is raised
(`sealed_fails_closed`, `container_fails_closed`).

A container that is opened under other parameters is given up at its first envelope: one
derivation and one decryption are made, however long it is.

The second outcome rests on the hashes alone.  That the cipher gives back what it was given is
used for the first only.
-/
import Sce.PrimitiveUse

namespace Sce

variable {P : Platform}

/-! ## 1. The same parameters -/

/-- The parameters of a seal and of an unseal agree. -/
structure SameParameters (M M' : Manifest P) (masterSecret masterSecret' : Bytes)
    (epochId epochId' : Nat) (context context' : Bytes) : Prop where
  core : ∀ f, P.nfc (M.getattr f) = P.nfc (M'.getattr f)
  extra : M.extraMap P = M'.extraMap P
  masterSecret : masterSecret = masterSecret'
  epochId : epochId = epochId'
  context : context = context'

/-- Then they present one binding. -/
theorem SameParameters.presentedBy {M M' : Manifest P} {masterSecret masterSecret' : Bytes}
    {epochId epochId' : Nat} {context context' : Bytes}
    (h : SameParameters M M' masterSecret masterSecret' epochId epochId' context context')
    {b : Binding} (hb : b.PresentedBy (.of M) (.of masterSecret) (.of (epochId : Int))
      (.of context)) :
    b.PresentedBy (.of M') (.of masterSecret') (.of (epochId' : Int)) (.of context') := by
  obtain ⟨hcore, hextra, rfl, rfl, rfl⟩ := h
  have hmemh := Manifest.memh_eq_of_canonical ((canonical_eq_iff M M').mpr ⟨hcore, hextra⟩)
  obtain ⟨⟨⟨N, hN, hbinding⟩, hepoch, hcontext⟩, hsecret⟩ := hb
  obtain rfl := Arg.of.inj hN
  exact ⟨⟨⟨M', rfl, hmemh.symm.trans hbinding⟩, hepoch, hcontext⟩, hsecret⟩

/-- And only then. -/
theorem SameParameters.of_presentedBy {M M' : Manifest P} {masterSecret masterSecret' : Bytes}
    {epochId epochId' : Nat} {context context' : Bytes} {b : Binding} {log : List Event}
    (hb : b.PresentedBy (.of M) (.of masterSecret) (.of (epochId : Int)) (.of context))
    (hb' : b.PresentedBy (.of M') (.of masterSecret') (.of (epochId' : Int)) (.of context'))
    (hsha : P.Sha3CollisionFree log) (hM : M.construction.log ⊆ log)
    (hM' : M'.construction.log ⊆ log) :
    SameParameters M M' masterSecret masterSecret' epochId epochId' context context' := by
  obtain ⟨hsecret, hepoch, hcontext, hcore, hextra⟩ := hb.parameters_eq hb' hsha hM hM'
  exact ⟨hcore, hextra, Arg.of.inj hsecret, Int.ofNat.inj (Arg.of.inj hepoch),
    Arg.of.inj hcontext⟩

/-! ## 2. An envelope -/

/-- **An envelope of another binding does not open**, no commitment being shared. -/
theorem Binding.release_of_ne {b b' : Binding} {V : Envelope} {log : List Event}
    (hV : V.commitment = b.commitment P V.salt) (hne : b ≠ b') (hsha : P.Sha3CollisionFree log)
    (hcom : P.ComHalfCollisionFree log) (hderived : b.DerivedIn P V.salt log)
    (hderived' : b'.DerivedIn P V.salt log) (plaintext : Option Bytes) :
    release (V.commitment == b'.commitment P V.salt) plaintext = .error mismatch := by
  have hcommit : V.commitment ≠ b'.commitment P V.salt := by
    intro h
    exact hne (Binding.eq_of_commitment hsha hcom hderived hderived' (hV.symm.trans h)).1
  rw [beq_eq_false_iff_ne.mpr hcommit]
  cases plaintext <;> rfl

/-- **Fail closed.**  What a seal returned opens under the parameters it was sealed with, to the
state that was sealed, and under all others raises the uniform mismatch. -/
theorem sealed_fails_closed (hcorrect : P.AeadCorrect) (htag : P.AeadTag) {draw : Draw}
    {S X : Bytes} {M : Manifest P} {masterSecret context : Bytes} {epochId : Nat}
    {sealCount : Option (Arg Int)}
    (hseal : (sealState P draw (.of S) (.of M) (.of masterSecret) (.of (epochId : Int))
      (.of context) sealCount).result = .ok X)
    (M' : Manifest P) {masterSecret' context' : Bytes} {epochId' : Nat}
    (hsecret' : 16 ≤ masterSecret'.length) (hepoch' : epochId' < 2 ^ 64)
    (hcontext' : context'.length ≤ MAX_LP_FIELD)
    (hsha : P.Sha3CollisionFree (M.construction.log ++ M'.construction.log ++
      ((sealState P draw (.of S) (.of M) (.of masterSecret) (.of (epochId : Int)) (.of context)
          sealCount).log
        ++ (unsealState P (.of (.bytes X)) (.of M') (.of masterSecret') (.of (epochId' : Int))
          (.of context')).log)))
    (hcom : P.ComHalfCollisionFree
      ((sealState P draw (.of S) (.of M) (.of masterSecret) (.of (epochId : Int)) (.of context)
          sealCount).log
        ++ (unsealState P (.of (.bytes X)) (.of M') (.of masterSecret') (.of (epochId' : Int))
          (.of context')).log)) :
    (SameParameters M M' masterSecret masterSecret' epochId epochId' context context' ∧
        (unsealState P (.of (.bytes X)) (.of M') (.of masterSecret') (.of (epochId' : Int))
          (.of context')).result = .ok S) ∨
      (¬ SameParameters M M' masterSecret masterSecret' epochId epochId' context context' ∧
        (unsealState P (.of (.bytes X)) (.of M') (.of masterSecret') (.of (epochId' : Int))
          (.of context')).result = .error mismatch) := by
  obtain ⟨b, S', hperforms, rfl⟩ := SealCall.performs_of_ok (c := ⟨draw, .of S, .of M,
    .of masterSecret, .of (epochId : Int), .of context, sealCount⟩) hseal
  obtain rfl : S = S' := Arg.of.inj hperforms.state
  have hb : b.PresentedBy (.of M) (.of masterSecret) (.of (epochId : Int)) (.of context) :=
    hperforms.presented
  have hb' := (Environment.ofChecked_presentedBy M' hepoch' hcontext').binding hsecret'
  generalize (Binding.mk _ masterSecret' hsecret' : Binding) = b' at hb'
  have hS : S.length ≤ MAX_STATE := hperforms.state_le
  have hbytes : b.sealed P draw S = (b.envelope htag draw hS).bytes :=
    (b.envelope_bytes htag draw hS).symm
  have hlog : (sealState P draw (.of S) (.of M) (.of masterSecret) (.of (epochId : Int))
      (.of context) sealCount).log = b.sealLog P draw S := congrArg Logged.log hperforms.run_eq
  have hrun := unsealState_eq hb' (x := .bytes (b.sealed P draw S)) hbytes
  rw [hrun, hlog] at hsha hcom
  rw [hrun]
  by_cases hsame : b = b'
  · subst hsame
    refine .inl ⟨.of_presentedBy hb hb' hsha ?_ ?_, ?_⟩
    · exact List.Subset.trans (List.subset_append_left _ _) (List.subset_append_left _ _)
    · exact List.Subset.trans (List.subset_append_right _ _) (List.subset_append_left _ _)
    · exact Binding.opens_iff.mpr (b.envelope_opens hcorrect htag draw hS)
  · refine .inr ⟨fun h => hsame ((h.presentedBy hb).unique hb'), ?_⟩
    have hderived : b.DerivedIn P draw.salt
        (b.sealLog P draw S ++ b'.unsealLog P (b.envelope htag draw hS)) := fun e he =>
      List.mem_append_left _ (List.mem_append_left _ he)
    exact Binding.release_of_ne rfl hsame hsha.of_append hcom hderived
      (.of_unsealLog (List.subset_append_right _ _)) _

/-- An epoch later, under the composed manifest. -/
theorem toyEnvelope_fails_closed :
    (unsealState toy (.of (.bytes toyEnvelope)) (.of toyManifest') (.of toySecret)
      (.of ((10 : Nat) : Int)) (.of [0x63])).result = .error mismatch := by
  have hseal : (sealState toy toyDraw (.of [0x01, 0x02, 0x03]) (.of toyManifest) (.of toySecret)
      (.of ((9 : Nat) : Int)) (.of [0x63])).result = .ok toyEnvelope := by decide +kernel
  have hsecret : 16 ≤ toySecret.length := by decide
  have hepoch : 10 < 2 ^ 64 := by decide
  have hcontext : ([0x63] : Bytes).length ≤ MAX_LP_FIELD := by decide
  have houtcome := sealed_fails_closed toy_aeadExact.correct toy_aeadTag hseal toyManifest'
    hsecret hepoch hcontext
    (by rw [Manifest.construction_eq, Manifest.construction_eq]; decide +kernel)
    (by decide +kernel)
  rcases houtcome with ⟨hsame, -⟩ | ⟨-, hfail⟩
  · exact absurd hsame.epochId (by decide)
  · exact hfail

/-! ## 3. A container -/

section Stream

variable {B : StreamBinding} {x : Carrier} {H : StreamHeader} {V : Envelope} {Vs : List Envelope}
  {M : Manifest P} {masterSecret : Arg Bytes} {epochId : Arg Int} {context : Arg Bytes}

/-- A container of the grammar is opened from its first envelope on. -/
theorem StreamGrammar.unseal_cons (hgrammar : StreamGrammar x.toBytes H (V :: Vs))
    (hB : B.PresentedBy (.of M) masterSecret epochId context) :
    ∃ finish : Bytes → Py Bytes,
      unsealStateChunked P (.of x) (.of M) masterSecret epochId context =
        ((⟨(B.segment H 0).unsealLog P V,
          release (V.commitment == (B.segment H 0).commitment P V.salt)
            (P.plaintextOf ((B.segment H 0).decryption P V))⟩ : Py Bytes) >>= finish) := by
  rw [unsealStateChunked_eq hB, hgrammar.scanStream_eq, Logged.liftM_ok, Logged.pure_bind,
    openSegments, List.map_cons, List.zipIdx_cons, Logged.each_cons, Logged.bind_assoc,
    openSegment_eq hB (by decide)]
  exact ⟨_, rfl⟩

/-- What its first envelope asks for is in the log. -/
theorem StreamGrammar.unsealLog_first (hgrammar : StreamGrammar x.toBytes H (V :: Vs))
    (hB : B.PresentedBy (.of M) masterSecret epochId context) :
    (B.segment H 0).unsealLog P V ⊆
      (unsealStateChunked P (.of x) (.of M) masterSecret epochId context).log := by
  obtain ⟨finish, hrun⟩ := hgrammar.unseal_cons hB
  rw [hrun]
  intro e he
  exact Logged.mem_log_bind.mpr (.inl he)

/-- If that fails nothing else is looked at. -/
theorem StreamGrammar.unseal_of_first_failed (hgrammar : StreamGrammar x.toBytes H (V :: Vs))
    (hB : B.PresentedBy (.of M) masterSecret epochId context)
    (hfail : release (V.commitment == (B.segment H 0).commitment P V.salt)
      (P.plaintextOf ((B.segment H 0).decryption P V)) = .error mismatch) :
    unsealStateChunked P (.of x) (.of M) masterSecret epochId context
      = ⟨(B.segment H 0).unsealLog P V, .error mismatch⟩ := by
  obtain ⟨finish, hrun⟩ := hgrammar.unseal_cons hB
  rw [hrun, hfail]
  rfl

end Stream

/-- The container of a state, its first envelope named. -/
theorem StreamBinding.container_cons (hcorrect : P.AeadCorrect) (htag : P.AeadTag)
    (B : StreamBinding) (draw : StreamDraw) {S : Bytes} (hS : S.length < 2 ^ 64) {C : Nat}
    (hC : 0 < C) (hcap : C ≤ MAX_STATE) :
    ∃ (s : Bytes) (hs : s.length ≤ MAX_STATE) (Vs : List Envelope),
      (segmentStates S C)[0]? = some s ∧
        StreamGrammar (B.container P (streamHeader draw hS hC hcap) draw.segment
            (segmentStates S C)) (streamHeader draw hS hC hcap)
          ((B.segment (streamHeader draw hS hC hcap) 0).envelope htag (draw.segment 0) hs :: Vs) ∧
        B.OpensAll P (streamHeader draw hS hC hcap)
          ((B.segment (streamHeader draw hS hC hcap) 0).envelope htag (draw.segment 0) hs :: Vs)
          (segmentStates S C) := by
  obtain ⟨Vs, hgrammar, hopens⟩ := B.container_opens hcorrect htag draw hS hC hcap
  obtain ⟨Vs', hbytes, -⟩ := B.exists_envelopes hcorrect htag (streamHeader draw hS hC hcap)
    draw.segment (segmentStates S C) 0 (segmentStates_le hC hcap)
  have hcount : Vs'.length = Vs.length := by
    have hlen := congrArg List.length hbytes
    rw [List.length_map, List.length_map, List.length_zipIdx] at hlen
    rw [hlen, ← hopens.length_eq]
  have hgrammar' : StreamGrammar (B.container P (streamHeader draw hS hC hcap) draw.segment
      (segmentStates S C)) (streamHeader draw hS hC hcap) Vs' :=
    ⟨by rw [StreamBinding.container, framed, hbytes], hcount.trans hgrammar.count,
      hgrammar.nonzero, hgrammar.empty⟩
  obtain ⟨-, rfl⟩ := hgrammar.unique hgrammar'
  have hpos : 0 < (segmentStates S C).length := by
    rw [segmentStates_length S hC]
    exact Nat.lt_of_lt_of_le Nat.zero_lt_one (le_max_left _ _)
  cases hstates : segmentStates S C with
  | nil => exact absurd hpos (by rw [hstates]; simp)
  | cons s states =>
    have hs : s.length ≤ MAX_STATE :=
      segmentStates_le hC hcap s (by rw [hstates]; exact List.mem_cons_self)
    cases Vs with
    | nil =>
      rw [hstates] at hbytes
      exact absurd hbytes (by simp)
    | cons V Vs =>
      rw [hstates, List.map_cons, List.zipIdx_cons, List.map_cons] at hbytes
      obtain rfl : V = (B.segment (streamHeader draw hS hC hcap) 0).envelope htag
          (draw.segment 0) hs := by
        refine Envelope.bytes_inj ?_
        rw [Binding.envelope_bytes]
        exact (List.cons.inj hbytes).1
      rw [hstates] at hgrammar hopens
      exact ⟨s, hs, Vs, rfl, hgrammar, hopens⟩

/-- A chunked seal that returned has sealed every segment. -/
theorem StreamBinding.sealLog_subset {B : StreamBinding} {H : StreamHeader} {draw : StreamDraw}
    {states : List Bytes} {X : Bytes} (h : (B.sealStream P H draw states).result = .ok X) {i : Nat}
    {s : Bytes} (hs : states[i]? = some s) :
    (B.segment H i).sealLog P (draw.segment i) s ⊆ (B.sealStream P H draw states).log := by
  obtain ⟨_, -, hrest⟩ := Logged.result_bind_eq_ok.mp h
  obtain ⟨envs, henvs, -⟩ := Logged.result_bind_eq_ok.mp hrest
  have hmem : (s, i) ∈ states.zipIdx := List.mk_mem_zipIdx_iff_getElem?.mpr hs
  have hlog : (B.sealSegment P H draw.segment (s, i)).log ⊆
      (Logged.each (B.sealSegment P H draw.segment) states.zipIdx).log :=
    Logged.log_subset_log_each henvs hmem
  rw [StreamBinding.log_sealStream]
  exact List.Subset.trans hlog (List.subset_cons_self _ _)

/-- **Fail closed.**  What a chunked seal returned opens under the parameters it was sealed with,
to the state that was sealed; under all others it raises the uniform mismatch at the first
envelope, and what is evaluated is one derivation, of two hashes and an HKDF, and one
decryption. -/
theorem container_fails_closed (hcorrect : P.AeadCorrect) (htag : P.AeadTag) {draw : StreamDraw}
    {S X : Bytes} {M : Manifest P} {masterSecret context : Bytes} {epochId C : Nat}
    (hseal : (sealStateChunked P draw (.of S) (.of M) (.of masterSecret) (.of (epochId : Int))
      (.of context) (.of (C : Int))).result = .ok X)
    (M' : Manifest P) {masterSecret' context' : Bytes} {epochId' : Nat}
    (hsecret' : 16 ≤ masterSecret'.length) (hepoch' : epochId' < 2 ^ 64)
    (hcontext' : context'.length ≤ 2 ^ 32 - 75)
    (hsha : P.Sha3CollisionFree (M.construction.log ++ M'.construction.log ++
      ((sealStateChunked P draw (.of S) (.of M) (.of masterSecret) (.of (epochId : Int))
          (.of context) (.of (C : Int))).log
        ++ (unsealStateChunked P (.of (.bytes X)) (.of M') (.of masterSecret')
          (.of (epochId' : Int)) (.of context')).log)))
    (hcom : P.ComHalfCollisionFree
      ((sealStateChunked P draw (.of S) (.of M) (.of masterSecret) (.of (epochId : Int))
          (.of context) (.of (C : Int))).log
        ++ (unsealStateChunked P (.of (.bytes X)) (.of M') (.of masterSecret')
          (.of (epochId' : Int)) (.of context')).log)) :
    (SameParameters M M' masterSecret masterSecret' epochId epochId' context context' ∧
        (unsealStateChunked P (.of (.bytes X)) (.of M') (.of masterSecret') (.of (epochId' : Int))
          (.of context')).result = .ok S) ∨
      (¬ SameParameters M M' masterSecret masterSecret' epochId epochId' context context' ∧
        (unsealStateChunked P (.of (.bytes X)) (.of M') (.of masterSecret') (.of (epochId' : Int))
          (.of context')).result = .error mismatch ∧
        ∃ (info com : Bytes) (q : HkdfInput) (d : Decryption),
          (unsealStateChunked P (.of (.bytes X)) (.of M') (.of masterSecret')
            (.of (epochId' : Int)) (.of context')).log
              = [.sha3 info, .hkdf q, .sha3 com, .decrypt d]) := by
  obtain ⟨B, S', C', hperforms⟩ := ChunkedCall.performs_of_ok (c := ⟨draw, .of S, .of M,
    .of masterSecret, .of (epochId : Int), .of context, .of (C : Int)⟩) hseal
  obtain rfl : S = S' := Arg.of.inj hperforms.state
  obtain rfl : C = C' := Int.ofNat.inj (Arg.of.inj hperforms.segmentSize)
  have hB : B.PresentedBy (.of M) (.of masterSecret) (.of (epochId : Int)) (.of context) :=
    hperforms.presented
  have hS := hperforms.state_lt
  have hC := hperforms.pos
  have hcap := hperforms.cap
  have hX := Except.ok.inj (hseal.symm.trans (sealStateChunked_eq_container htag hB hS hC hcap))
  obtain ⟨B', hB'⟩ := exists_streamBinding M' hsecret' hepoch' hcontext'
  obtain ⟨s, hs, Vs, hfirst, hgrammar, hopens⟩ := B.container_cons hcorrect htag draw hS hC hcap
  rw [← hX] at hgrammar
  rw [sealStateChunked_eq hB hS hC hcap] at hsha hcom hseal
  by_cases hsame : B = B'
  · subst hsame
    refine .inl ⟨.of_presentedBy hB hB' hsha ?_ ?_, ?_⟩
    · exact List.Subset.trans (List.subset_append_left _ _) (List.subset_append_left _ _)
    · exact List.Subset.trans (List.subset_append_right _ _) (List.subset_append_left _ _)
    · rw [unsealStateChunked_eq_ok hB']
      exact ⟨_, _, _, hgrammar, hopens, segmentStates_flatten S hC, rfl⟩
  · have hdiffer : ¬ SameParameters M M' masterSecret masterSecret' epochId epochId' context
        context' := by
      intro h
      have hbinding := (h.presentedBy hB).unique hB'
      exact hsame (StreamBinding.ext (congrArg (·.memh) hbinding) (congrArg (·.epochId) hbinding)
        (congrArg (·.context) hbinding) (congrArg (·.masterSecret) hbinding))
    -- the commitment of the first envelope is of a place in another stream
    have hplace : B.segment (streamHeader draw hS hC hcap) 0
        ≠ B'.segment (streamHeader draw hS hC hcap) 0 := fun h =>
      hsame (StreamBinding.segment_inj (by decide) (by decide) h).1
    have hderived := StreamBinding.sealLog_subset hseal hfirst
    have hderived' := hgrammar.unsealLog_first (x := .bytes X) hB'
    have hrelease := Binding.release_of_ne rfl hplace hsha.of_append hcom
      (fun e he => List.mem_append_left _ (hderived (List.mem_append_left _ he)))
      (.of_unsealLog (List.Subset.trans hderived' (List.subset_append_right _ _)))
    have hrun := hgrammar.unseal_of_first_failed (x := .bytes X) hB' (hrelease _)
    refine .inr ⟨hdiffer, ?_, ?_⟩
    · rw [hrun]
    · rw [hrun]
      exact ⟨_, _, _, _, rfl⟩

/-- Two segments, under another secret. -/
theorem toyTwin_fails_closed :
    (unsealStateChunked toy (.of (.bytes (toyTwin 0x03))) (.of toyManifest')
        (.of (List.replicate 16 0x34)) (.of ((9 : Nat) : Int)) (.of [0x63])).result
          = .error mismatch ∧
      ∃ (info com : Bytes) (q : HkdfInput) (d : Decryption),
        (unsealStateChunked toy (.of (.bytes (toyTwin 0x03))) (.of toyManifest')
          (.of (List.replicate 16 0x34)) (.of ((9 : Nat) : Int)) (.of [0x63])).log
            = [.sha3 info, .hkdf q, .sha3 com, .decrypt d] := by
  have hseal : (sealStateChunked toy toyStreamDraw (.of [0x01, 0x02, 0x03]) (.of toyManifest)
      (.of toySecret) (.of ((9 : Nat) : Int)) (.of [0x63]) (.of ((2 : Nat) : Int))).result
      = .ok (toyTwin 0x03) := by decide +kernel
  have hsecret : 16 ≤ (List.replicate 16 0x34 : Bytes).length := by decide
  have hepoch : 9 < 2 ^ 64 := by decide
  have hcontext : ([0x63] : Bytes).length ≤ 2 ^ 32 - 75 := by decide
  have houtcome := container_fails_closed toy_aeadExact.correct toy_aeadTag hseal toyManifest'
    hsecret hepoch hcontext
    (by rw [Manifest.construction_eq, Manifest.construction_eq]; decide +kernel)
    (by decide +kernel)
  rcases houtcome with ⟨hsame, -⟩ | ⟨-, hfail⟩
  · exact absurd hsame.masterSecret (by decide)
  · exact hfail

end Sce
