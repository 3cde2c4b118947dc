/-
# The associated data binds on its own

Two mechanisms tie an envelope to its environment: the key it is sealed under, and the
associated data.  Here the first is taken away.  `KeyDerivation` is any function in the place of
`_derive_key_material`, a constant one included, and the history is run over it.

`aad_binds_environment`: what opens is still an envelope that some seal of the history made
under a manifest of the same fingerprint and at the same epoch, with the very header presented.
All that is assumed is that the cipher opens nothing but what it encrypted.  The argument is that
the associated data is a concatenation of fields of one width each, so two that are equal agree
field by field (`aadBytes_inj`).
-/
import Sce.Authenticity
import Sce.EnvelopeErrors

namespace Sce

variable {P : Platform}

/-! ## 1. Any key derivation -/

/-- **A function in the place of `_derive_key_material`.**  It may compute anything, or raise;
encrypting is left to the caller. -/
structure KeyDerivation where
  derive : Deriver
  no_encrypt : ∀ masterSecret memh epochId context salt call,
    .encrypt call ∉ (derive masterSecret memh epochId context salt).log

/-- A plain function. -/
def KeyDerivation.ofFunction
    (f : (masterSecret : Arg Bytes) → (memh : Bytes) → (epochId : Int) → (context salt : Bytes) →
      Except PyExc (Bytes × Bytes)) : KeyDerivation where
  derive masterSecret memh epochId context salt := liftM (f masterSecret memh epochId context salt)
  no_encrypt _ _ _ _ _ _ := List.not_mem_nil

theorem kdfInfo_no_encrypt (context : Bytes) (epochId : Int) (memh : Bytes) (call : Encryption) :
    .encrypt call ∉ (kdfInfo P context epochId memh).log := by
  intro h
  obtain ⟨_, -, h⟩ := Logged.mem_log_liftM_bind.mp h
  obtain ⟨_, -, h⟩ := Logged.mem_log_liftM_bind.mp h
  obtain ⟨_, -, h⟩ := Logged.mem_log_liftM_bind.mp h
  obtain ⟨_, -, h⟩ := Logged.mem_log_liftM_bind.mp h
  simp [Platform.sha3] at h

theorem deriveKeyMaterial_no_encrypt (masterSecret : Arg Bytes) (memh : Bytes) (epochId : Int)
    (context salt : Bytes) (call : Encryption) :
    .encrypt call ∉ (deriveKeyMaterial P masterSecret memh epochId context salt).log := by
  intro h
  obtain ⟨_, -, h⟩ := Logged.mem_log_liftM_bind.mp h
  rcases Logged.mem_log_bind.mp h with hinfo | ⟨info, -, h⟩
  · exact kdfInfo_no_encrypt _ _ _ _ hinfo
  · simp [Platform.sha3, Platform.deriveHkdf] at h

/-- The package's own. -/
def KeyDerivation.package (P : Platform) : KeyDerivation where
  derive := deriveKeyMaterial P
  no_encrypt := deriveKeyMaterial_no_encrypt

/-! ## 2. Histories over it -/

section Runs

variable (K : KeyDerivation)

def SealCall.runWith (c : SealCall P) : Py Bytes :=
  sealStateWith P K.derive c.draw c.state c.manifest c.masterSecret c.epochId c.context c.sealCount

def ChunkedCall.runWith (c : ChunkedCall P) : Py Bytes :=
  sealStateChunkedWith P K.derive c.draw c.state c.manifest c.masterSecret c.epochId c.context
    c.segmentSize

def Call.runWith : Call P → Py Bytes
  | .direct c => c.runWith K
  | .chunked c => c.runWith K

/-- What a history over `K` records. -/
def historyLogWith (calls : List (Call P)) : List Event := calls.flatMap fun c => (c.runWith K).log

end Runs

/-- Over the package's derivation these are the calls as they are. -/
theorem historyLogWith_package (calls : List (Call P)) :
    historyLogWith (.package P) calls = historyLog calls := by
  have hrun : ∀ c : Call P, c.runWith (.package P) = c.run := by
    intro c
    cases c with
    | direct c => rfl
    | chunked c => rfl
  simp only [historyLogWith, historyLog, hrun]

/-- **The seals a call makes**, each as a call of `seal_state`: itself, or one for each segment,
under the segment's context. -/
inductive Call.Makes : Call P → SealCall P → Prop
  | direct (c : SealCall P) : Call.Makes (.direct c) c
  | segment {c : ChunkedCall P} {S u : Bytes} {C : Nat} (hstate : c.state = .of S)
      (hcontext : c.context = .of u) (hsize : checkSegmentSize c.segmentSize = .ok C) {i : Nat}
      {s ctx : Bytes} (hs : (segmentStates S C)[i]? = some s)
      (hctx : segContext u c.draw.streamId i (segmentCount S.length C) S.length C = .ok ctx) :
      Call.Makes (.chunked c)
        { draw := c.draw.segment i, state := .of s, manifest := c.manifest,
          masterSecret := c.masterSecret, epochId := c.epochId, context := .of ctx,
          sealCount := none }

/-! ## 3. What a seal over it records -/

/-- **Every encryption of a seal over `K` is the one its arguments and `K` determine**, and the
seal returns the envelope around it. -/
theorem SealCall.encryption_runWith {K : KeyDerivation} {c : SealCall P} {call : Encryption}
    (h : .encrypt call ∈ (c.runWith K).log) :
    ∃ (E : Environment) (S kEnc commitment : Bytes),
      E.PresentedBy c.manifest c.epochId c.context ∧
        (K.derive c.masterSecret E.memh E.epochId E.context c.draw.salt).result
          = .ok (kEnc, commitment) ∧
        call = E.encryption c.draw S kEnc commitment ∧
        (c.runWith K).result = frame (headerBytes c.draw commitment) (P.ciphertextOf call) := by
  rcases sealStateWith_cases K.derive c.draw c.state c.manifest c.masterSecret c.epochId c.context
    c.sealCount with ⟨e, hfail⟩ | ⟨E, S, hE, hstate, hS, hcount⟩
  · rw [SealCall.runWith, hfail] at h
    exact absurd h List.not_mem_nil
  · have hrun : c.runWith K =
        (K.derive c.masterSecret E.memh E.epochId E.context c.draw.salt >>= fun kc =>
          ⟨[.encrypt (E.encryption c.draw S kc.1 kc.2)], frame (headerBytes c.draw kc.2)
            (P.ciphertextOf (E.encryption c.draw S kc.1 kc.2))⟩) := by
      rw [SealCall.runWith, hstate]
      exact sealStateWith_eq hE hS hcount
    rw [hrun] at h
    rcases Logged.mem_log_bind.mp h with hderive | ⟨⟨kEnc, commitment⟩, hkc, hcall⟩
    · exact absurd hderive (K.no_encrypt _ _ _ _ _ _)
    · obtain rfl : call = E.encryption c.draw S kEnc commitment := by simpa using hcall
      refine ⟨E, S, kEnc, commitment, hE, hkc, rfl, ?_⟩
      rw [hrun, Logged.bind_of_ok hkc]

/-- **Every encryption of the producer's loop is that of the seal of one of its segments**, all
of whose records are the loop's. -/
theorem encryption_sealSegmentsWith {derive : Deriver} {draw : StreamDraw} {S : Bytes}
    {M : Manifest P} {masterSecret : Arg Bytes} {epochId : Arg Int} {u : Bytes} {H : StreamFields}
    {call : Encryption} (bounds : List (Nat × Nat)) : ∀ (i : Nat) (out : Bytes),
      .encrypt call ∈ (sealSegmentsWith P derive draw S M masterSecret epochId u H i bounds
        out).log →
      ∃ j lo hi ctx, bounds[j]? = some (lo, hi) ∧ H.segContext u (i + j) = .ok ctx ∧
        .encrypt call ∈ (sealStateWith P derive (draw.segment (i + j)) (.of (slice S lo hi))
          (.of M) masterSecret epochId (.of ctx)).log ∧
        (sealStateWith P derive (draw.segment (i + j)) (.of (slice S lo hi)) (.of M) masterSecret
          epochId (.of ctx)).log
          ⊆ (sealSegmentsWith P derive draw S M masterSecret epochId u H i bounds out).log := by
  induction bounds with
  | nil =>
    intro i out h
    exact absurd h List.not_mem_nil
  | cons b bounds ih =>
    obtain ⟨lo, hi⟩ := b
    intro i out h
    obtain ⟨ctx, hctx, hloop⟩ := Logged.mem_log_liftM_bind.mp h
    rcases Logged.mem_log_bind.mp hloop with hseal | ⟨env, henv, hrest⟩
    · refine ⟨0, lo, hi, ctx, rfl, hctx, hseal, ?_⟩
      intro e he
      exact Logged.mem_log_liftM_bind.mpr ⟨ctx, hctx, Logged.mem_log_bind.mpr (.inl he)⟩
    · obtain ⟨envLen, hlen, hrest⟩ := Logged.mem_log_liftM_bind.mp hrest
      obtain ⟨j, lo', hi', ctx', hj, hctx', hmem, hlog⟩ := ih (i + 1) _ hrest
      rw [Nat.add_assoc, Nat.add_comm 1 j] at hctx' hmem hlog
      refine ⟨j + 1, lo', hi', ctx', hj, hctx', hmem, ?_⟩
      intro e he
      refine Logged.mem_log_liftM_bind.mpr ⟨ctx, hctx, ?_⟩
      refine Logged.mem_log_bind.mpr (.inr ⟨env, henv, ?_⟩)
      exact Logged.mem_log_liftM_bind.mpr ⟨envLen, hlen, hlog he⟩

/-- **Every encryption of a call is that of a seal it makes**, all of whose records are the
call's. -/
theorem Call.encryption_makes {K : KeyDerivation} {c : Call P} {call : Encryption}
    (h : .encrypt call ∈ (c.runWith K).log) :
    ∃ s, c.Makes s ∧ .encrypt call ∈ (s.runWith K).log ∧
      (s.runWith K).log ⊆ (c.runWith K).log := by
  cases c with
  | direct c => exact ⟨c, .direct c, h, List.Subset.refl _⟩
  | chunked c =>
    obtain ⟨M, hM, hloop⟩ := Logged.mem_log_liftM_bind.mp h
    obtain ⟨S, hS, hloop⟩ := Logged.mem_log_liftM_bind.mp hloop
    obtain ⟨u, hu, hloop⟩ := Logged.mem_log_liftM_bind.mp hloop
    obtain ⟨C, hC, hloop⟩ := Logged.mem_log_liftM_bind.mp hloop
    rcases Logged.mem_log_bind.mp hloop with hid | ⟨streamId, hid, hloop⟩
    · exact absurd hid (by simp [Logged.perform])
    · obtain rfl : c.draw.streamId = streamId := Except.ok.inj hid
      obtain ⟨header, hheader, hloop⟩ := Logged.mem_log_liftM_bind.mp hloop
      obtain ⟨j, lo, hi, ctx, hj, hctx, hmem, hlog⟩ := encryption_sealSegmentsWith _ 0 _ hloop
      rw [Nat.zero_add] at hctx hmem hlog
      have hpos := (checkSegmentSize_eq_ok.mp hC).2.1
      have hs : (segmentStates S C)[j]? = some (slice S lo hi) := by
        rw [segmentStates, List.getElem?_map, hj]
        rfl
      have hmakes := Call.Makes.segment (requireState_eq_ok.mp hS) (requireContext_eq_ok.mp hu) hC
        hs (segmentBounds_length (L := S.length) hpos ▸ hctx)
      rw [requireManifest_eq_ok.mp hM] at hmakes
      refine ⟨_, hmakes, hmem, ?_⟩
      intro e he
      refine Logged.mem_log_liftM_bind.mpr ⟨M, hM, Logged.mem_log_liftM_bind.mpr ⟨S, hS, ?_⟩⟩
      refine Logged.mem_log_liftM_bind.mpr ⟨u, hu, Logged.mem_log_liftM_bind.mpr ⟨C, hC, ?_⟩⟩
      refine Logged.mem_log_bind.mpr (.inr ⟨c.draw.streamId, rfl, ?_⟩)
      exact Logged.mem_log_liftM_bind.mpr ⟨header, hheader, hlog he⟩

/-! ## 4. What opens over it -/

/-- **The associated data binds the environment on its own.**  Whatever the keys and commitments
are derived by, what opens is an envelope that some seal of the history made under a manifest of
the same fingerprint and at the same epoch, with the nonce, the salt and the commitment
presented. -/
theorem aad_binds_environment (K : KeyDerivation) {calls : List (Call P)} {x : Carrier}
    {M : Manifest P} {masterSecret : Arg Bytes} {epochId : Arg Int} {context : Arg Bytes}
    {S : Bytes}
    (hopen : (unsealStateWith P K.derive (.of x) (.of M) masterSecret epochId context).result
      = .ok S)
    (hauthentic : P.AeadAuthentic (historyLogWith K calls)
      (unsealStateWith P K.derive (.of x) (.of M) masterSecret epochId context).log) :
    ∃ c ∈ calls, ∃ s, c.Makes s ∧ (s.runWith K).log ⊆ (c.runWith K).log ∧
      (s.runWith K).result = .ok x.toBytes ∧ s.epochId = epochId ∧
      ∃ (M' : Manifest P) (e : Nat) (ctx kEnc commitment : Bytes), s.manifest = .of M' ∧
        M'.memh = M.memh ∧ s.epochId = .of (e : Int) ∧ s.context = .of ctx ∧
        (K.derive s.masterSecret M'.memh e ctx s.draw.salt).result = .ok (kEnc, commitment) ∧
        slice x.toBytes 0 65 = headerBytes s.draw commitment := by
  rcases unsealStateWith_cases K.derive (.of x) (.of M) masterSecret epochId context with
    ⟨e, hfail⟩ | ⟨E, _, V, hE, hx, hV⟩
  · rw [hfail] at hopen
    exact absurd hopen (by simp)
  obtain rfl := Arg.of.inj hx
  have hrun : unsealStateWith P K.derive (.of x) (.of M) masterSecret epochId context = _ :=
    unsealStateWith_eq hE hV
  rw [hrun] at hopen
  obtain ⟨kc, hkc, hrelease⟩ := Logged.result_bind_eq_ok.mp hopen
  obtain ⟨-, hplaintext⟩ := release_eq_ok.mp hrelease
  -- the cipher opened, so the history encrypted under this associated data
  have hattempt : .decrypt (E.decryption V kc.1) ∈
      (unsealStateWith P K.derive (.of x) (.of M) masterSecret epochId context).log := by
    rw [hrun]
    refine Logged.mem_log_bind.mpr (.inr ⟨kc, hkc, ?_⟩)
    exact List.mem_cons_self
  have hsome : (P.plaintextOf (E.decryption V kc.1)).isSome := by
    rw [hplaintext]
    rfl
  obtain ⟨call, hcall, -, -, haad, hciphertext⟩ := hauthentic _ (mem_decryptions.mpr hattempt) hsome
  obtain ⟨c, hc, hcall⟩ := List.mem_flatMap.mp (mem_encryptions.mp hcall)
  obtain ⟨s, hmakes, hcall, hlog⟩ := c.encryption_makes hcall
  obtain ⟨E', S', kEnc, commitment, hE', hderive, rfl, hresult⟩ := s.encryption_runWith hcall
  have hlen : (headerBytes s.draw commitment).length = V.header.length := by
    rw [headerBytes_length, V.header_length]
  obtain ⟨hheader, hmemh, hepoch⟩ := aadBytes_inj hlen haad
  obtain ⟨M', hM', hmemh'⟩ := hE'.manifest
  obtain ⟨_, hM, hmemhM⟩ := hE.manifest
  obtain rfl := Arg.of.inj hM
  have hfingerprint : M'.memh = M.memh := by rw [hmemh', hmemh, hmemhM]
  have hreturned : (s.runWith K).result = .ok x.toBytes := by
    rw [hresult, hheader, hciphertext, hV]
    exact frame_eq_ok.mpr ⟨V.ciphertext_lt, rfl⟩
  refine ⟨c, hc, s, hmakes, hlog, hreturned, ?_, M', E'.epochId, E'.context, kEnc, commitment, hM',
    hfingerprint, hE'.epochId, hE'.context, ?_, ?_⟩
  · rw [hE'.epochId, hE.epochId, hepoch]
  · rw [hmemh']
    exact hderive
  · rw [hV, V.slice_header, hheader]

/-- The same key and the same commitment for everything. -/
def constantDerivation : KeyDerivation :=
  .ofFunction fun _ _ _ _ _ => .ok (List.replicate 32 0x66, List.replicate 32 0x77)

/-- A direct seal and a stream of two segments. -/
def toyBoth : List (Call toy) :=
  [.direct (toySealCall [0x01] 0x25), .chunked (toyChunkedCall 0x44 [0x01, 0x02, 0x03])]

/-- The envelope of the second segment, the derivation being constant. -/
def toyConstantSegment : Bytes :=
  (sealStateWith toy constantDerivation.derive (toyStreamDraw.segment 1) (.of [0x03])
    (.of toyManifest) (.of toySecret) (.of 9)
    (.of (segContextBytes [0x63] toyStreamDraw.streamId 1 2 3 2))).result.toOption.getD []

/-- It opens alone, under another secret and without a context, and is led back to its
segment. -/
theorem toyConstantSegment_binds :
    ∃ c ∈ toyBoth, ∃ s, c.Makes s ∧
      (s.runWith constantDerivation).log ⊆ (c.runWith constantDerivation).log ∧
      (s.runWith constantDerivation).result = .ok toyConstantSegment ∧ s.epochId = .of 9 ∧
      ∃ (M' : Manifest toy) (e : Nat) (ctx kEnc commitment : Bytes), s.manifest = .of M' ∧
        M'.memh = toyManifest'.memh ∧ s.epochId = .of (e : Int) ∧ s.context = .of ctx ∧
        (constantDerivation.derive s.masterSecret M'.memh e ctx s.draw.salt).result
          = .ok (kEnc, commitment) ∧
        slice toyConstantSegment 0 65 = headerBytes s.draw commitment :=
  @aad_binds_environment toy constantDerivation toyBoth (.bytes toyConstantSegment) toyManifest'
    (.of (List.replicate 16 0x55)) (.of 9) (.of []) [0x03] (by decide +kernel) (by decide +kernel)

end Sce
