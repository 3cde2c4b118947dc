/-
# What opens was sealed

Authenticity over whole histories.  `Ideal` collects what is assumed of the libraries: the
cipher opens nothing it did not make, and no hash collides among the inputs evaluated.

* `Binding.Opens.sealed`: an envelope that opens is, up to its bytes, a seal of the history.
  The commitment and the key pin the parameters, the associated data pins the header, the cipher
  pins the ciphertext.
* `envelope_authentic`: a byte string that opens is an envelope the history returned.
* `container_authentic`: a byte string that opens as a container is a container the history
  returned.  Each segment leads back to a segment of some call, at the same place under the same
  header (`Call.Seals.place`); the header carries the stream id, so it is the same call for all.
-/
import Sce.History
import Sce.StreamRoundTrip

namespace Sce

variable {P : Platform}

/-! ## 1. What is assumed -/

/-- **The libraries behave ideally** while `issued` and then `opened` are recorded. -/
structure Platform.Ideal (P : Platform) (issued opened : List Event) : Prop where
  correct : P.AeadCorrect
  authentic : P.AeadAuthentic issued opened
  sha3 : P.Sha3CollisionFree (issued ++ opened)
  hkdf : P.HkdfCollisionFree (issued ++ opened)

/-! ## 2. One envelope -/

/-- **A seal the cipher cannot tell from an envelope that opens is a seal of that envelope's
binding and draw.** -/
theorem Binding.Opens.eq_of_matching {b b' : Binding} {V : Envelope} {draw : Draw}
    {S S' : Bytes} {log : List Event} (h : b.Opens P V S) (hsha : P.Sha3CollisionFree log)
    (hhkdf : P.HkdfCollisionFree log) (hb : b.DerivedIn P V.salt log)
    (hb' : b'.DerivedIn P draw.salt log)
    (hkey : (b'.encryption P draw S').key = (b.decryption P V).key)
    (haad : (b'.encryption P draw S').aad = (b.decryption P V).aad) :
    b' = b ∧ draw = V.toDraw := by
  have hlen : V.header.length = (b'.header P draw).length :=
    V.header_length.trans (headerBytes_length _ _).symm
  obtain ⟨rfl, hcommit⟩ := Envelope.of_header_eq (aadBytes_inj hlen haad.symm).1
  have hboth : b'.commitment P V.salt = b.commitment P V.salt :=
    hcommit.symm.trans h.commitment
  exact ⟨(Binding.eq_of_key_of_commitment hsha hhkdf hb' hb hkey hboth).1, rfl⟩

/-- What opens with the ciphertext of a seal opens to the state of that seal. -/
theorem Binding.Opens.eq_of_ciphertext {b : Binding} {V : Envelope} {S S' : Bytes}
    (h : b.Opens P V S) (hcorrect : P.AeadCorrect)
    (hciphertext : V.ciphertext = b.ciphertext P V.toDraw S') : S' = S := by
  have haad : (b.decryption P V).aad = (b.encryption P V.toDraw S').aad :=
    congrArg b.aadBytes h.header_eq
  have hcall : (b.decryption P V).ciphertext = P.ciphertextOf (b.encryption P V.toDraw S') :=
    hciphertext
  have hplain : P.plaintextOf (b.decryption P V) = some S' := by
    rw [Platform.plaintextOf, haad, hcall]
    exact hcorrect _ _ _ _
  exact Option.some.inj (hplain.symm.trans h.plaintext)

/-- **An envelope that opens is a seal the history carried out**, of the state it opens to. -/
theorem Binding.Opens.sealed {calls : List (Call P)} {opened : List Event} {b : Binding}
    {V : Envelope} {S : Bytes} (h : b.Opens P V S) (hideal : P.Ideal (historyLog calls) opened)
    (hlog : b.unsealLog P V ⊆ opened) :
    ∃ c ∈ calls, c.CarriesOut b V.toDraw S ∧ V.ciphertext = b.ciphertext P V.toDraw S := by
  have hattempt : b.decryption P V ∈ decryptions opened :=
    mem_decryptions.mpr (hlog (List.mem_append_right _ List.mem_cons_self))
  have hsome : (P.plaintextOf (b.decryption P V)).isSome := by
    rw [h.plaintext]
    rfl
  obtain ⟨e, he, hkey, -, haad, hciphertext⟩ := hideal.authentic _ hattempt hsome
  obtain ⟨c, hc, b', draw, S', hcarries, rfl⟩ := encryption_carriedOut he
  have hb : b.DerivedIn P V.salt (historyLog calls ++ opened) :=
    (Binding.DerivedIn.of_unsealLog hlog).mono (List.subset_append_right _ _)
  obtain ⟨rfl, rfl⟩ := h.eq_of_matching hideal.sha3 hideal.hkdf hb
    ((hcarries.derivedIn hc).mono (List.subset_append_left _ _)) hkey haad
  obtain rfl := h.eq_of_ciphertext hideal.correct hciphertext.symm
  exact ⟨c, hc, hcarries, hciphertext.symm⟩

/-- The bytes of such an envelope. -/
theorem Binding.Opens.bytes_eq_sealed {b : Binding} {V : Envelope} {S : Bytes}
    (h : b.Opens P V S) (hciphertext : V.ciphertext = b.ciphertext P V.toDraw S) :
    V.bytes = b.sealed P V.toDraw S := by
  rw [Envelope.bytes, h.header_eq, hciphertext]
  rfl

/-- Two presentations of one binding differ in the manifest at most. -/
theorem Binding.PresentedBy.agree {b : Binding} {M : Manifest P} {manifest : Arg (Manifest P)}
    {masterSecret masterSecret' : Arg Bytes} {epochId epochId' : Arg Int}
    {context context' : Arg Bytes} (h : b.PresentedBy manifest masterSecret epochId context)
    (h' : b.PresentedBy (.of M) masterSecret' epochId' context') :
    masterSecret = masterSecret' ∧ epochId = epochId' ∧ context = context' ∧
      ∃ M', manifest = .of M' ∧ M'.memh = M.memh := by
  obtain ⟨M', hM', hmemh'⟩ := h.manifest
  obtain ⟨_, hM, hmemh⟩ := h'.manifest
  obtain rfl := Arg.of.inj hM
  exact ⟨h.masterSecret.trans h'.masterSecret.symm, h.epochId.trans h'.epochId.symm,
    h.context.trans h'.context.symm, M', hM', hmemh'.trans hmemh.symm⟩

/-- **Envelope authenticity.**  A byte string that opens is, byte for byte, an envelope that a
call of the history returned, made with the same secret, epoch and context and a manifest of the
same fingerprint; and the state returned is that call's. -/
theorem envelope_authentic {calls : List (SealCall P)} {x : Carrier} {M : Manifest P}
    {masterSecret : Arg Bytes} {epochId : Arg Int} {context : Arg Bytes} {S : Bytes}
    (hopen : (unsealState P (.of x) (.of M) masterSecret epochId context).result = .ok S)
    (hideal : P.Ideal (historyLog (calls.map .direct))
      (unsealState P (.of x) (.of M) masterSecret epochId context).log) :
    ∃ c ∈ calls, c.run.result = .ok x.toBytes ∧ c.masterSecret = masterSecret ∧
      c.epochId = epochId ∧ c.context = context ∧
      (∃ M', c.manifest = .of M' ∧ M'.memh = M.memh) ∧ c.state = .of S := by
  obtain ⟨b, _, V, hb, hx, hV, hopens, hlog⟩ := unsealState_ok hopen
  obtain rfl := Arg.of.inj hx
  obtain ⟨_, hmem, hcarries, hciphertext⟩ := hopens.sealed hideal (hlog ▸ List.Subset.refl _)
  obtain ⟨c, hc, rfl⟩ := List.mem_map.mp hmem
  obtain ⟨hperforms, hdraw⟩ := hcarries.seals.performs
  obtain ⟨hsecret, hepoch, hcontext, hmanifest⟩ := hperforms.presented.agree hb
  refine ⟨c, hc, ?_, hsecret, hepoch, hcontext, hmanifest, hperforms.state⟩
  rw [hperforms.run_eq, hdraw, frame_eq_ok, ← hciphertext, hV,
    hopens.bytes_eq_sealed hciphertext]
  refine ⟨V.ciphertext_lt, ?_⟩
  rw [hciphertext]
  rfl

/-- A seal under the decomposed manifest. -/
def toySealCall (state : Bytes) (nonce : UInt8) : SealCall toy where
  draw := { toyDraw with nonce := List.replicate 12 nonce }
  state := .of state
  manifest := .of toyManifest
  masterSecret := .of toySecret
  epochId := .of 9
  context := .of [0x63]
  sealCount := none

/-- An envelope of a history of two calls, opened under the composed manifest. -/
theorem toySealCall_authentic :
    ∃ c ∈ [toySealCall [0x01, 0x02] 0x22, toySealCall [0x03] 0x23],
      c.run.result = .ok ((toySealCall [0x03] 0x23).run.result.toOption.getD []) ∧
        c.masterSecret = .of toySecret ∧ c.epochId = .of 9 ∧ c.context = .of [0x63] ∧
        (∃ M', c.manifest = .of M' ∧ M'.memh = toyManifest'.memh) ∧ c.state = .of [0x03] := by
  have hopen : (unsealState toy
      (.of (.bytearray ((toySealCall [0x03] 0x23).run.result.toOption.getD [])))
      (.of toyManifest') (.of toySecret) (.of 9) (.of [0x63])).result = .ok [0x03] := by
    decide +kernel
  refine envelope_authentic hopen ⟨toy_aeadExact.correct, ?_, ?_, ?_⟩
  · decide +kernel
  · decide +kernel
  · decide +kernel

/-! ## 3. One place of a container -/

/-- **A seal at a place of a stream is of that segment of a call with that header.** -/
theorem Call.Seals.place {c : ChunkedCall P} {B : StreamBinding} {H : StreamHeader} {i : Nat}
    (hi : i < 2 ^ 64) {draw : Draw} {s : Bytes}
    (h : (Call.chunked c).Seals (B.segment H i) draw s) :
    ∃ (S : Bytes) (C : Nat) (hperforms : c.Performs B S C), hperforms.header = H ∧
      draw = c.draw.segment i ∧ (segmentStates S C)[i]? = some s := by
  generalize hb : B.segment H i = b at h
  cases h with
  | @segment _ B' S C hperforms j s hs =>
    have hj : j < 2 ^ 64 := by
      have hlt := (List.getElem?_eq_some_iff.mp hs).1
      rw [segmentStates_length S hperforms.pos] at hlt
      exact hlt.trans hperforms.header.numSegments_lt
    obtain ⟨rfl, hH, rfl⟩ := StreamBinding.segment_inj hi hj hb
    exact ⟨S, C, hperforms, hH.symm, rfl, hs⟩

/-- A call performs for one state and one segment size. -/
theorem ChunkedCall.Performs.unique {c : ChunkedCall P} {B B' : StreamBinding} {S S' : Bytes}
    {C C' : Nat} (h : c.Performs B S C) (h' : c.Performs B' S' C') : S = S' ∧ C = C' := by
  have hS := h.state.symm.trans h'.state
  have hC := h.segmentSize.symm.trans h'.segmentSize
  exact ⟨Arg.of.inj hS, Int.ofNat.inj (Arg.of.inj hC)⟩

/-! ## 4. The whole container -/

/-- **Each segment of a container that opens is that segment of a call** that wrote the
container's header. -/
theorem StreamBinding.OpensAll.sealed {calls : List (ChunkedCall P)} {opened : List Event}
    {B : StreamBinding} {H : StreamHeader} {Vs : List Envelope} {parts : List Bytes}
    (h : B.OpensAll P H Vs parts) (hcount : Vs.length = H.numSegments)
    (hideal : P.Ideal (historyLog (calls.map .chunked)) opened)
    (hlog : ∀ i V, Vs[i]? = some V → (B.segment H i).unsealLog P V ⊆ opened)
    {i : Nat} {V : Envelope} (hV : Vs[i]? = some V) :
    ∃ (k : Nat) (c : ChunkedCall P) (S : Bytes) (C : Nat) (hperforms : c.Performs B S C)
      (s : Bytes), calls[k]? = some c ∧ hperforms.header = H ∧
        (segmentStates S C)[i]? = some s ∧ parts[i]? = some s ∧
        (B.sealSegment P H c.draw.segment (s, i)).result = .ok V.bytes := by
  have hi : i < 2 ^ 64 := by
    have hlt := (List.getElem?_eq_some_iff.mp hV).1
    rw [hcount] at hlt
    exact hlt.trans H.numSegments_lt
  obtain ⟨s, hs, hopens⟩ := h.get hV
  obtain ⟨_, hmem, hcarries, hciphertext⟩ := hopens.sealed hideal (hlog i V hV)
  obtain ⟨c, hc, rfl⟩ := List.mem_map.mp hmem
  obtain ⟨k, hk⟩ := List.mem_iff_getElem?.mp hc
  obtain ⟨S, C, hperforms, hH, hdraw, hsegment⟩ := hcarries.seals.place hi
  refine ⟨k, c, S, C, hperforms, s, hk, hH, hsegment, hs, ?_⟩
  rw [StreamBinding.sealSegment_eq_ok, ← hdraw, ← hciphertext]
  refine ⟨V.ciphertext_lt, ?_⟩
  rw [hopens.bytes_eq_sealed hciphertext, hdraw]
  rfl

/-- The stream id of a header names the call that wrote it. -/
theorem eq_of_header {calls : List (ChunkedCall P)}
    (hids : (streamIds (historyLog (calls.map .chunked))).Nodup) {k k' : Nat}
    {c c' : ChunkedCall P} (hk : calls[k]? = some c) (hk' : calls[k']? = some c')
    {B B' : StreamBinding} {S S' : Bytes} {C C' : Nat} (h : c.Performs B S C)
    (h' : c'.Performs B' S' C') (hH : h.header = h'.header) : k = k' := by
  have hid : h.header.streamId ∈ streamIds c'.run.log := hH ▸ h'.streamId_mem
  have hcall : (calls.map Call.chunked)[k]? = some (.chunked c) := by
    rw [List.getElem?_map, hk]
    rfl
  have hcall' : (calls.map Call.chunked)[k']? = some (.chunked c') := by
    rw [List.getElem?_map, hk']
    rfl
  exact eq_of_streamId hids hcall hcall' h.streamId_mem hid

/-- **A call that sealed every place of a grammatical container returned the container.** -/
theorem ChunkedCall.Performs.result_eq_ok {c : ChunkedCall P} {B : StreamBinding} {S : Bytes}
    {C : Nat} (h : c.Performs B S C) {X : Bytes} {Vs : List Envelope}
    (hgrammar : StreamGrammar X h.header Vs)
    (hsegments : ∀ i V, Vs[i]? = some V → ∃ s, (segmentStates S C)[i]? = some s ∧
      (B.sealSegment P h.header c.draw.segment (s, i)).result = .ok V.bytes) :
    c.run.result = .ok X := by
  have hcount : (segmentStates S C).zipIdx.length = (Vs.map Envelope.bytes).length := by
    rw [List.length_zipIdx, segmentStates_length S h.pos, List.length_map, hgrammar.count]
    rfl
  have hloop : (Logged.each (B.sealSegment P h.header c.draw.segment)
      (segmentStates S C).zipIdx).result = .ok (Vs.map Envelope.bytes) := by
    rw [Logged.result_each_eq_ok, List.forall₂_iff_get]
    refine ⟨hcount, fun i hi hi' => ?_⟩
    rw [List.length_map] at hi'
    obtain ⟨s, hs, hseal⟩ := hsegments i Vs[i] (List.getElem?_eq_getElem hi')
    obtain ⟨_, rfl⟩ := List.getElem?_eq_some_iff.mp hs
    simpa only [List.get_eq_getElem, List.getElem_zipIdx, Nat.zero_add, List.getElem_map]
      using hseal
  rw [h.run_eq, StreamBinding.sealStream, Logged.perform_bind, Logged.bind_of_ok hloop,
    hgrammar.bytes]
  rfl

/-- **Container authenticity.**  A byte string that opens as a container is, byte for byte, the
container that exactly one call of the history returned, made with the same secret, epoch and
context and a manifest of the same fingerprint; and the state returned is that call's. -/
theorem container_authentic {calls : List (ChunkedCall P)}
    (hids : (streamIds (historyLog (calls.map .chunked))).Nodup) {x : Carrier} {M : Manifest P}
    {masterSecret : Arg Bytes} {epochId : Arg Int} {context : Arg Bytes} {S : Bytes}
    (hopen : (unsealStateChunked P (.of x) (.of M) masterSecret epochId context).result = .ok S)
    (hideal : P.Ideal (historyLog (calls.map .chunked))
      (unsealStateChunked P (.of x) (.of M) masterSecret epochId context).log) :
    ∃ (k : Nat) (c : ChunkedCall P), calls[k]? = some c ∧ c.run.result = .ok x.toBytes ∧
      c.masterSecret = masterSecret ∧ c.epochId = epochId ∧ c.context = context ∧
      (∃ M', c.manifest = .of M' ∧ M'.memh = M.memh) ∧ c.state = .of S ∧
      ∀ (k' : Nat) (c' : ChunkedCall P), calls[k']? = some c' →
        c'.run.result = .ok x.toBytes → k' = k := by
  obtain ⟨B, _, H, Vs, parts, hB, hx, hgrammar, hopens, rfl, -, hlog⟩ :=
    unsealStateChunked_ok hopen
  obtain rfl := Arg.of.inj hx
  have hsealed := fun {i : Nat} {V : Envelope} (hV : Vs[i]? = some V) =>
    hopens.sealed hgrammar.count hideal hlog hV
  -- the first segment finds the call
  have hfirst : 0 < Vs.length := hgrammar.count ▸ Nat.pos_of_ne_zero hgrammar.nonzero
  obtain ⟨k, c, S, C, hperforms, -, hk, rfl, -, -, -⟩ :=
    hsealed (List.getElem?_eq_getElem hfirst)
  -- and the others lead back to it
  have hsegments : ∀ i V, Vs[i]? = some V → ∃ s, (segmentStates S C)[i]? = some s ∧
      parts[i]? = some s ∧
      (B.sealSegment P hperforms.header c.draw.segment (s, i)).result = .ok V.bytes := by
    intro i V hV
    obtain ⟨k', c', S', C', hperforms', s, hk', hH, hs, hpart, hseal⟩ := hsealed hV
    obtain rfl := eq_of_header hids hk' hk hperforms' hperforms hH
    obtain rfl := Option.some.inj (hk'.symm.trans hk)
    obtain ⟨rfl, rfl⟩ := hperforms'.unique hperforms
    exact ⟨s, hs, hpart, hseal⟩
  have hresult : c.run.result = .ok x.toBytes := hperforms.result_eq_ok hgrammar
    fun i V hV => (hsegments i V hV).imp fun _ h => ⟨h.1, h.2.2⟩
  have hparts : parts = segmentStates S C := by
    have hlen : parts.length = (segmentStates S C).length := by
      rw [← hopens.length_eq, hgrammar.count, segmentStates_length S hperforms.pos]
      rfl
    refine List.ext_getElem hlen fun i hi hi' => ?_
    have hV := List.getElem?_eq_getElem (hopens.length_eq ▸ hi)
    obtain ⟨s, hs, hpart, -⟩ := hsegments i _ hV
    exact (List.getElem?_eq_some_iff.mp hpart).2.trans (List.getElem?_eq_some_iff.mp hs).2.symm
  obtain ⟨hsecret, hepoch, hcontext, hmanifest⟩ := hperforms.presented.agree hB
  refine ⟨k, c, hk, hresult, hsecret, hepoch, hcontext, hmanifest, ?_, ?_⟩
  · rw [hparts, segmentStates_flatten S hperforms.pos]
    exact hperforms.state
  · intro k' c' hk' hresult'
    obtain ⟨B', S', C', hperforms'⟩ := c'.performs_of_ok hresult'
    refine eq_of_header hids hk' hk hperforms' hperforms ?_
    rw [hperforms'.run_eq] at hresult'
    rw [(StreamBinding.sealStream_eq_ok.mp hresult').2.symm] at hgrammar
    exact (StreamHeader.bytes_inj hgrammar.bytes).1

/-- A chunked seal of three bytes in segments of two. -/
def toyChunkedCall (id : UInt8) (state : Bytes) : ChunkedCall toy where
  draw := { toyStreamDraw with streamId := List.replicate 16 id, streamId_length := rfl }
  state := .of state
  manifest := .of toyManifest
  masterSecret := .of toySecret
  epochId := .of 9
  context := .of [0x63]
  segmentSize := .of 2

/-- A container of a history of two calls, opened under the composed manifest. -/
theorem toyChunkedCall_authentic :
    ∃ (k : Nat) (c : ChunkedCall toy),
      [toyChunkedCall 0x44 [0x01, 0x02, 0x03], toyChunkedCall 0x45 [0x04, 0x05, 0x06]][k]?
        = some c ∧
      c.run.result
        = .ok ((toyChunkedCall 0x45 [0x04, 0x05, 0x06]).run.result.toOption.getD []) ∧
      c.masterSecret = .of toySecret ∧ c.epochId = .of 9 ∧ c.context = .of [0x63] ∧
      (∃ M', c.manifest = .of M' ∧ M'.memh = toyManifest'.memh) ∧
      c.state = .of [0x04, 0x05, 0x06] ∧
      ∀ (k' : Nat) (c' : ChunkedCall toy),
        [toyChunkedCall 0x44 [0x01, 0x02, 0x03], toyChunkedCall 0x45 [0x04, 0x05, 0x06]][k']?
          = some c' →
        c'.run.result
          = .ok ((toyChunkedCall 0x45 [0x04, 0x05, 0x06]).run.result.toOption.getD []) →
        k' = k := by
  have hopen : (unsealStateChunked toy
      (.of (.bytes ((toyChunkedCall 0x45 [0x04, 0x05, 0x06]).run.result.toOption.getD [])))
      (.of toyManifest') (.of toySecret) (.of 9) (.of [0x63])).result
        = .ok [0x04, 0x05, 0x06] := by decide +kernel
  refine container_authentic ?_ hopen ⟨toy_aeadExact.correct, ?_, ?_, ?_⟩
  · decide +kernel
  · decide +kernel
  · decide +kernel
  · decide +kernel

end Sce
