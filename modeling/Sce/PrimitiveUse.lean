/-
# What the libraries are asked

The libraries behind the package reject arguments of the wrong size with exceptions of their
own: a key that is not 32 bytes, a nonce that is not 12.  The model's platform has no such
exceptions, and this file is why it needs none.  Whatever the four entry points are called with,
every evaluation of a primitive is within its domain, and every input to a hash, to the key
derivation and to the cipher's associated data carries its label in front
(`primitives_in_domain`).  The domain is the one the package checks: that the cipher takes any
data of at most `MAX_STATE` bytes is an assumption, for the real one has a limit of its own on
the size of its data.

It says too how much an unseal asks for.  On anything the parser accepts the sizes of what it
evaluates are read off the sizes of its arguments, whether the envelope opens or not and
whatever it fails on (`unseal_work`).  A container of the grammar costs what its envelopes do, up
to the first that does not open (`stream_work`), and no bytes cost more than they have
(`decryptions_bounded`).
-/
import Sce.StreamBinds
import Sce.StreamErrors

namespace Sce

open BigEndian

variable {P : Platform}

/-! ## 1. Domains and labels -/

/-- The evaluation is one its library accepts, and its input is labelled. -/
def Event.InDomain : Event → Prop
  | .sha3 x => KDF_CANON_TAG <+: x ∨ DOMAIN ++ COMMIT_LABEL <+: x
  | .hkdf q =>
    q.length = 64 ∧ q.salt.length = 16 ∧ q.info.length = 48 ∧ KDF_INFO_PREFIX <+: q.info ∧
      16 ≤ q.ikm.length
  | .encrypt e =>
    e.key.length = 32 ∧ e.nonce.length = 12 ∧ e.data.length ≤ MAX_STATE ∧ e.aad.length = 121 ∧
      DOMAIN ++ HDR_LABEL <+: e.aad
  | .decrypt d =>
    d.key.length = 32 ∧ d.nonce.length = 12 ∧ 16 ≤ d.ciphertext.length ∧
      d.ciphertext.length < 2 ^ 32 ∧ d.aad.length = 121 ∧ DOMAIN ++ HDR_LABEL <+: d.aad
  | .streamId s => s.length = 16

theorem Environment.info_length (P : Platform) (E : Environment) : (E.info P).length = 48 := by
  rw [Environment.info, List.length_append, P.sha3_256_length]
  rfl

theorem Environment.aadBytes_length (E : Environment) {header : Bytes} (h : header.length = 65) :
    (E.aadBytes header).length = 121 := by
  simp only [Environment.aadBytes, List.length_append, h, E.memh_length, beBytes_length]
  rfl

theorem Environment.label_aadBytes (E : Environment) (header : Bytes) :
    DOMAIN ++ HDR_LABEL <+: E.aadBytes header := by
  rw [Environment.aadBytes, ← List.append_assoc]
  exact List.prefix_append _ _

theorem Binding.kEnc_length (P : Platform) (b : Binding) (salt : Bytes) :
    (b.kEnc P salt).length = 32 := by
  rw [Binding.kEnc, List.length_take, Platform.hkdfOf, P.hkdf_length]
  rfl

/-- A derivation is in the domain. -/
theorem Binding.deriveLog_inDomain (b : Binding) {salt : Bytes} (hsalt : salt.length = 16) :
    ∀ e ∈ b.deriveLog P salt, e.InDomain := by
  intro e he
  simp only [Binding.deriveLog, List.mem_cons, List.not_mem_nil, or_false] at he
  rcases he with rfl | rfl | rfl
  · left
    simp only [Environment.kdfCanonical]
    exact List.prefix_append _ _
  · exact ⟨rfl, hsalt, b.info_length P, List.prefix_append _ _, b.secret_length⟩
  · right
    exact List.prefix_append _ _

/-- So is a seal. -/
theorem Binding.sealLog_inDomain (b : Binding) (draw : Draw) {S : Bytes}
    (hS : S.length ≤ MAX_STATE) : ∀ e ∈ b.sealLog P draw S, e.InDomain := by
  intro e he
  rcases List.mem_append.mp he with hderive | hencrypt
  · exact b.deriveLog_inDomain draw.salt_length e hderive
  · obtain rfl := List.mem_singleton.mp hencrypt
    exact ⟨b.kEnc_length P _, draw.nonce_length, hS, b.aadBytes_length (headerBytes_length _ _),
      b.label_aadBytes _⟩

/-- And an unseal. -/
theorem Binding.unsealLog_inDomain (b : Binding) (V : Envelope) :
    ∀ e ∈ b.unsealLog P V, e.InDomain := by
  intro e he
  rcases List.mem_append.mp he with hderive | hdecrypt
  · exact b.deriveLog_inDomain V.salt_length e hderive
  · obtain rfl := List.mem_singleton.mp hdecrypt
    exact ⟨b.kEnc_length P _, V.nonce_length, V.tag_le, V.ciphertext_lt,
      b.aadBytes_length V.header_length, b.label_aadBytes _⟩

/-! ## 2. Where an event comes from -/

/-- An event of a seal of either kind is the draw of a stream id or belongs to a seal. -/
theorem Call.mem_log {c : Call P} {e : Event} (he : e ∈ c.run.log) :
    (∃ id, e = .streamId id ∧ id.length = 16) ∨
      ∃ b draw S, c.Seals b draw S ∧ e ∈ b.sealLog P draw S := by
  cases c with
  | direct c =>
    rcases c.run_cases with ⟨err, hfail⟩ | ⟨b, S, hperforms⟩
    · rw [Call.run, hfail] at he
      exact absurd he (by simp)
    · rw [Call.run, hperforms.run_eq] at he
      exact .inr ⟨b, c.draw, S, .direct hperforms, he⟩
  | chunked c =>
    rcases c.run_cases with ⟨log, err, hfail, hlog⟩ | ⟨B, S, C, hperforms⟩
    · rw [Call.run, hfail] at he
      exact .inl ⟨_, List.mem_singleton.mp (hlog he), c.draw.streamId_length⟩
    · rw [Call.run, hperforms.run_eq] at he
      rcases StreamBinding.mem_log_sealStream he with rfl | ⟨i, s, hs, he, -⟩
      · exact .inl ⟨_, rfl, c.draw.streamId_length⟩
      · exact .inr ⟨_, _, s, .segment hperforms hs, he⟩

/-- An event of an unseal belongs to the unseal of an envelope. -/
theorem mem_log_unsealState {sealed : Arg Carrier} {manifest : Arg (Manifest P)}
    {masterSecret : Arg Bytes} {epochId : Arg Int} {context : Arg Bytes} {e : Event}
    (he : e ∈ (unsealState P sealed manifest masterSecret epochId context).log) :
    ∃ (b : Binding) (V : Envelope), e ∈ b.unsealLog P V := by
  rcases unsealState_cases sealed manifest masterSecret epochId context with
    ⟨err, hfail⟩ | ⟨b, x, V, hb, rfl, hx⟩
  · rw [hfail] at he
    exact absurd he (by simp)
  · rw [unsealState_eq hb hx] at he
    exact ⟨b, V, he⟩

/-- In the segment loop, to that of one of the segments. -/
theorem mem_log_unsealSegments {X : Bytes} {M : Manifest P} {masterSecret : Arg Bytes}
    {epochId : Arg Int} {u : Bytes} {H : StreamFields} {e : Event} :
    ∀ {remaining i : Nat} {s : SegmentLoop},
      e ∈ (unsealSegmentsWith P (deriveKeyMaterial P) X M masterSecret epochId u H
        remaining i s).log → ∃ (b : Binding) (V : Envelope), e ∈ b.unsealLog P V := by
  intro remaining
  induction remaining with
  | zero =>
    intro i s he
    exact absurd he (by simp [unsealSegmentsWith])
  | succ remaining ih =>
    intro i s he
    rw [unsealSegmentsWith] at he
    split_ifs at he with hframe
    · exact absurd he (by simp)
    dsimp only at he
    split_ifs at he with henv
    · exact absurd he (by simp)
    obtain ⟨ctx, -, he⟩ := Logged.mem_log_liftM_bind.mp he
    rcases Logged.mem_log_bind.mp he with hunseal | ⟨segment, -, hrest⟩
    · exact mem_log_unsealState hunseal
    · exact ih hrest

theorem mem_log_unsealStateChunked {container : Arg Carrier} {manifest : Arg (Manifest P)}
    {masterSecret : Arg Bytes} {epochId : Arg Int} {context : Arg Bytes} {e : Event}
    (he : e ∈ (unsealStateChunked P container manifest masterSecret epochId context).log) :
    ∃ (b : Binding) (V : Envelope), e ∈ b.unsealLog P V := by
  unfold unsealStateChunked unsealStateChunkedWith at he
  obtain ⟨M, -, he⟩ := Logged.mem_log_liftM_bind.mp he
  obtain ⟨u, -, he⟩ := Logged.mem_log_liftM_bind.mp he
  obtain ⟨X, -, he⟩ := Logged.mem_log_liftM_bind.mp he
  obtain ⟨H, -, he⟩ := Logged.mem_log_liftM_bind.mp he
  obtain ⟨_, -, he⟩ := Logged.mem_log_liftM_bind.mp he
  rcases Logged.mem_log_bind.mp he with hloop | ⟨s, -, hfinish⟩
  · exact mem_log_unsealSegments hloop
  · exact absurd hfinish (by simp)

/-! ## 3. Every call -/

/-- A call of one of the four entry points, with arguments of any types. -/
inductive EntryCall (P : Platform)
  | sealing (c : Call P)
  | unsealing (sealed : Arg Carrier) (manifest : Arg (Manifest P)) (masterSecret : Arg Bytes)
      (epochId : Arg Int) (context : Arg Bytes)
  | unsealingChunked (container : Arg Carrier) (manifest : Arg (Manifest P))
      (masterSecret : Arg Bytes) (epochId : Arg Int) (context : Arg Bytes)

def EntryCall.run : EntryCall P → Py Bytes
  | .sealing c => c.run
  | .unsealing sealed manifest masterSecret epochId context =>
    unsealState P sealed manifest masterSecret epochId context
  | .unsealingChunked container manifest masterSecret epochId context =>
    unsealStateChunked P container manifest masterSecret epochId context

/-- **Every primitive is evaluated within its domain, on labelled inputs**, whatever an entry
point is called with. -/
theorem primitives_in_domain (c : EntryCall P) : ∀ e ∈ c.run.log, e.InDomain := by
  intro e he
  have hunseal : (∃ (b : Binding) (V : Envelope), e ∈ b.unsealLog P V) → e.InDomain := by
    rintro ⟨b, V, hV⟩
    exact b.unsealLog_inDomain V e hV
  cases c with
  | sealing c =>
    rcases c.mem_log he with ⟨id, rfl, hid⟩ | ⟨b, draw, S, hseals, he⟩
    · exact hid
    · exact b.sealLog_inDomain draw hseals.length_le e he
  | unsealing sealed manifest masterSecret epochId context =>
    exact hunseal (mem_log_unsealState he)
  | unsealingChunked container manifest masterSecret epochId context =>
    exact hunseal (mem_log_unsealStateChunked he)

/-- The stream id a chunked seal draws is among what is evaluated. -/
theorem toyChunkedCall_inDomain : (Event.streamId (List.replicate 16 0x44)).InDomain :=
  primitives_in_domain (.sealing (.chunked (toyChunkedCall 0x44 [0x01, 0x02, 0x03]))) _
    (by decide +kernel)

/-! ## 4. How much an unseal asks for -/

/-- The sizes of what is evaluated. -/
inductive Work
  | sha3 (input : Nat)
  | hkdf (length salt info ikm : Nat)
  | encrypt (key nonce data aad : Nat)
  | decrypt (key nonce ciphertext aad : Nat)
  | streamId (id : Nat)
  deriving DecidableEq

def Event.work : Event → Work
  | .sha3 x => .sha3 x.length
  | .hkdf q => .hkdf q.length q.salt.length q.info.length q.ikm.length
  | .encrypt e => .encrypt e.key.length e.nonce.length e.data.length e.aad.length
  | .decrypt d => .decrypt d.key.length d.nonce.length d.ciphertext.length d.aad.length
  | .streamId s => .streamId s.length

/-- The sizes of one unseal: of a secret, a context and an envelope of so many bytes. -/
def unsealWork (secret context envelope : Nat) : List Work :=
  [.sha3 (73 + context), .hkdf 64 16 48 secret, .sha3 51, .decrypt 32 12 (envelope - 69) 121]

theorem Environment.kdfCanonical_length (E : Environment) :
    E.kdfCanonical.length = 73 + E.context.length := by
  simp only [Environment.kdfCanonical, List.length_append, lenPrefix_length,
    beBytes_length, E.memh_length]
  have htag : KDF_CANON_TAG.length = 21 := rfl
  omega

theorem Binding.commitInput_length (P : Platform) (b : Binding) (salt : Bytes) :
    (b.commitInput P salt).length = 51 := by
  rw [Binding.commitInput, List.length_append, List.length_drop, Platform.hkdfOf, P.hkdf_length]
  rfl

theorem Binding.unsealLog_work (b : Binding) (V : Envelope) :
    (b.unsealLog P V).map Event.work
      = unsealWork b.masterSecret.length b.context.length V.bytes.length := by
  have hkdf : ((b.hkdfInput P V.salt).info).length = 48 := b.info_length P
  have hsalt : ((b.hkdfInput P V.salt).salt).length = 16 := V.salt_length
  have hkey : ((b.decryption P V).key).length = 32 := b.kEnc_length P V.salt
  have haad : ((b.decryption P V).aad).length = 121 := b.aadBytes_length V.header_length
  have hnonce : ((b.decryption P V).nonce).length = 12 := V.nonce_length
  have hciphertext : ((b.decryption P V).ciphertext).length = V.bytes.length - 69 := by
    rw [V.bytes_length, Nat.add_sub_cancel_left]
    rfl
  simp only [Binding.unsealLog, Binding.deriveLog, List.cons_append, List.nil_append,
    List.map_cons, List.map_nil, Event.work, unsealWork, b.kdfCanonical_length,
    b.commitInput_length, hkdf, hsalt, hkey, haad, hnonce, hciphertext]
  rfl

/-- **The work of an unseal does not tell how it ends.**  On bytes the parser accepts, with
arguments that pass the checks, the evaluations made and their sizes are those given by the sizes
of secret, context and envelope: whether a state comes back, the commitment differs, or the tag
does. -/
theorem unseal_work (x : Carrier) (M : Manifest P) {masterSecret context : Bytes}
    (hsecret : 16 ≤ masterSecret.length) (hcontext : context.length ≤ MAX_LP_FIELD)
    {epochId : Nat} (hepoch : epochId < 2 ^ 64) {p : Parsed}
    (hparse : parseBytes x.toBytes = .ok p) :
    (unsealState P (.of x) (.of M) (.of masterSecret) (.of (epochId : Int))
        (.of context)).log.map Event.work
      = unsealWork masterSecret.length context.length x.toBytes.length := by
  have hb := (Environment.ofChecked_presentedBy M hepoch hcontext).binding hsecret
  obtain ⟨V, hV, -⟩ := parseBytes_eq_ok.mp hparse
  rw [unsealState_eq hb hV, hV]
  exact Binding.unsealLog_work _ V

/-- A wrong secret asks for what the right one does. -/
theorem toyEnvelope_work :
    (unsealState toy (.of (.bytes toyEnvelope)) (.of toyManifest) (.of (List.replicate 16 0x34))
        (.of ((9 : Nat) : Int)) (.of [0x63])).log.map Event.work = unsealWork 16 1 88 := by
  have hlen : (Carrier.bytes toyEnvelope).toBytes.length = 88 := by decide +kernel
  have hmagic : (parseBytes (Carrier.bytes toyEnvelope).toBytes).toOption.isSome := by
    decide +kernel
  cases hparse : parseBytes (Carrier.bytes toyEnvelope).toBytes with
  | error e =>
    rw [hparse] at hmagic
    exact absurd hmagic (by simp [Except.toOption])
  | ok p =>
    have hsecret : 16 ≤ (List.replicate 16 0x34 : Bytes).length := by decide
    have hcontext : ([0x63] : Bytes).length ≤ MAX_LP_FIELD := by decide
    have hwork := unseal_work (.bytes toyEnvelope) toyManifest hsecret hcontext
      (by decide : 9 < 2 ^ 64) hparse
    rw [hlen] at hwork
    exact hwork

/-- Opening an envelope at its place, in sizes. -/
theorem openSegment_work {B : StreamBinding} {H : StreamHeader} {M : Manifest P}
    {masterSecret : Arg Bytes} {epochId : Arg Int} {context : Arg Bytes}
    (hB : B.PresentedBy (.of M) masterSecret epochId context) {i : Nat} (hi : i < 2 ^ 64)
    (V : Envelope) :
    (openSegment P M masterSecret epochId B.context H.toStreamFields (V.bytes, i)).log.map
        Event.work
      = unsealWork B.masterSecret.length (B.context.length + 74) V.bytes.length := by
  have hcontext : (B.segment H i).context.length = B.context.length + 74 := by
    rw [show (B.segment H i).context = segContextBytes B.context H.streamId i H.numSegments
      H.totalLen H.segmentSize from rfl, segContextBytes_length, H.streamId_length, STREAM_ID_LEN]
    omega
  rw [openSegment_eq hB hi, Binding.unsealLog_work, hcontext]
  rfl

/-- A container of the grammar fails to open in one way. -/
theorem StreamGrammar.mismatch_of_failed {B : StreamBinding} {x : Carrier} {H : StreamHeader}
    {Vs : List Envelope} (hgrammar : StreamGrammar x.toBytes H Vs) {M : Manifest P}
    {masterSecret : Arg Bytes} {epochId : Arg Int} {context : Arg Bytes}
    (hB : B.PresentedBy (.of M) masterSecret epochId context) {e : PyExc}
    (h : (unsealStateChunked P (.of x) (.of M) masterSecret epochId context).result = .error e) :
    e = mismatch := by
  rw [unsealStateChunked_eq hB, hgrammar.scanStream_eq, Logged.liftM_ok, Logged.pure_bind] at h
  rcases Logged.result_bind_eq_error.mp h with hopen | ⟨parts, -, hfinish⟩
  · exact openSegments_error hB hgrammar.scanStream_eq hopen
  · have hfinish : (if (parts.map List.length).sum ≠ H.totalLen then .error mismatch
        else .ok parts.flatten : Except PyExc Bytes) = .error e := hfinish
    split_ifs at hfinish
    exact (Except.error.inj hfinish).symm

/-- So does one with an envelope that does not open. -/
theorem StreamGrammar.mismatch_of_place {B : StreamBinding} {x : Carrier} {H : StreamHeader}
    {Vs : List Envelope} (hgrammar : StreamGrammar x.toBytes H Vs) {M : Manifest P}
    {masterSecret : Arg Bytes} {epochId : Arg Int} {context : Arg Bytes}
    (hB : B.PresentedBy (.of M) masterSecret epochId context) {i : Nat} {V : Envelope}
    (hV : Vs[i]? = some V) {e : PyExc}
    (he : (openSegment P M masterSecret epochId B.context H.toStreamFields (V.bytes, i)).result
      = .error e) :
    (unsealStateChunked P (.of x) (.of M) masterSecret epochId context).result
      = .error mismatch := by
  cases hresult : (unsealStateChunked P (.of x) (.of M) masterSecret epochId context).result with
  | error e => rw [hgrammar.mismatch_of_failed hB hresult]
  | ok S =>
    rw [unsealStateChunked_eq hB, hgrammar.scanStream_eq, Logged.liftM_ok, Logged.pure_bind]
      at hresult
    obtain ⟨parts, hparts, -⟩ := Logged.result_bind_eq_ok.mp hresult
    have hplace : (V.bytes, i) ∈ (Vs.map Envelope.bytes).zipIdx :=
      List.mem_zipIdx_iff_getElem?.mpr (by rw [List.getElem?_map, hV]; rfl)
    obtain ⟨y, hy⟩ := Logged.exists_result_each_eq_ok.mp ⟨parts, hparts⟩ _ hplace
    rw [he] at hy
    exact absurd hy (by simp)

/-- The places of a container are those of its envelopes. -/
theorem getElem?_zipIdx_bytes {Vs : List Envelope} {i : Nat} {z : Bytes × Nat} :
    (Vs.map Envelope.bytes).zipIdx[i]? = some z ↔ ∃ V, Vs[i]? = some V ∧ (V.bytes, i) = z := by
  simp [List.getElem?_zipIdx]

/-- **The work of unsealing a container** of the grammar, whatever is in it: that of its
envelopes up to the first that does not open, each under a context 74 bytes longer than the
stream's.  Of the `k` envelopes worked on all but the last open, and if there are more the last
does not and the run ends there. -/
theorem stream_work {x : Carrier} {H : StreamHeader} {Vs : List Envelope}
    (hgrammar : StreamGrammar x.toBytes H Vs) (M : Manifest P) {masterSecret context : Bytes}
    (hsecret : 16 ≤ masterSecret.length) (hcontext : context.length ≤ 2 ^ 32 - 75)
    {epochId : Nat} (hepoch : epochId < 2 ^ 64) :
    ∃ k ≤ Vs.length,
      (unsealStateChunked P (.of x) (.of M) (.of masterSecret) (.of (epochId : Int))
          (.of context)).log.map Event.work
        = (Vs.take k).flatMap (fun V =>
            unsealWork masterSecret.length (context.length + 74) V.bytes.length) ∧
      (∀ i V, i + 1 < k → Vs[i]? = some V →
        ∃ S, (openSegment P M (.of masterSecret) (.of (epochId : Int)) context H.toStreamFields
          (V.bytes, i)).result = .ok S) ∧
      (k < Vs.length →
        (∃ i V, k = i + 1 ∧ Vs[i]? = some V ∧
          (openSegment P M (.of masterSecret) (.of (epochId : Int)) context H.toStreamFields
            (V.bytes, i)).result = .error mismatch) ∧
        (unsealStateChunked P (.of x) (.of M) (.of masterSecret) (.of (epochId : Int))
          (.of context)).result = .error mismatch) := by
  obtain ⟨B, hB⟩ := exists_streamBinding M hsecret hepoch hcontext
  obtain rfl : masterSecret = B.masterSecret := Arg.of.inj hB.masterSecret
  obtain rfl : context = B.context := Arg.of.inj hB.context
  have hrun := unsealStateChunked_eq hB (x := x)
  rw [hgrammar.scanStream_eq, Logged.liftM_ok, Logged.pure_bind] at hrun
  obtain ⟨k, hk, hlog, hopen, hstop⟩ := Logged.log_each
    (openSegment P M (.of B.masterSecret) (.of (epochId : Int)) B.context H.toStreamFields)
    (Vs.map Envelope.bytes).zipIdx
  have hlen : (Vs.map Envelope.bytes).zipIdx.length = Vs.length := by simp
  rw [hlen] at hk hstop
  refine ⟨k, hk, ?_, ?_, ?_⟩
  · have hstep : ∀ x ∈ (Vs.map Envelope.bytes).zipIdx.take k,
        (openSegment P M (.of B.masterSecret) (.of (epochId : Int)) B.context H.toStreamFields
          x).log.map Event.work
          = unsealWork B.masterSecret.length (B.context.length + 74) x.1.length := by
      intro x hx
      obtain ⟨i, hz⟩ := List.mem_iff_getElem?.mp (List.mem_of_mem_take hx)
      obtain ⟨V, hV, rfl⟩ := getElem?_zipIdx_bytes.mp hz
      exact openSegment_work hB (hgrammar.index_lt hV) V
    calc
      (unsealStateChunked P (.of x) (.of M) (.of B.masterSecret) (.of (epochId : Int))
          (.of B.context)).log.map Event.work
          = (((Vs.map Envelope.bytes).zipIdx.take k).flatMap fun x =>
              (openSegment P M (.of B.masterSecret) (.of (epochId : Int)) B.context
                H.toStreamFields x).log).map Event.work := by
            rw [hrun, Logged.log_bind_liftM, openSegments, hlog]
      _ = ((Vs.map Envelope.bytes).zipIdx.take k).flatMap fun x =>
            unsealWork B.masterSecret.length (B.context.length + 74) x.1.length := by
            rw [List.map_flatMap]
            exact List.flatMap_congr hstep
      _ = (Vs.take k).flatMap fun V =>
            unsealWork B.masterSecret.length (B.context.length + 74) V.bytes.length := by
            rw [← List.flatMap_map Prod.fst fun env : Bytes =>
              unsealWork B.masterSecret.length (B.context.length + 74) env.length, List.map_take,
              List.zipIdx_map_fst, ← List.map_take, List.flatMap_map]
  · intro i V hi hV
    exact hopen i _ hi (getElem?_zipIdx_bytes.mpr ⟨V, hV, rfl⟩)
  · intro hlt
    obtain ⟨i, z, e, rfl, hz, he⟩ := hstop hlt
    obtain ⟨V, hV, rfl⟩ := getElem?_zipIdx_bytes.mp hz
    obtain rfl := openSegment_error hB (hgrammar.index_lt hV) he
    exact ⟨⟨i, V, rfl, hV, he⟩, hgrammar.mismatch_of_place hB hV he⟩

/-- Two framed envelopes under a wrong secret: the first does not open, and the second costs
nothing. -/
theorem toyTwin_work :
    (unsealStateChunked toy (.of (.bytes (toyTwin 0x03))) (.of toyManifest)
        (.of (List.replicate 16 0x34)) (.of ((9 : Nat) : Int)) (.of [0x63])).log.map Event.work
      = unsealWork 16 75 toyFront.bytes.length ∧
    (unsealStateChunked toy (.of (.bytes (toyTwin 0x03))) (.of toyManifest)
        (.of (List.replicate 16 0x34)) (.of ((9 : Nat) : Int)) (.of [0x63])).result
      = .error mismatch := by
  have hfront : (openSegment toy toyManifest (.of (List.replicate 16 0x34))
      (.of ((9 : Nat) : Int)) [0x63] toyHeader.toStreamFields (toyFront.bytes, 0)).result
        = .error mismatch := by decide +kernel
  have hsecret : 16 ≤ (List.replicate 16 0x34 : Bytes).length := by decide
  have hcontext : ([0x63] : Bytes).length ≤ 2 ^ 32 - 75 := by decide
  obtain ⟨k, -, hlog, hopen, hstop⟩ := stream_work (toyTwin_grammar 0x03) toyManifest hsecret
    hcontext (by decide : 9 < 2 ^ 64)
  have hfirst : k ≤ 1 := by
    by_contra hlt
    obtain ⟨S, hS⟩ := hopen 0 toyFront (by omega) rfl
    rw [hfront] at hS
    exact absurd hS (by simp)
  have hsecond : k < [toyFront, toyBack 0x03].length := Nat.lt_succ_of_le hfirst
  obtain ⟨⟨i, V, rfl, hV, -⟩, hresult⟩ := hstop hsecond
  obtain rfl : i = 0 := by omega
  exact ⟨hlog, hresult⟩

/-! ## 5. Bytes that need not be a container -/

/-- What a log decrypts, each envelope counted with its header and its frame. -/
def decryptedBytes (log : List Event) : Nat :=
  ((decryptions log).map fun d => d.ciphertext.length + 77).sum

@[simp] theorem decryptedBytes_append (log log' : List Event) :
    decryptedBytes (log ++ log') = decryptedBytes log + decryptedBytes log' := by
  simp [decryptedBytes, decryptions_append]

/-- The log of two computations in a row. -/
theorem decryptedBytes_bind_le {α β : Type} {run : Py α} {f : α → Py β} {n m : Nat}
    (hrun : decryptedBytes run.log ≤ n) (hf : ∀ a, run.result = .ok a →
      decryptedBytes (f a).log ≤ m) : decryptedBytes (run >>= f).log ≤ n + m := by
  cases hresult : run.result with
  | ok a =>
    rw [Logged.bind_of_ok hresult, decryptedBytes_append]
    exact Nat.add_le_add hrun (hf a hresult)
  | error e =>
    rw [Logged.bind_of_error hresult]
    exact hrun.trans (Nat.le_add_right n m)

theorem decryptedBytes_liftM_bind_le {α β : Type} {x : Except PyExc α} {f : α → Py β} {m : Nat}
    (hf : ∀ a, x = .ok a → decryptedBytes (f a).log ≤ m) :
    decryptedBytes ((liftM x : Py α) >>= f).log ≤ m := by
  have hlift : decryptedBytes (liftM x : Py α).log ≤ 0 := Nat.zero_le 0
  have h := decryptedBytes_bind_le hlift hf
  rwa [Nat.zero_add] at h

/-- An unseal decrypts no more than it is given. -/
theorem unsealState_decryptedBytes (env : Bytes) (manifest : Arg (Manifest P))
    (masterSecret : Arg Bytes) (epochId : Arg Int) (context : Arg Bytes) :
    decryptedBytes (unsealState P (.of (.bytes env)) manifest masterSecret epochId context).log
      ≤ SEG_FRAME_size + env.length := by
  rcases unsealState_cases (.of (.bytes env)) manifest masterSecret epochId context with
    ⟨e, hfail⟩ | ⟨b, x, V, hb, hx, hV⟩
  · rw [hfail]
    exact Nat.zero_le _
  · obtain rfl := Arg.of.inj hx
    have henv : env = V.bytes := hV
    have hlen := V.bytes_length
    rw [unsealState_eq hb hV, henv]
    show V.ciphertext.length + 77 + 0 ≤ 8 + V.bytes.length
    omega

/-- The loop decrypts no more than is left of the container. -/
theorem unsealSegments_decryptedBytes {X : Bytes} {M : Manifest P} {masterSecret : Arg Bytes}
    {epochId : Arg Int} {u : Bytes} {H : StreamFields} :
    ∀ (remaining i : Nat) (s : SegmentLoop), decryptedBytes
      (unsealSegmentsWith P (deriveKeyMaterial P) X M masterSecret epochId u H remaining i s).log
        ≤ X.length - s.off := by
  intro remaining
  induction remaining with
  | zero =>
    intro i s
    exact Nat.zero_le _
  | succ remaining ih =>
    intro i s
    rw [unsealSegmentsWith]
    split_ifs with hframe
    · exact Nat.zero_le _
    dsimp only
    split_ifs with henv
    · exact Nat.zero_le _
    -- the frame and the envelope are taken off what is left
    have hlen : (slice X (s.off + SEG_FRAME_size) (s.off + SEG_FRAME_size
        + beNat (slice X s.off (s.off + SEG_FRAME_size)))).length
        = beNat (slice X s.off (s.off + SEG_FRAME_size)) := by
      rw [slice_length (by omega)]
      omega
    have hrest : (SEG_FRAME_size + beNat (slice X s.off (s.off + SEG_FRAME_size))
        + (X.length - (s.off + SEG_FRAME_size + beNat (slice X s.off (s.off + SEG_FRAME_size)))))
        ≤ X.length - s.off := by omega
    refine (decryptedBytes_liftM_bind_le fun ctx _ => ?_).trans hrest
    refine decryptedBytes_bind_le ?_ fun segment _ => ih (i + 1) _
    have hunseal := unsealState_decryptedBytes (slice X (s.off + SEG_FRAME_size)
      (s.off + SEG_FRAME_size + beNat (slice X s.off (s.off + SEG_FRAME_size)))) (.of M)
      masterSecret epochId (.of ctx)
    rw [hlen] at hunseal
    exact hunseal

/-- **The work is linear in the bytes**, whatever they are, whatever count their header claims,
and whatever the arguments: each decryption is paid for by the bytes of its own envelope and
frame, after a header. -/
theorem decryptions_bounded (x : Carrier) (manifest : Arg (Manifest P)) (masterSecret : Arg Bytes)
    (epochId : Arg Int) (context : Arg Bytes) :
    decryptedBytes (unsealStateChunked P (.of x) manifest masterSecret epochId context).log
      ≤ x.toBytes.length - 45 := by
  unfold unsealStateChunked unsealStateChunkedWith
  refine decryptedBytes_liftM_bind_le fun M _ => ?_
  refine decryptedBytes_liftM_bind_le fun u _ => ?_
  refine decryptedBytes_liftM_bind_le fun X hX => ?_
  obtain rfl : x.toBytes = X := Except.ok.inj hX
  refine decryptedBytes_liftM_bind_le fun H _ => ?_
  refine decryptedBytes_liftM_bind_le fun _ _ => ?_
  exact decryptedBytes_bind_le (m := 0) (unsealSegments_decryptedBytes _ _ _)
    fun s _ => Nat.zero_le 0

end Sce
