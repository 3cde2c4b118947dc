/-
# Direct seals and segments

A segment is an ordinary envelope under an unusual context, and `seal_state` takes any context.
So the two layers are separate only where callers keep out of the contexts of segments:

* `NamesPlace` says which contexts those are: the segment contexts of an index in a header the
  consumer lets through, for a state that leaves the others room to make up the total length.
* `container_of_segments`: where no direct call of a history uses one, every container that
  opens is made of segments that chunked calls sealed, and of no envelope of a direct call.
* `direct_segment_opens`: a direct call that does use one returns an envelope that some
  container opens with.
* `toyForgery_opens`: a container of one segment that no chunked call sealed.
-/
import Sce.Authenticity

namespace Sce

variable {P : Platform}

/-! ## 1. Contexts that name a place -/

/-- **The context is that of a place in some container**, one that a state of the given size can
fill. -/
def NamesPlace (context : Bytes) (size : Nat) : Prop :=
  ∃ (userContext : Bytes) (H : StreamHeader) (i : Nat),
    H.toStreamFields.segContext userContext i = .ok context ∧ i < H.numSegments ∧
      (H.totalLen = 0 → H.numSegments = 1) ∧ size ≤ H.totalLen ∧
      H.totalLen ≤ size + (H.numSegments - 1) * MAX_STATE

/-- Such a context starts with the label of the stream layer. -/
theorem NamesPlace.eq_append {context : Bytes} {size : Nat} (h : NamesPlace context size) :
    ∃ rest, context = STREAM_DOMAIN ++ rest := by
  obtain ⟨u, H, i, hcontext, -⟩ := h
  exact ⟨_, (segContext_eq_ok.mp hcontext).2.symm⟩

theorem length_flatten_le {l : List Bytes} {m : Nat} (h : ∀ s ∈ l, s.length ≤ m) :
    l.flatten.length ≤ l.length * m := by
  induction l with
  | nil => exact Nat.zero_le _
  | cons s l ih =>
    have hs := h s List.mem_cons_self
    have hl := ih fun t ht => h t (List.mem_cons_of_mem _ ht)
    rw [List.flatten_cons, List.length_append, List.length_cons, Nat.succ_mul]
    omega

/-- The parts other than one make up the rest of the length. -/
theorem length_flatten_bounds {l : List Bytes} {m : Nat} (h : ∀ s ∈ l, s.length ≤ m) {i : Nat}
    {s : Bytes} (hs : l[i]? = some s) :
    s.length ≤ l.flatten.length ∧ l.flatten.length ≤ s.length + (l.length - 1) * m := by
  obtain ⟨hi, rfl⟩ := List.getElem?_eq_some_iff.mp hs
  have hsplit : l = l.take i ++ l[i] :: l.drop (i + 1) := by
    rw [← List.drop_eq_getElem_cons hi, List.take_append_drop]
  have htake := length_flatten_le fun t ht => h t (List.mem_of_mem_take (i := i) ht)
  have hdrop := length_flatten_le fun t ht => h t (List.mem_of_mem_drop (i := i + 1) ht)
  have hflatten : l.flatten.length
      = (l.take i).flatten.length + (l[i].length + (l.drop (i + 1)).flatten.length) := by
    conv_lhs => rw [hsplit]
    rw [List.flatten_append, List.length_append, List.flatten_cons, List.length_append]
  have hcount : (l.length - 1) * m = (l.take i).length * m + (l.drop (i + 1)).length * m := by
    rw [← Nat.add_mul, List.length_take, List.length_drop]
    congr 1
    omega
  omega

/-- **The context of a place that opens names it.** -/
theorem StreamBinding.OpensAll.namesPlace {B : StreamBinding} {H : StreamHeader}
    {Vs : List Envelope} {parts : List Bytes} {X : Bytes} (h : B.OpensAll P H Vs parts)
    (hgrammar : StreamGrammar X H Vs) (hlen : parts.flatten.length = H.totalLen)
    (hcap : ∀ s ∈ parts, s.length ≤ MAX_STATE) {i : Nat} {s : Bytes} (hs : parts[i]? = some s) :
    NamesPlace (B.segment H i).context s.length := by
  have hcount : parts.length = H.numSegments := h.length_eq.symm.trans hgrammar.count
  have hi : i < H.numSegments := hcount ▸ (List.getElem?_eq_some_iff.mp hs).1
  have hbounds := length_flatten_bounds hcap hs
  rw [hlen, hcount] at hbounds
  exact ⟨B.context, H, i, B.segContext_eq H (hi.trans H.numSegments_lt), hi, hgrammar.empty,
    hbounds⟩

/-! ## 2. Histories that keep the layers apart -/

/-- The output of a seal shows its draw, its commitment and its ciphertext. -/
theorem Envelope.of_bytes_eq_sealed {V : Envelope} {b : Binding} {draw : Draw} {S : Bytes}
    (h : V.bytes = b.sealed P draw S) :
    V.toDraw = draw ∧ V.commitment = b.commitment P draw.salt ∧
      V.ciphertext = b.ciphertext P draw S := by
  have hlen : V.header.length = (b.header P draw).length :=
    V.header_length.trans (headerBytes_length _ _).symm
  obtain ⟨hheader, hrest⟩ := List.append_inj h hlen
  obtain ⟨hdraw, hcommit⟩ := Envelope.of_header_eq hheader
  exact ⟨hdraw, hcommit, (List.append_inj hrest (by simp)).2⟩

/-- **A direct call whose output opens as an envelope was bound as that envelope is**, the
committed half being free of collisions. -/
theorem Binding.Opens.performs {calls : List (Call P)} {opened : List Event} {b : Binding}
    {V : Envelope} {S : Bytes} (h : b.Opens P V S) (hideal : P.Ideal (historyLog calls) opened)
    (hcom : P.ComHalfCollisionFree (historyLog calls ++ opened))
    (hlog : b.unsealLog P V ⊆ opened) {c : SealCall P} (hc : .direct c ∈ calls)
    (hresult : c.run.result = .ok V.bytes) : c.Performs b S := by
  obtain ⟨b', S', hperforms, hbytes⟩ := c.performs_of_ok hresult
  obtain ⟨hdraw, hcommit, hciphertext⟩ := Envelope.of_bytes_eq_sealed hbytes
  have hb' : b'.DerivedIn P c.draw.salt (historyLog calls ++ opened) :=
    (hperforms.carriesOut.derivedIn hc).mono (List.subset_append_left _ _)
  have hb : b.DerivedIn P V.salt (historyLog calls ++ opened) :=
    (Binding.DerivedIn.of_unsealLog hlog).mono (List.subset_append_right _ _)
  obtain ⟨rfl, -⟩ := Binding.eq_of_commitment hideal.sha3 hcom hb' hb
    (hcommit.symm.trans h.commitment)
  rw [← hdraw] at hciphertext
  obtain rfl := h.eq_of_ciphertext hideal.correct hciphertext
  exact hperforms

/-- **Where no direct seal uses the context of a place, the layers are separate.**  Every segment
of a container that opens was sealed at its place by a chunked call of the history, and none is
the output of a direct call, the committed half being free of collisions. -/
theorem container_of_segments {calls : List (Call P)}
    (hdirect : ∀ c, Call.direct c ∈ calls → ∀ context state, c.context = .of context →
      c.state = .of state → ¬ NamesPlace context state.length)
    {x : Carrier} {M : Manifest P} {masterSecret : Arg Bytes} {epochId : Arg Int}
    {context : Arg Bytes} {S : Bytes}
    (hopen : (unsealStateChunked P (.of x) (.of M) masterSecret epochId context).result = .ok S)
    (hideal : P.Ideal (historyLog calls)
      (unsealStateChunked P (.of x) (.of M) masterSecret epochId context).log) :
    ∃ (B : StreamBinding) (H : StreamHeader) (envs : List Bytes),
      B.PresentedBy (.of M) masterSecret epochId context ∧ x.toBytes = H.bytes ++ frames envs ∧
        envs.length = H.numSegments ∧ ∀ i env, envs[i]? = some env →
          (∃ c, Call.chunked c ∈ calls ∧ ∃ draw s,
            (Call.chunked c).CarriesOut (B.segment H i) draw s ∧
              (B.segment H i).sealed P draw s = env) ∧
          (P.ComHalfCollisionFree (historyLog calls
              ++ (unsealStateChunked P (.of x) (.of M) masterSecret epochId context).log) →
            ∀ c, Call.direct c ∈ calls → c.run.result ≠ .ok env) := by
  obtain ⟨B, _, H, Vs, parts, hB, hx, hgrammar, hopens, hflatten, hlen, hlog⟩ :=
    unsealStateChunked_ok hopen
  obtain rfl := Arg.of.inj hx
  have hcap : ∀ s ∈ parts, s.length ≤ MAX_STATE := by
    intro s hs
    obtain ⟨i, hi⟩ := List.mem_iff_getElem?.mp hs
    have hlt : i < Vs.length := hopens.length_eq ▸ (List.getElem?_eq_some_iff.mp hi).1
    have hV := List.getElem?_eq_getElem hlt
    obtain ⟨s', hs', hopen'⟩ := hopens.get hV
    obtain rfl := Option.some.inj (hi.symm.trans hs')
    obtain ⟨_, -, hcarries, -⟩ := hopen'.sealed hideal (hlog i _ hV)
    exact hcarries.seals.length_le
  refine ⟨B, H, Vs.map Envelope.bytes, hB, hgrammar.bytes, ?_, ?_⟩
  · rw [List.length_map, hgrammar.count]
  · intro i env henv
    obtain ⟨V, hV, rfl⟩ : ∃ V, Vs[i]? = some V ∧ V.bytes = env := by
      simpa only [List.getElem?_map, Option.map_eq_some_iff] using henv
    obtain ⟨s, hs, hopen'⟩ := hopens.get hV
    have hnames : NamesPlace (B.segment H i).context s.length :=
      hopens.namesPlace hgrammar (hflatten ▸ hlen) hcap hs
    have hnot : ∀ c, Call.direct c ∈ calls → ¬ c.Performs (B.segment H i) s :=
      fun c hc h => hdirect c hc _ _ h.presented.context h.state hnames
    constructor
    · obtain ⟨c, hc, hcarries, hciphertext⟩ := hopen'.sealed hideal (hlog i V hV)
      cases c with
      | direct c => exact absurd hcarries.seals.performs.1 (hnot c hc)
      | chunked c =>
        exact ⟨c, hc, V.toDraw, s, hcarries, (hopen'.bytes_eq_sealed hciphertext).symm⟩
    · intro hcom c hc hresult
      exact hnot c hc (hopen'.performs hideal hcom (hlog i V hV) hc hresult)

/-- A direct seal and a container of two segments. -/
def toyApart : List (Call toy) :=
  [.direct (toySealCall [0x01, 0x02] 0x22), .chunked (toyChunkedCall 0x44 [0x01, 0x02, 0x03])]

theorem toyApart_opens :
    ∃ (B : StreamBinding) (H : StreamHeader) (envs : List Bytes),
      B.PresentedBy (P := toy) (.of toyManifest) (.of toySecret) (.of 9) (.of [0x63]) ∧
        (toyChunkedCall 0x44 [0x01, 0x02, 0x03]).run.result.toOption.getD []
          = H.bytes ++ frames envs ∧
        envs.length = H.numSegments ∧ ∀ i env, envs[i]? = some env →
          (∃ c, Call.chunked c ∈ toyApart ∧ ∃ draw s,
            (Call.chunked c).CarriesOut (B.segment H i) draw s ∧
              (B.segment H i).sealed toy draw s = env) ∧
          (toy.ComHalfCollisionFree (historyLog toyApart ++ (unsealStateChunked toy
              (.of (.bytes ((toyChunkedCall 0x44 [0x01, 0x02, 0x03]).run.result.toOption.getD [])))
              (.of toyManifest) (.of toySecret) (.of 9) (.of [0x63])).log) →
            ∀ c, Call.direct c ∈ toyApart → c.run.result ≠ .ok env) := by
  have hdirect : ∀ c, Call.direct c ∈ toyApart → ∀ context state, c.context = .of context →
      c.state = .of state → ¬ NamesPlace context state.length := by
    intro c hc context state hcontext _ hnames
    obtain ⟨rest, rfl⟩ := hnames.eq_append
    obtain rfl : c = toySealCall [0x01, 0x02] 0x22 := by simpa [toyApart] using hc
    exact absurd (congrArg List.length (Arg.of.inj hcontext)) (by
      rw [List.length_append, STREAM_DOMAIN_length, List.length_singleton]
      omega)
  have hopen : (unsealStateChunked toy
      (.of (.bytes ((toyChunkedCall 0x44 [0x01, 0x02, 0x03]).run.result.toOption.getD [])))
      (.of toyManifest) (.of toySecret) (.of 9) (.of [0x63])).result
        = .ok [0x01, 0x02, 0x03] := by decide +kernel
  refine container_of_segments hdirect hopen ⟨toy_aeadExact.correct, ?_, ?_, ?_⟩
  · decide +kernel
  · decide +kernel
  · decide +kernel

/-! ## 3. A direct seal at a place -/

/-- Room for a total length in a number of parts. -/
theorem exists_parts (m : Nat) : ∀ (n total : Nat), total ≤ n * m →
    ∃ l : List Bytes, l.length = n ∧ (∀ s ∈ l, s.length ≤ m) ∧ l.flatten.length = total
  | 0, total, h => ⟨[], rfl, by simp, (Nat.le_zero.mp (Nat.zero_mul m ▸ h)).symm⟩
  | n + 1, total, h => by
    have hrest : total - min m total ≤ n * m := by
      rw [Nat.succ_mul] at h
      omega
    obtain ⟨l, hn, hm, htotal⟩ := exists_parts m n (total - min m total) hrest
    refine ⟨List.replicate (min m total) 0 :: l, by rw [List.length_cons, hn], ?_, ?_⟩
    · intro s hs
      rcases List.mem_cons.mp hs with rfl | hs
      · rw [List.length_replicate]
        exact Nat.min_le_left _ _
      · exact hm s hs
    · rw [List.flatten_cons, List.length_append, List.length_replicate, htotal]
      omega

/-- Parts of which one is given. -/
theorem exists_parts_around {m n total i : Nat} {S : Bytes} (hi : i < n) (hS : S.length ≤ m)
    (hle : S.length ≤ total) (htotal : total ≤ S.length + (n - 1) * m) :
    ∃ l : List Bytes, l.length = n ∧ (∀ s ∈ l, s.length ≤ m) ∧ l.flatten.length = total ∧
      l[i]? = some S := by
  obtain ⟨l, hn, hm, hflatten⟩ := exists_parts m (n - 1) (total - S.length) (by omega)
  have htake : (l.take i).length = i := by
    rw [List.length_take, hn]
    omega
  refine ⟨l.take i ++ S :: l.drop i, ?_, ?_, ?_, ?_⟩
  · rw [List.length_append, List.length_cons, htake, List.length_drop, hn]
    omega
  · intro s hs
    rcases List.mem_append.mp hs with hs | hs
    · exact hm s (List.mem_of_mem_take hs)
    · rcases List.mem_cons.mp hs with rfl | hs
      · exact hS
      · exact hm s (List.mem_of_mem_drop hs)
  · have hsplit : (l.take i).flatten.length + (l.drop i).flatten.length = total - S.length := by
      rw [← List.length_append, ← List.flatten_append, List.take_append_drop, hflatten]
    rw [List.flatten_append, List.length_append, List.flatten_cons, List.length_append]
    omega
  · rw [List.getElem?_append_right htake.le, htake, Nat.sub_self]
    rfl

/-- **A direct seal under the context of a place opens there**: its envelope is a segment of a
container that opens under the secret, manifest and epoch of the call. -/
theorem direct_segment_opens (hcorrect : P.AeadCorrect) (htag : P.AeadTag) {c : SealCall P}
    {b : Binding} {S : Bytes} (h : c.Performs b S) (hnames : NamesPlace b.context S.length) :
    ∃ (env userContext T : Bytes) (H : StreamHeader) (envs : List Bytes),
      c.run.result = .ok env ∧ env ∈ envs ∧
        (unsealStateChunked P (.of (.bytes (H.bytes ++ frames envs))) c.manifest c.masterSecret
          c.epochId (.of userContext)).result = .ok T := by
  obtain ⟨u, H, i, hcontext, hi, hempty, hle, htotal⟩ := hnames
  obtain ⟨M, hM, -⟩ := h.presented.manifest
  have hpresented := h.presented
  rw [hM, h.presented.context] at hpresented
  obtain ⟨B, hB⟩ := hpresented.stream hcontext
  have hsegment : (B.segment H i).context = b.context := by
    have heq := B.segContext_eq H (hi.trans H.numSegments_lt)
    rw [← Arg.of.inj hB.context, hcontext] at heq
    exact (Except.ok.inj heq).symm
  have hb : B.segment H i = b := by
    have hthere := B.segment_presentedBy H hB i
    rw [hsegment] at hthere
    exact hthere.unique hpresented
  obtain ⟨parts, hcount, hcap, hflatten, hpart⟩ := exists_parts_around hi h.state_le hle htotal
  obtain ⟨Vs, hbytes, hopens⟩ := B.exists_envelopes hcorrect htag H (fun _ => c.draw) parts 0 hcap
  have hlen : Vs.length = H.numSegments := by
    rw [← hcount, ← hopens.length_eq, List.length_zipIdx]
  refine ⟨b.sealed P c.draw S, u, parts.flatten, H, Vs.map Envelope.bytes, ?_, ?_, ?_⟩
  · rw [h.run_eq, frame_eq_ok, Binding.ciphertext_length htag]
    exact ⟨length_le_MAX_STATE_iff.mp h.state_le, rfl⟩
  · rw [hbytes, List.mem_map]
    refine ⟨(S, i), List.mk_mem_zipIdx_iff_getElem?.mpr hpart, ?_⟩
    rw [StreamBinding.sealedSegment, hb]
  · rw [hM]
    refine (unsealStateChunked_eq_ok hB).mpr ⟨H, Vs, parts, ⟨rfl, hlen, ?_, hempty⟩, hopens, rfl,
      hflatten⟩
    omega

/-- A header of one segment, with a stream id nobody drew. -/
def toyForgedHeader : StreamHeader where
  streamId := List.replicate 16 0x55
  numSegments := 1
  segmentSize := 5
  totalLen := 4
  streamId_length := rfl
  numSegments_lt := by decide
  segmentSize_lt := by decide
  totalLen_lt := by decide

/-- A direct call whose context is that of the place the header has. -/
def toyForger : SealCall toy :=
  { toySealCall [0x01, 0x02, 0x03, 0x04] 0x22 with
    context := .of (segContextBytes [0x63] toyForgedHeader.streamId 0 1 4 5) }

/-- The header in front of what that call returns. -/
def toyForgery : Bytes :=
  toyForgedHeader.bytes ++ frames [toyForger.run.result.toOption.getD []]

def toyMixed : List (Call toy) :=
  [.chunked (toyChunkedCall 0x44 [0x01, 0x02, 0x03]), .direct toyForger]

/-- **A container that no chunked call made opens**: its one segment is the output of a direct
call, under a context that `_seg_context` returns.  The libraries behave ideally. -/
theorem toyForgery_opens :
    toyForger.context = .of (segContextBytes [0x63] toyForgedHeader.streamId 0 1 4 5) ∧
      segContext [0x63] toyForgedHeader.streamId 0 1 4 5
        = .ok (segContextBytes [0x63] toyForgedHeader.streamId 0 1 4 5) ∧
      toyForger.run.result = .ok (toyForger.run.result.toOption.getD []) ∧
      toyForgedHeader.streamId ∉ streamIds (historyLog toyMixed) ∧
      (unsealStateChunked toy (.of (.bytes toyForgery)) (.of toyManifest) (.of toySecret) (.of 9)
        (.of [0x63])).result = .ok [0x01, 0x02, 0x03, 0x04] ∧
      toy.Ideal (historyLog toyMixed) (unsealStateChunked toy (.of (.bytes toyForgery))
        (.of toyManifest) (.of toySecret) (.of 9) (.of [0x63])).log ∧
      toy.ComHalfCollisionFree (historyLog toyMixed ++ (unsealStateChunked toy
        (.of (.bytes toyForgery)) (.of toyManifest) (.of toySecret) (.of 9) (.of [0x63])).log) := by
  refine ⟨rfl, by decide +kernel, by decide +kernel, by decide +kernel, by decide +kernel,
    ⟨toy_aeadExact.correct, ?_, ?_, ?_⟩, ?_⟩
  · decide +kernel
  · decide +kernel
  · decide +kernel
  · decide +kernel

end Sce
