/-
# Where a sealed blob ends

An envelope says how long it is, and a container how many envelopes it holds.  So a reader who
sees a blob followed by anything else can tell where it ends, and which of the two it is: the
two formats together are self-delimiting (`Blob.bytes_selfDelim`).

Of what the package opens it follows that no blob is a beginning of another, whoever sealed them
and whatever they are opened with (`opened_prefix_free`): cutting off the end of one, or adding
to it, never leaves something that opens, and nothing opens both as an envelope and as a
container.  And blobs written one behind the other, envelopes and
containers mixed, are split in one way only (`opened_split_unique`).
-/
import Sce.StreamBinds

namespace Sce

open BigEndian

variable {P : Platform}

/-! ## 1. The two formats -/

/-- An envelope is self-delimiting. -/
theorem Envelope.bytes_selfDelim : SelfDelim (fun _ : Envelope => True) Envelope.bytes := by
  intro V V' s t _ _ h
  have hframe : ∀ V : Envelope, V.bytes = V.header ++ lenPrefix 4 V.ciphertext := fun _ => rfl
  rw [hframe, hframe, List.append_assoc, List.append_assoc] at h
  obtain ⟨hheader, hrest⟩ := List.append_inj h (V.header_length.trans V'.header_length.symm)
  obtain ⟨hciphertext, hst⟩ := lenPrefix4_selfDelim V.ciphertext_lt V'.ciphertext_lt hrest
  refine ⟨Envelope.bytes_inj ?_, hst⟩
  rw [hframe, hframe, hheader, hciphertext]

/-- A framed envelope is self-delimiting. -/
theorem frame_selfDelim :
    SelfDelim (fun _ : Envelope => True) (fun V => lenPrefix 8 V.bytes) :=
  (lenPrefix_selfDelim 8).comap Envelope.bytes (fun V _ => V.bytes_length_lt)
    (fun _ _ _ _ => Envelope.bytes_inj)

theorem framed_eq_flatMap (Vs : List Envelope) :
    framed Vs = Vs.flatMap fun V => lenPrefix 8 V.bytes := by
  rw [framed, frames, List.flatMap_map]

/-- **A sealed blob**, as a value: what `_parse` accepts, or what the container's header and
framing say it is. -/
inductive Blob
  | envelope (V : Envelope)
  | container (H : StreamHeader) (Vs : List Envelope) (count : Vs.length = H.numSegments)

def Blob.bytes : Blob → Bytes
  | .envelope V => V.bytes
  | .container H Vs _ => H.bytes ++ framed Vs

/-- The magic tells the two apart. -/
theorem Envelope.bytes_ne_header (V : Envelope) (H : StreamHeader) (s t : Bytes) :
    V.bytes ++ s ≠ H.bytes ++ t := by
  intro h
  have hmagic := congrArg (List.take 4) h
  have henvelope : (V.bytes ++ s).take 4 = MAGIC := by
    simp only [Envelope.bytes, Envelope.header, headerBytes, packS, List.append_assoc]
    rfl
  have hstream : (H.bytes ++ t).take 4 = STREAM_MAGIC := by
    simp only [StreamHeader.bytes, List.append_assoc]
    rfl
  rw [henvelope, hstream] at hmagic
  exact absurd hmagic (by decide)

/-- **Sealed blobs are self-delimiting.** -/
theorem Blob.bytes_selfDelim : SelfDelim (fun _ : Blob => True) Blob.bytes := by
  intro x y s t _ _ h
  cases x with
  | envelope V =>
    cases y with
    | envelope V' =>
      obtain ⟨rfl, rfl⟩ := Envelope.bytes_selfDelim trivial trivial h
      exact ⟨rfl, rfl⟩
    | container H' Vs' count' =>
      rw [Blob.bytes, Blob.bytes, List.append_assoc] at h
      exact absurd h (V.bytes_ne_header H' s _)
  | container H Vs count =>
    cases y with
    | envelope V' =>
      rw [Blob.bytes, Blob.bytes, List.append_assoc] at h
      exact absurd h.symm (V'.bytes_ne_header H t _)
    | container H' Vs' count' =>
      rw [Blob.bytes, Blob.bytes, List.append_assoc, List.append_assoc] at h
      obtain ⟨rfl, hrest⟩ := StreamHeader.bytes_inj h
      rw [framed_eq_flatMap, framed_eq_flatMap] at hrest
      obtain ⟨rfl, rfl⟩ := frame_selfDelim.flatMap (count.trans count'.symm)
        (fun _ _ => trivial) (fun _ _ => trivial) hrest
      exact ⟨rfl, rfl⟩

theorem Blob.bytes_ne_nil (b : Blob) : b.bytes ≠ [] := by
  cases b with
  | envelope V =>
    intro h
    have hlen := V.bytes_length
    rw [show V.bytes = [] from h, List.length_nil] at hlen
    omega
  | container H Vs count =>
    intro h
    have hlen := H.bytes_length
    rw [(List.append_eq_nil_iff.mp h).1, List.length_nil] at hlen
    omega

/-! ## 2. What opens -/

/-- One of the entry points returns a state from these bytes, under some arguments. -/
inductive OpensSomehow (P : Platform) (X : Bytes) : Prop
  | envelope {manifest : Arg (Manifest P)} {masterSecret : Arg Bytes} {epochId : Arg Int}
      {context : Arg Bytes} {S : Bytes}
      (h : (unsealState P (.of (.bytes X)) manifest masterSecret epochId context).result = .ok S)
  | container {manifest : Arg (Manifest P)} {masterSecret : Arg Bytes} {epochId : Arg Int}
      {context : Arg Bytes} {S : Bytes}
      (h : (unsealStateChunked P (.of (.bytes X)) manifest masterSecret epochId context).result
        = .ok S)

/-- What opens is a blob. -/
theorem OpensSomehow.exists_blob {X : Bytes} (h : OpensSomehow P X) : ∃ b : Blob, X = b.bytes := by
  cases h with
  | envelope h =>
    obtain ⟨_, x, V, _, hx, hV, _, _⟩ := unsealState_ok h
    obtain rfl := Arg.of.inj hx
    exact ⟨.envelope V, hV⟩
  | container h =>
    obtain ⟨_, x, H, Vs, _, _, hx, hgrammar, _⟩ := unsealStateChunked_ok h
    obtain rfl := Arg.of.inj hx
    exact ⟨.container H Vs hgrammar.count, hgrammar.bytes⟩

/-- `unseal_state` returns a state from these bytes, under some arguments. -/
def OpensAsEnvelope (P : Platform) (X : Bytes) : Prop :=
  ∃ manifest masterSecret epochId context S,
    (unsealState P (.of (.bytes X)) manifest masterSecret epochId context).result = .ok S

/-- `unseal_state_chunked` does. -/
def OpensAsContainer (P : Platform) (X : Bytes) : Prop :=
  ∃ manifest masterSecret epochId context S,
    (unsealStateChunked P (.of (.bytes X)) manifest masterSecret epochId context).result = .ok S

/-- **Nothing opens in both ways**: the magic tells the two formats apart. -/
theorem OpensAsEnvelope.not_container {X : Bytes} (h : OpensAsEnvelope P X) :
    ¬ OpensAsContainer P X := by
  rintro ⟨_, _, _, _, _, hcontainer⟩
  obtain ⟨_, _, _, _, _, henvelope⟩ := h
  obtain ⟨_, x, V, _, hx, hV, _, _⟩ := unsealState_ok henvelope
  obtain rfl := Arg.of.inj hx
  obtain ⟨_, x, H, Vs, _, _, hx, hgrammar, _⟩ := unsealStateChunked_ok hcontainer
  obtain rfl := Arg.of.inj hx
  have hbytes : V.bytes ++ [] = H.bytes ++ framed Vs := by
    rw [List.append_nil, ← hV, hgrammar.bytes]
  exact V.bytes_ne_header H [] _ hbytes

/-- **What opens is not a beginning of anything else that opens**, under whatever parameters, as
an envelope or as a container; and it opens in one of the two ways only. -/
theorem opened_prefix_free {X X' : Bytes} (h : OpensSomehow P X) (h' : OpensSomehow P X')
    (hstart : X <+: X') : X = X' ∧ ¬ (OpensAsEnvelope P X ∧ OpensAsContainer P X') := by
  obtain ⟨b, hb⟩ := h.exists_blob
  obtain ⟨b', hb'⟩ := h'.exists_blob
  have heq : X = X' := by
    subst hb hb'
    obtain ⟨rest, hrest⟩ := hstart
    have hsplit := Blob.bytes_selfDelim (s := rest) (t := []) trivial trivial
      (hrest.trans (List.append_nil _).symm)
    rw [hsplit.1]
  subst heq
  exact ⟨rfl, fun hboth => hboth.1.not_container hboth.2⟩

theorem toyEnvelope_opened : (unsealState toy (.of (.bytes toyEnvelope)) (.of toyManifest)
    (.of toySecret) (.of 9) (.of [0x63])).result = .ok [0x01, 0x02, 0x03] := by
  decide +kernel

theorem toyEnvelope_somehow : OpensSomehow toy toyEnvelope := .envelope toyEnvelope_opened

theorem toyTwin_somehow : OpensSomehow toy (toyTwin 0x03) :=
  .container (toyTwin_opens toyManifest (.inl rfl))

/-- An envelope that opens opens as a container under no parameters. -/
theorem toyEnvelope_prefix_free : ¬ OpensAsContainer toy toyEnvelope := fun hcontainer =>
  (opened_prefix_free toyEnvelope_somehow toyEnvelope_somehow (List.prefix_refl _)).2
    ⟨⟨_, _, _, _, _, toyEnvelope_opened⟩, hcontainer⟩

/-- **Blobs that open, written one behind the other, are split in one way.** -/
theorem opened_split_unique {Xs Xs' : List Bytes} (h : ∀ X ∈ Xs, OpensSomehow P X)
    (h' : ∀ X ∈ Xs', OpensSomehow P X) (hflat : Xs.flatten = Xs'.flatten) : Xs = Xs' := by
  have hblobs : ∀ {Xs : List Bytes}, (∀ X ∈ Xs, OpensSomehow P X) →
      ∃ bs : List Blob, Xs = bs.map Blob.bytes := by
    intro Xs h
    induction Xs with
    | nil => exact ⟨[], rfl⟩
    | cons X Xs ih =>
      obtain ⟨b, rfl⟩ := (h X List.mem_cons_self).exists_blob
      obtain ⟨bs, rfl⟩ := ih fun Y hY => h Y (List.mem_cons_of_mem _ hY)
      exact ⟨b :: bs, rfl⟩
  obtain ⟨bs, rfl⟩ := hblobs h
  obtain ⟨bs', rfl⟩ := hblobs h'
  rw [← List.flatMap_def, ← List.flatMap_def] at hflat
  rw [Blob.bytes_selfDelim.flatMap_inj (fun b _ => b.bytes_ne_nil) (fun _ _ => trivial)
    (fun _ _ => trivial) hflat]

/-- An envelope and a container, one behind the other. -/
theorem toyBlobs_split : [toyEnvelope, toyTwin 0x03] = [toyEnvelope, toyTwin 0x03] := by
  have hopens : ∀ X ∈ [toyEnvelope, toyTwin 0x03], OpensSomehow toy X := by
    intro X hX
    rcases List.mem_cons.mp hX with rfl | hX
    · exact toyEnvelope_somehow
    · rw [List.mem_singleton.mp hX]
      exact toyTwin_somehow
  exact opened_split_unique hopens hopens rfl

end Sce
