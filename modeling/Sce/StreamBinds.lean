/-
# A segment lives at one place of one stream

What the commitments inside a container bind.  Take two containers that open, each under
parameters of its own, and suppose one envelope occurs in both.  Then it occurs at the same
index, under the same header, and the parameters are the same (`shared_segment_binds`): so a
segment cannot be moved within a container, repeated, carried over to another stream or to a
header with another count, length or segment size, or reread under another context, epoch,
secret or model.  Nothing is assumed of the cipher.

A container that opens under two tuples of parameters is the case of one container
(`container_binds_parameters`); there the states are the same as well.
-/
import Sce.Authenticity
import Sce.StreamCanonical

namespace Sce

variable {P : Platform}

/-! ## 1. Parameters and grammar -/

/-- Arguments that present one binding agree, the manifests after NFC. -/
theorem Binding.PresentedBy.parameters_eq {b : Binding} {M M' : Manifest P}
    {masterSecret masterSecret' : Arg Bytes} {epochId epochId' : Arg Int}
    {context context' : Arg Bytes} {log : List Event}
    (h : b.PresentedBy (.of M) masterSecret epochId context)
    (h' : b.PresentedBy (.of M') masterSecret' epochId' context')
    (hsha : P.Sha3CollisionFree log) (hM : M.construction.log ⊆ log)
    (hM' : M'.construction.log ⊆ log) :
    masterSecret = masterSecret' ∧ epochId = epochId' ∧ context = context' ∧
      (∀ f, P.nfc (M.getattr f) = P.nfc (M'.getattr f)) ∧ M.extraMap P = M'.extraMap P := by
  obtain ⟨hsecret, hepoch, hcontext, N, hN, hmemh⟩ := h.agree h'
  obtain rfl := Arg.of.inj hN
  have hcanonical := Manifest.canonical_eq_of_memh hsha hM hM' hmemh
  obtain ⟨hcore, hextra⟩ := (canonical_eq_iff M M').mp hcanonical
  exact ⟨hsecret, hepoch, hcontext, hcore, hextra⟩

/-- **A container is read in one way.** -/
theorem StreamGrammar.unique {X : Bytes} {H H' : StreamHeader} {Vs Vs' : List Envelope}
    (h : StreamGrammar X H Vs) (h' : StreamGrammar X H' Vs') : H = H' ∧ Vs = Vs' := by
  have hheader := (StreamHeader.bytes_inj (h.bytes.symm.trans h'.bytes)).1
  have hscan := h.scanStream_eq.symm.trans h'.scanStream_eq
  have hsegments := congrArg Scan.segments (Except.ok.inj hscan)
  exact ⟨hheader, List.map_injective_iff.mpr (fun _ _ => Envelope.bytes_inj) hsegments⟩

theorem StreamGrammar.index_lt {X : Bytes} {H : StreamHeader} {Vs : List Envelope}
    (h : StreamGrammar X H Vs) {i : Nat} {V : Envelope} (hV : Vs[i]? = some V) : i < 2 ^ 64 := by
  have hlt := (List.getElem?_eq_some_iff.mp hV).1
  rw [h.count] at hlt
  exact hlt.trans H.numSegments_lt

/-- What a container that opened says of one of its segments. -/
theorem StreamGrammar.opened {x : Carrier} {H : StreamHeader} {Vs : List Envelope}
    (h : StreamGrammar x.toBytes H Vs) {manifest : Arg (Manifest P)} {masterSecret : Arg Bytes}
    {epochId : Arg Int} {context : Arg Bytes} {S : Bytes}
    (hopen : (unsealStateChunked P (.of x) manifest masterSecret epochId context).result
      = .ok S) :
    ∃ (B : StreamBinding) (parts : List Bytes),
      B.PresentedBy manifest masterSecret epochId context ∧ B.OpensAll P H Vs parts ∧
        parts.flatten = S ∧ ∀ i V, Vs[i]? = some V → (B.segment H i).unsealLog P V ⊆
          (unsealStateChunked P (.of x) manifest masterSecret epochId context).log := by
  obtain ⟨B, x', H', Vs', parts, hB, hx, hgrammar, hopens, hS, -, hlog⟩ :=
    unsealStateChunked_ok hopen
  obtain rfl := Arg.of.inj hx
  obtain ⟨rfl, rfl⟩ := h.unique hgrammar
  exact ⟨B, parts, hB, hopens, hS, hlog⟩

theorem Platform.Sha3CollisionFree.of_append {log log' : List Event}
    (h : P.Sha3CollisionFree (log ++ log')) : P.Sha3CollisionFree log' :=
  h.mono fun _ hx => mem_sha3Inputs.mpr (List.mem_append_right _ (mem_sha3Inputs.mp hx))

/-! ## 2. One envelope in two containers -/

/-- One commitment opened in two places is opened in one. -/
theorem Binding.Opens.place_eq {B B' : StreamBinding} {H H' : StreamHeader} {i i' : Nat}
    {V : Envelope} {s s' : Bytes} {log : List Event} (h : (B.segment H i).Opens P V s)
    (h' : (B'.segment H' i').Opens P V s') (hi : i < 2 ^ 64) (hi' : i' < 2 ^ 64)
    (hsha : P.Sha3CollisionFree log) (hcom : P.ComHalfCollisionFree log)
    (hlog : (B.segment H i).unsealLog P V ⊆ log)
    (hlog' : (B'.segment H' i').unsealLog P V ⊆ log) : B = B' ∧ H = H' ∧ i = i' := by
  have hcommit : (B.segment H i).commitment P V.salt = (B'.segment H' i').commitment P V.salt :=
    h.commitment.symm.trans h'.commitment
  have hbinding := (Binding.eq_of_commitment hsha hcom (.of_unsealLog hlog)
    (.of_unsealLog hlog') hcommit).1
  exact StreamBinding.segment_inj hi hi' hbinding

/-- **Place binding.**  An envelope that occurs in two containers that open occurs in both at the
same index under the same header, and they opened under the same parameters. -/
theorem shared_segment_binds {x x' : Carrier} {H H' : StreamHeader} {Vs Vs' : List Envelope}
    (hgrammar : StreamGrammar x.toBytes H Vs) (hgrammar' : StreamGrammar x'.toBytes H' Vs')
    {M M' : Manifest P} {masterSecret masterSecret' : Arg Bytes} {epochId epochId' : Arg Int}
    {context context' : Arg Bytes} {S S' : Bytes}
    (h : (unsealStateChunked P (.of x) (.of M) masterSecret epochId context).result = .ok S)
    (h' : (unsealStateChunked P (.of x') (.of M') masterSecret' epochId' context').result
      = .ok S')
    (hsha : P.Sha3CollisionFree
      (M.construction.log ++ M'.construction.log
        ++ ((unsealStateChunked P (.of x) (.of M) masterSecret epochId context).log
          ++ (unsealStateChunked P (.of x') (.of M') masterSecret' epochId' context').log)))
    (hcom : P.ComHalfCollisionFree
      ((unsealStateChunked P (.of x) (.of M) masterSecret epochId context).log
        ++ (unsealStateChunked P (.of x') (.of M') masterSecret' epochId' context').log))
    {i i' : Nat} {V : Envelope} (hV : Vs[i]? = some V) (hV' : Vs'[i']? = some V) :
    i = i' ∧ H = H' ∧ masterSecret = masterSecret' ∧ epochId = epochId' ∧ context = context' ∧
      (∀ f, P.nfc (M.getattr f) = P.nfc (M'.getattr f)) ∧ M.extraMap P = M'.extraMap P := by
  obtain ⟨B, parts, hB, hopens, -, hlog⟩ := hgrammar.opened h
  obtain ⟨B', parts', hB', hopens', -, hlog'⟩ := hgrammar'.opened h'
  obtain ⟨s, -, hsegment⟩ := hopens.get hV
  obtain ⟨s', -, hsegment'⟩ := hopens'.get hV'
  obtain ⟨rfl, hH, hi⟩ := hsegment.place_eq hsegment' (hgrammar.index_lt hV)
    (hgrammar'.index_lt hV') hsha.of_append hcom
    (List.Subset.trans (hlog i V hV) (List.subset_append_left _ _))
    (List.Subset.trans (hlog' i' V hV') (List.subset_append_right _ _))
  refine ⟨hi, hH, hB.parameters_eq hB' hsha ?_ ?_⟩
  · exact List.Subset.trans (List.subset_append_left _ _) (List.subset_append_left _ _)
  · exact List.Subset.trans (List.subset_append_right _ _) (List.subset_append_left _ _)

/-- The first two bytes of three, the segments being of two. -/
def toyFront : Envelope :=
  (toyStream.segment toyHeader 0).envelope toy_aeadTag (toyStreamDraw.segment 0)
    (show [0x01, 0x02].length ≤ MAX_STATE by decide)

/-- The third byte. -/
def toyBack (b : UInt8) : Envelope :=
  (toyStream.segment toyHeader 1).envelope toy_aeadTag (toyStreamDraw.segment 1)
    (show [b].length ≤ MAX_STATE from Nat.one_le_of_lt (by decide : 0 < MAX_STATE))

/-- Two streams that begin alike, sealed with one stream id. -/
def toyTwin (b : UInt8) : Bytes := toyHeader.bytes ++ framed [toyFront, toyBack b]

theorem toyTwin_grammar (b : UInt8) :
    StreamGrammar (Carrier.bytes (toyTwin b)).toBytes toyHeader [toyFront, toyBack b] :=
  ⟨rfl, rfl, by decide, by decide⟩

/-- The composed manifest opens them as well. -/
theorem toyTwin_opens (M : Manifest toy) (hM : M = toyManifest ∨ M = toyManifest') :
    (unsealStateChunked toy (.of (.bytes (toyTwin 0x03))) (.of M) (.of toySecret) (.of 9)
      (.of [0x63])).result = .ok [0x01, 0x02, 0x03] := by
  rcases hM with rfl | rfl
  · decide +kernel
  · decide +kernel

/-- Their first envelope is one, at one place. -/
theorem toyTwin_binds :
    0 = 0 ∧ toyHeader = toyHeader ∧ (Arg.of toySecret) = .of toySecret ∧
      (Arg.of (9 : Int)) = .of 9 ∧ (Arg.of [0x63] : Arg Bytes) = .of [0x63] ∧
      (∀ f, toy.nfc (toyManifest.getattr f) = toy.nfc (toyManifest'.getattr f)) ∧
      toyManifest.extraMap toy = toyManifest'.extraMap toy := by
  have hopen := toyTwin_opens toyManifest (.inl rfl)
  have hopen' : (unsealStateChunked toy (.of (.bytes (toyTwin 0x04))) (.of toyManifest')
      (.of toySecret) (.of 9) (.of [0x63])).result = .ok [0x01, 0x02, 0x04] := by decide +kernel
  refine shared_segment_binds (toyTwin_grammar 0x03) (toyTwin_grammar 0x04) hopen hopen' ?_ ?_
    (V := toyFront) rfl rfl
  · rw [Manifest.construction_eq, Manifest.construction_eq]
    decide +kernel
  · decide +kernel

/-! ## 3. One container -/

/-- The states a stream's envelopes open to are determined. -/
theorem StreamBinding.OpensAll.unique {B : StreamBinding} {H : StreamHeader}
    {Vs : List Envelope} {parts parts' : List Bytes} (h : B.OpensAll P H Vs parts)
    (h' : B.OpensAll P H Vs parts') : parts = parts' := by
  refine List.ext_getElem (h.length_eq.symm.trans h'.length_eq) fun i hi hi' => ?_
  have hV := List.getElem?_eq_getElem (h.length_eq ▸ hi)
  obtain ⟨s, hs, hopens⟩ := h.get hV
  obtain ⟨s', hs', hopens'⟩ := h'.get hV
  obtain rfl : s = s' := Option.some.inj (hopens.plaintext.symm.trans hopens'.plaintext)
  exact (List.getElem?_eq_some_iff.mp hs).2.trans (List.getElem?_eq_some_iff.mp hs').2.symm

/-- **A container commits to its parameters and its state.**  Bytes that open as a container
under two tuples of parameters open under one, to one state. -/
theorem container_binds_parameters {x : Carrier} {M M' : Manifest P}
    {masterSecret masterSecret' : Arg Bytes} {epochId epochId' : Arg Int}
    {context context' : Arg Bytes} {S S' : Bytes}
    (h : (unsealStateChunked P (.of x) (.of M) masterSecret epochId context).result = .ok S)
    (h' : (unsealStateChunked P (.of x) (.of M') masterSecret' epochId' context').result
      = .ok S')
    (hsha : P.Sha3CollisionFree
      (M.construction.log ++ M'.construction.log
        ++ ((unsealStateChunked P (.of x) (.of M) masterSecret epochId context).log
          ++ (unsealStateChunked P (.of x) (.of M') masterSecret' epochId' context').log)))
    (hcom : P.ComHalfCollisionFree
      ((unsealStateChunked P (.of x) (.of M) masterSecret epochId context).log
        ++ (unsealStateChunked P (.of x) (.of M') masterSecret' epochId' context').log)) :
    S = S' ∧ masterSecret = masterSecret' ∧ epochId = epochId' ∧ context = context' ∧
      (∀ f, P.nfc (M.getattr f) = P.nfc (M'.getattr f)) ∧ M.extraMap P = M'.extraMap P := by
  obtain ⟨_, _, H, Vs, _, _, hx, hgrammar, -⟩ := unsealStateChunked_ok h
  obtain rfl := Arg.of.inj hx
  obtain ⟨B, parts, hB, hopens, rfl, hlog⟩ := hgrammar.opened h
  obtain ⟨B', parts', hB', hopens', rfl, hlog'⟩ := hgrammar.opened h'
  -- the first envelope is in the container twice
  have hV := List.getElem?_eq_getElem (hgrammar.count ▸ Nat.pos_of_ne_zero hgrammar.nonzero)
  obtain ⟨s, -, hsegment⟩ := hopens.get hV
  obtain ⟨s', -, hsegment'⟩ := hopens'.get hV
  obtain ⟨rfl, -, -⟩ := hsegment.place_eq hsegment' (hgrammar.index_lt hV)
    (hgrammar.index_lt hV) hsha.of_append hcom
    (List.Subset.trans (hlog 0 _ hV) (List.subset_append_left _ _))
    (List.Subset.trans (hlog' 0 _ hV) (List.subset_append_right _ _))
  refine ⟨congrArg List.flatten (hopens.unique hopens'), hB.parameters_eq hB' hsha ?_ ?_⟩
  · exact List.Subset.trans (List.subset_append_left _ _) (List.subset_append_left _ _)
  · exact List.Subset.trans (List.subset_append_right _ _) (List.subset_append_left _ _)

/-- One of them opens under both manifests. -/
theorem toyTwin_parameters :
    ([0x01, 0x02, 0x03] : Bytes) = [0x01, 0x02, 0x03] ∧ (Arg.of toySecret) = .of toySecret ∧
      (Arg.of (9 : Int)) = .of 9 ∧ (Arg.of [0x63] : Arg Bytes) = .of [0x63] ∧
      (∀ f, toy.nfc (toyManifest.getattr f) = toy.nfc (toyManifest'.getattr f)) ∧
      toyManifest.extraMap toy = toyManifest'.extraMap toy := by
  have hopen := toyTwin_opens toyManifest (.inl rfl)
  have hopen' := toyTwin_opens toyManifest' (.inr rfl)
  refine container_binds_parameters hopen hopen' ?_ ?_
  · rw [Manifest.construction_eq, Manifest.construction_eq]
    decide +kernel
  · decide +kernel

end Sce
