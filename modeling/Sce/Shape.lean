/-
# The shape of sealed output

What an observer without keys sees of sealed output: its length, the header, the frames, salts
and nonces.  `envelopeShape` and `containerShape` are templates of it, made from the draws and
the sizes alone; the commitments and the ciphertexts are their blanks.  Whatever is sealed, under
whatever parameters, the output matches them (`Binding.sealed_matches`,
`StreamBinding.container_matches`).  So two runs with the same draws and the same sizes agree
outside the blanks, and the descriptions computed without keys are the same (`sealed_shape`).

The rest is where the blanks are.  Every segment but the last is full, so the frame of segment
`i` stands at a position computed from the segment size (`segmentOffset`).
-/
import Sce.Lib.Template
import Sce.Authenticity
import Sce.Carriers
import Sce.StreamCanonical

namespace Sce

open BigEndian Template

variable {P : Platform}

/-! ## 1. One envelope -/

/-- The template of an envelope around a state of `L` bytes. -/
def envelopeShape (draw : Draw) (L : Nat) : List (Option UInt8) :=
  clear (MAGIC ++ (beBytes 1 VERSION ++ (draw.nonce ++ draw.salt))) ++ (blank COMMIT_LEN
    ++ (clear (beBytes 4 (L + 16)) ++ blank (L + 16)))

@[simp] theorem envelopeShape_length (draw : Draw) (L : Nat) :
    (envelopeShape draw L).length = 85 + L := by
  simp only [envelopeShape, List.length_append, clear_length, blank_length, beBytes_length,
    draw.nonce_length, draw.salt_length, MAGIC_length, NONCE_LEN, SALT_LEN, COMMIT_LEN]
  omega

/-- **The output of a seal matches it.** -/
theorem Binding.sealed_matches (htag : P.AeadTag) (b : Binding) (draw : Draw) (S : Bytes) :
    Matches (envelopeShape draw S.length) (b.sealed P draw S) := by
  have hlen : (b.ciphertext P draw S).length = S.length + 16 := b.ciphertext_length htag draw S
  have hsplit : b.sealed P draw S = (MAGIC ++ (beBytes 1 VERSION ++ (draw.nonce ++ draw.salt)))
      ++ (packS COMMIT_LEN (b.commitment P draw.salt)
        ++ (beBytes 4 (S.length + 16) ++ b.ciphertext P draw S)) := by
    rw [Binding.sealed, wire, Binding.header, headerBytes, hlen]
    simp only [List.append_assoc]
  rw [hsplit]
  refine (matches_clear _).append ?_
  refine (matches_blank (packS_length _ _)).append ?_
  exact (matches_clear _).append (matches_blank hlen)

/-- **The blanks of an envelope**: the commitment and the ciphertext. -/
theorem envelopeShape_blank {draw : Draw} {L p : Nat}
    (h : (envelopeShape draw L)[p]? = some none) : 33 ≤ p ∧ p < 65 ∨ 69 ≤ p ∧ p < 85 + L := by
  have hprefix : (clear (MAGIC ++ (beBytes 1 VERSION ++ (draw.nonce ++ draw.salt)))).length
      = 33 := by
    simp only [clear_length, List.length_append, beBytes_length, draw.nonce_length,
      draw.salt_length]
    rfl
  rcases append_cases h with hp | ⟨q, hq, hrest⟩
  · exact absurd hp clear_ne_blank
  rcases append_cases hrest with hcommitment | ⟨r, hr, hrest⟩
  · have hlt := lt_of_blank hcommitment
    rw [COMMIT_LEN] at hlt
    omega
  rw [blank_length, COMMIT_LEN] at hr
  rcases append_cases hrest with hlength | ⟨t, ht, hciphertext⟩
  · exact absurd hlength clear_ne_blank
  have hlt := lt_of_blank hciphertext
  rw [clear_length, beBytes_length] at ht
  omega

/-! ## 2. One container -/

/-- How many bytes of the state segment `i` holds. -/
def segmentLength (L C i : Nat) : Nat := min C (L - i * C)

/-- Where the frame of segment `i` stands. -/
def segmentOffset (C i : Nat) : Nat := 45 + i * (93 + C)

/-- The template of a frame and the envelope in it. -/
def segmentShape (draw : Draw) (L : Nat) : List (Option UInt8) :=
  clear (beBytes 8 (85 + L)) ++ envelopeShape draw L

/-- The templates of all segments. -/
def segmentShapes (H : StreamHeader) (draw : Nat → Draw) : List (List (Option UInt8)) :=
  (List.range H.numSegments).map fun i =>
    segmentShape (draw i) (segmentLength H.totalLen H.segmentSize i)

/-- The template of a container. -/
def containerShape (H : StreamHeader) (draw : Nat → Draw) : List (Option UInt8) :=
  clear H.bytes ++ (segmentShapes H draw).flatten

@[simp] theorem segmentShape_length (draw : Draw) (L : Nat) :
    (segmentShape draw L).length = 93 + L := by
  rw [segmentShape, List.length_append, clear_length, beBytes_length, envelopeShape_length]
  omega

theorem Binding.framed_matches (htag : P.AeadTag) (b : Binding) (draw : Draw) (S : Bytes) :
    Matches (segmentShape draw S.length) (lenPrefix 8 (b.sealed P draw S)) := by
  rw [lenPrefix, b.sealed_length htag]
  exact (matches_clear _).append (b.sealed_matches htag draw S)

/-- A header whose fields are those of a state of `L` bytes cut into segments of `C`. -/
structure StreamHeader.Describes (H : StreamHeader) (L C : Nat) : Prop where
  pos : 0 < C
  cap : C ≤ MAX_STATE
  numSegments : H.numSegments = segmentCount L C
  segmentSize : H.segmentSize = C
  totalLen : H.totalLen = L

theorem streamHeader_describes (draw : StreamDraw) {S : Bytes} (hS : S.length < 2 ^ 64) {C : Nat}
    (hC : 0 < C) (hcap : C ≤ MAX_STATE) :
    (streamHeader draw hS hC hcap).Describes S.length C := ⟨hC, hcap, rfl, rfl, rfl⟩

theorem segmentShapes_getElem? {H : StreamHeader} {draw : Nat → Draw} {L C : Nat}
    (h : H.Describes L C) {i : Nat} (hi : i < segmentCount L C) :
    (segmentShapes H draw)[i]? = some (segmentShape (draw i) (segmentLength L C i)) := by
  rw [segmentShapes, h.numSegments, h.totalLen, h.segmentSize, List.getElem?_map,
    List.getElem?_range hi]
  rfl

/-- **The output of a chunked seal matches the template of its container.** -/
theorem StreamBinding.container_matches (htag : P.AeadTag) (B : StreamBinding) {H : StreamHeader}
    (draw : Nat → Draw) (S : Bytes) {C : Nat} (h : H.Describes S.length C) :
    Matches (containerShape H draw) (B.container P H draw (segmentStates S C)) := by
  rw [containerShape, StreamBinding.container, frames, List.flatMap_def]
  refine (matches_clear _).append (Matches.flatten (List.forall₂_iff_get.mpr ⟨?_, ?_⟩))
  · simp [segmentShapes, h.numSegments, h.pos]
  · intro i hi hi'
    have hcount : i < segmentCount S.length C := by
      rwa [segmentShapes, List.length_map, List.length_range, h.numSegments] at hi
    have hstate : i < (segmentStates S C).length := by rwa [segmentStates_length S h.pos]
    have hlen := (length_of_segmentStates h.pos (List.getElem?_eq_getElem hstate)).2
    have hget : (segmentShapes H draw)[i]? = _ := segmentShapes_getElem? h hcount
    obtain ⟨_, hshape⟩ := List.getElem?_eq_some_iff.mp hget
    rw [List.get_eq_getElem, List.get_eq_getElem, hshape, segmentLength, ← hlen]
    simp only [List.getElem_map, List.getElem_zipIdx, Nat.zero_add]
    exact (B.segment H i).framed_matches htag (draw i) _

/-! ## 3. Positions in a container -/

/-- **Every segment but the last is full.** -/
theorem segmentLength_of_lt {L C i : Nat} (hC : 0 < C) (hi : i + 1 < segmentCount L C) :
    segmentLength L C i = C := by
  have hceil : i + 2 ≤ (L + C - 1) / C := by
    rw [segmentCount] at hi
    omega
  have hmul := (Nat.le_div_iff_mul_le hC).mp hceil
  rw [Nat.add_mul] at hmul
  rw [segmentLength]
  omega

/-- The full segments and the last make up the state. -/
theorem segmentLength_last {L C : Nat} (hC : 0 < C) :
    (segmentCount L C - 1) * C + segmentLength L C (segmentCount L C - 1) = L := by
  by_cases hL : L = 0
  · subst hL
    have hceil : (0 + C - 1) / C = 0 := Nat.div_eq_of_lt (by omega)
    have hcount : segmentCount 0 C = 1 := by rw [segmentCount, hceil]; rfl
    rw [hcount, segmentLength]
    simp
  · have hceil : 1 ≤ (L + C - 1) / C := (Nat.one_le_div_iff hC).mpr (by omega)
    have hcount : segmentCount L C = (L + C - 1) / C := max_eq_right hceil
    obtain ⟨m, hm⟩ := Nat.exists_eq_add_of_le' hceil
    -- `m * C < L ≤ (m + 1) * C`
    have hlower := Nat.div_mul_le_self (L + C - 1) C
    have hupper := le_ceil_mul (L := L) hC
    rw [hm, Nat.succ_mul] at hlower hupper
    rw [hcount, hm, Nat.add_sub_cancel, segmentLength]
    omega

/-- **Where segment `i` begins**, behind the header. -/
theorem length_segmentShapes_take {H : StreamHeader} {draw : Nat → Draw} {L C : Nat}
    (h : H.Describes L C) {i : Nat} (hi : i < segmentCount L C) :
    ((segmentShapes H draw).take i).flatten.length = i * (93 + C) := by
  refine length_flatten_take fun j hj => ?_
  refine ⟨_, segmentShapes_getElem? h (hj.trans hi), ?_⟩
  rw [segmentShape_length, segmentLength_of_lt h.pos (Nat.lt_of_le_of_lt hj hi)]

/-- **What a container does not show in the clear**: in each segment the commitment and the
ciphertext. -/
def Concealed (L C p : Nat) : Prop :=
  ∃ i < segmentCount L C,
    segmentOffset C i + 41 ≤ p ∧ p < segmentOffset C i + 73 ∨
      segmentOffset C i + 77 ≤ p ∧ p < segmentOffset C i + 93 + segmentLength L C i

theorem containerShape_blank {H : StreamHeader} {draw : Nat → Draw} {L C p : Nat}
    (h : H.Describes L C) (hp : (containerShape H draw)[p]? = some none) : Concealed L C p := by
  rcases append_cases hp with hheader | ⟨q, hq, hrest⟩
  · exact absurd hheader clear_ne_blank
  obtain ⟨i, t, r, ht, hr, hqr⟩ := flatten_cases hrest
  have hi : i < segmentCount L C := by
    have hlt := (List.getElem?_eq_some_iff.mp ht).1
    rwa [segmentShapes, List.length_map, List.length_range, h.numSegments] at hlt
  rw [segmentShapes_getElem? h hi] at ht
  obtain rfl := Option.some.inj ht
  rw [length_segmentShapes_take h hi] at hqr
  rw [clear_length, H.bytes_length] at hq
  rcases append_cases hr with hframe | ⟨t, ht, henvelope⟩
  · exact absurd hframe clear_ne_blank
  rw [clear_length, beBytes_length] at ht
  refine ⟨i, hi, ?_⟩
  rw [segmentOffset]
  rcases envelopeShape_blank henvelope with ⟨hlo, hhi⟩ | ⟨hlo, hhi⟩
  · exact .inl (by omega)
  · exact .inr (by omega)

theorem containerShape_length {H : StreamHeader} (draw : Nat → Draw) {L C : Nat}
    (h : H.Describes L C) :
    (containerShape H draw).length = 45 + 93 * segmentCount L C + L := by
  obtain ⟨m, hm⟩ : ∃ m, segmentCount L C = m + 1 := by
    refine Nat.exists_eq_add_of_le' ?_
    rw [segmentCount]
    omega
  have hall : (segmentShapes H draw).take (m + 1) = segmentShapes H draw := by
    refine List.take_of_length_le ?_
    rw [segmentShapes, List.length_map, List.length_range, h.numSegments, hm]
  have hlast := segmentLength_last (L := L) h.pos
  rw [hm, Nat.add_sub_cancel] at hlast
  rw [containerShape, ← hall, List.take_add_one, segmentShapes_getElem? h (by omega)]
  simp only [List.length_append, clear_length, H.bytes_length, List.flatten_append,
    length_segmentShapes_take h (show m < segmentCount L C by omega), Option.toList_some,
    List.flatten_singleton, segmentShape_length, hm]
  rw [Nat.mul_add, Nat.mul_comm m 93] 
  omega

/-- **The public content of a container**: its length, its header, and the frame ahead of each
segment. -/
structure ContainerSizes (X streamId : Bytes) (L C : Nat) : Prop where
  length : X.length = 45 + 93 * segmentCount L C + L
  header : parseStreamHeader X = .ok ⟨streamId, segmentCount L C, C, L⟩
  frames : ∀ i < segmentCount L C,
    beNat (slice X (segmentOffset C i) (segmentOffset C i + 8)) = 85 + segmentLength L C i

/-- **What matches the template of a container has the sizes the template was made from.** -/
theorem ContainerSizes.of_matches {H : StreamHeader} {draw : Nat → Draw} {L C : Nat}
    (h : H.Describes L C) {X : Bytes} (hX : Matches (containerShape H draw) X) :
    ContainerSizes X H.streamId L C where
  length := by rw [hX.length_eq, containerShape_length draw h]
  header := by
    obtain ⟨y, z, rfl, hy, -⟩ := hX.split
    obtain rfl := matches_clear_iff.mp hy
    rw [parseStreamHeader_bytes, ← h.numSegments, ← h.segmentSize, ← h.totalLen]
  frames := by
    intro i hi
    have hget : (segmentShapes H draw)[i]? = _ := segmentShapes_getElem? h hi
    obtain ⟨hlt, hshape⟩ := List.getElem?_eq_some_iff.mp hget
    have hcut : segmentShapes H draw = (segmentShapes H draw).take i
        ++ segmentShape (draw i) (segmentLength L C i) :: (segmentShapes H draw).drop (i + 1) := by
      rw [← hshape, ← List.drop_eq_getElem_cons hlt, List.take_append_drop]
    have hsplit : containerShape H draw
        = (clear H.bytes ++ ((segmentShapes H draw).take i).flatten)
          ++ (clear (beBytes 8 (85 + segmentLength L C i))
            ++ (envelopeShape (draw i) (segmentLength L C i)
              ++ ((segmentShapes H draw).drop (i + 1)).flatten)) := by
      rw [containerShape]
      conv_lhs => rw [hcut]
      rw [List.flatten_append, List.flatten_cons, segmentShape]
      simp only [List.append_assoc]
    rw [hsplit] at hX
    obtain ⟨y, z, hyz, hy⟩ := hX.read
    have hoffset : y.length = segmentOffset C i := by
      rw [hy, List.length_append, clear_length, H.bytes_length, length_segmentShapes_take h hi,
        segmentOffset]
    have hfits : 85 + segmentLength L C i < 256 ^ 8 := by
      have hcap := h.cap
      rw [MAX_STATE, TAG_LEN] at hcap
      rw [segmentLength, pow_256_8]
      omega
    rw [slice_of_append hyz hoffset (by rw [beBytes_length]), beNat_beBytes hfits]

/-! ## 4. Two runs -/

/-- The shape of what a chunked call returns. -/
theorem ChunkedCall.matches_of_ok (htag : P.AeadTag) {c : ChunkedCall P} {S X : Bytes} {C : Nat}
    (hstate : c.state = .of S) (hsize : c.segmentSize = .of (C : Int))
    (hX : c.run.result = .ok X) :
    ∃ H : StreamHeader, H.Describes S.length C ∧ H.streamId = c.draw.streamId ∧
      Matches (containerShape H c.draw.segment) X := by
  obtain ⟨B, S', C', h⟩ := ChunkedCall.performs_of_ok hX
  obtain rfl := Arg.of.inj (hstate.symm.trans h.state)
  obtain rfl : C = C' := Int.ofNat.inj (Arg.of.inj (hsize.symm.trans h.segmentSize))
  have hdescribes := streamHeader_describes c.draw h.state_lt h.pos h.cap
  refine ⟨_, hdescribes, rfl, ?_⟩
  rw [ChunkedCall.run, h.state, h.segmentSize,
    sealStateChunked_eq_container htag h.presented h.state_lt h.pos h.cap] at hX
  obtain rfl := Except.ok.inj hX
  exact B.container_matches htag c.draw.segment S hdescribes

/-- The template of a container depends on the stream id, the sizes and the draws of its
segments. -/
theorem containerShape_congr {H H' : StreamHeader} {draw draw' : Nat → Draw} {L C : Nat}
    (h : H.Describes L C) (h' : H'.Describes L C) (hid : H.streamId = H'.streamId)
    (hdraw : ∀ i < segmentCount L C, draw i = draw' i) :
    containerShape H draw = containerShape H' draw' := by
  obtain rfl : H = H' := StreamHeader.ext hid (h.numSegments.trans h'.numSegments.symm)
    (h.segmentSize.trans h'.segmentSize.symm) (h.totalLen.trans h'.totalLen.symm)
  rw [containerShape, containerShape, segmentShapes, segmentShapes]
  congr 2
  refine List.map_congr_left fun i hi => ?_
  rw [hdraw i (h.numSegments ▸ List.mem_range.mp hi)]

/-- The description of a container reads its sizes. -/
theorem ContainerSizes.describeStream_eq {X streamId : Bytes} {L C : Nat}
    (h : ContainerSizes X streamId L C) :
    describeStream (.of (.bytes X)) = .ok (StreamFields.describe
      ⟨streamId, segmentCount L C, C, L⟩ (45 + 93 * segmentCount L C + L)) := by
  have hparse : parseStreamHeader (Carrier.toBytes (.bytes X))
      = .ok ⟨streamId, segmentCount L C, C, L⟩ := h.header
  have hlen : Carrier.len (.bytes X) = .ok (45 + 93 * segmentCount L C + L) := by
    rw [Carrier.len, h.length]
  rw [Sce.describeStream_eq, hparse, hlen]
  rfl

/-- The shape of what a direct call returns, and its description. -/
theorem SealCall.matches_of_ok (htag : P.AeadTag) {c : SealCall P} {S X : Bytes}
    (hstate : c.state = .of S) (hX : c.run.result = .ok X) :
    Matches (envelopeShape c.draw S.length) X ∧
      describeEnvelope (.of (.bytes X)) = .ok
        { magic := "SCE4"
          version := 4
          ciphertextBytes := S.length + 16
          totalEnvelopeBytes := 85 + S.length } := by
  obtain ⟨b, S', h, rfl⟩ := SealCall.performs_of_ok hX
  obtain rfl := Arg.of.inj (hstate.symm.trans h.state)
  refine ⟨b.sealed_matches htag c.draw S, ?_⟩
  have hlen := b.sealed_length htag c.draw S
  rw [← b.envelope_bytes htag c.draw h.state_le] at hlen ⊢
  rw [describeEnvelope_bytes, hlen]
  congr 2
  exact b.ciphertext_length htag c.draw S

/-- **Two chunked calls with the same draws and the same sizes.**  Contents, manifests, secrets,
epochs and contexts may differ. -/
structure ChunkedCall.Alike (c c' : ChunkedCall P) (L C : Nat) : Prop where
  state : ∃ S, c.state = .of S ∧ S.length = L
  state' : ∃ S', c'.state = .of S' ∧ S'.length = L
  segmentSize : c.segmentSize = .of (C : Int)
  segmentSize' : c'.segmentSize = .of (C : Int)
  streamId : c.draw.streamId = c'.draw.streamId
  segment : ∀ i < segmentCount L C, c.draw.segment i = c'.draw.segment i

/-- Two direct calls with the same draw and states of one length. -/
structure SealCall.Alike (c c' : SealCall P) (L : Nat) : Prop where
  state : ∃ S, c.state = .of S ∧ S.length = L
  state' : ∃ S', c'.state = .of S' ∧ S'.length = L
  draw : c.draw = c'.draw

/-- **The cleartext of sealed output depends on the draws and the sizes alone.** -/
theorem sealed_shape (htag : P.AeadTag) :
    (∀ (c c' : ChunkedCall P) (L C : Nat) (X X' : Bytes), c.Alike c' L C →
      c.run.result = .ok X → c'.run.result = .ok X' →
        ContainerSizes X c.draw.streamId L C ∧ ContainerSizes X' c.draw.streamId L C ∧
          (∀ p, ¬ Concealed L C p → X[p]? = X'[p]?) ∧
          describeStream (.of (.bytes X)) = describeStream (.of (.bytes X'))) ∧
    ∀ (c c' : SealCall P) (L : Nat) (X X' : Bytes), c.Alike c' L →
      c.run.result = .ok X → c'.run.result = .ok X' →
        X.length = 85 + L ∧ X'.length = 85 + L ∧
          (∀ p, ¬ (33 ≤ p ∧ p ≤ 64) → ¬ 69 ≤ p → X[p]? = X'[p]?) ∧
          describeEnvelope (.of (.bytes X)) = describeEnvelope (.of (.bytes X')) := by
  constructor
  · intro c c' L C X X' halike hX hX'
    obtain ⟨S, hS, rfl⟩ := halike.state
    obtain ⟨S', hS', hlen⟩ := halike.state'
    obtain ⟨H, hH, hid, hmatch⟩ := c.matches_of_ok htag hS halike.segmentSize hX
    obtain ⟨H', hH', hid', hmatch'⟩ := c'.matches_of_ok htag hS' halike.segmentSize' hX'
    rw [hlen] at hH'
    have hids : H.streamId = H'.streamId := by rw [hid, hid', halike.streamId]
    -- both outputs match one template
    rw [← containerShape_congr hH hH' hids halike.segment] at hmatch'
    have hsizes := ContainerSizes.of_matches hH hmatch
    have hsizes' := ContainerSizes.of_matches hH hmatch'
    rw [hid] at hsizes hsizes'
    refine ⟨hsizes, hsizes', fun p hp => ?_, ?_⟩
    · exact hmatch.agree hmatch' fun hblank => hp (containerShape_blank hH hblank)
    · rw [hsizes.describeStream_eq, hsizes'.describeStream_eq]
  · intro c c' L X X' halike hX hX'
    obtain ⟨S, hS, rfl⟩ := halike.state
    obtain ⟨S', hS', hlen⟩ := halike.state'
    obtain ⟨hmatch, hdescribe⟩ := c.matches_of_ok htag hS hX
    obtain ⟨hmatch', hdescribe'⟩ := c'.matches_of_ok htag hS' hX'
    rw [hlen] at hmatch' hdescribe'
    rw [← halike.draw] at hmatch'
    refine ⟨?_, ?_, fun p hp hp' => ?_, hdescribe.trans hdescribe'.symm⟩
    · rw [hmatch.length_eq, envelopeShape_length]
    · rw [hmatch'.length_eq, envelopeShape_length]
    · refine hmatch.agree hmatch' fun hblank => ?_
      rcases envelopeShape_blank hblank with ⟨hlo, hhi⟩ | ⟨hlo, -⟩
      · exact hp ⟨hlo, Nat.le_of_lt_succ hhi⟩
      · exact hp' hlo

/-- A stream of another state under another secret, epoch and context, with the same draws. -/
def toyStranger : ChunkedCall toy :=
  { toyChunkedCall 0x44 [0x06, 0x07, 0x08, 0x09, 0x0a] with
    masterSecret := .of (List.replicate 16 0x55), epochId := .of 0, context := .of [] }

/-- A direct seal likewise. -/
def toyStrangerSeal : SealCall toy :=
  { toySealCall [0x07] 0x22 with
    masterSecret := .of (List.replicate 16 0x55), epochId := .of 0, context := .of [] }

def toyOutput (run : Py Bytes) : Bytes := run.result.toOption.getD []

/-- What the two pairs of outputs have in common. -/
theorem toyStranger_shape :
    (ContainerSizes (toyOutput (toyChunkedCall 0x44 [0x01, 0x02, 0x03, 0x04, 0x05]).run)
        (List.replicate 16 0x44) 5 2 ∧
      ContainerSizes (toyOutput toyStranger.run) (List.replicate 16 0x44) 5 2 ∧
      (∀ p, ¬ Concealed 5 2 p →
        (toyOutput (toyChunkedCall 0x44 [0x01, 0x02, 0x03, 0x04, 0x05]).run)[p]?
          = (toyOutput toyStranger.run)[p]?) ∧
      describeStream (.of (.bytes (toyOutput
          (toyChunkedCall 0x44 [0x01, 0x02, 0x03, 0x04, 0x05]).run)))
        = describeStream (.of (.bytes (toyOutput toyStranger.run)))) ∧
    (toyOutput (toySealCall [0x01] 0x22).run).length = 85 + 1 ∧
      (toyOutput toyStrangerSeal.run).length = 85 + 1 ∧
      (∀ p, ¬ (33 ≤ p ∧ p ≤ 64) → ¬ 69 ≤ p →
        (toyOutput (toySealCall [0x01] 0x22).run)[p]? = (toyOutput toyStrangerSeal.run)[p]?) ∧
      describeEnvelope (.of (.bytes (toyOutput (toySealCall [0x01] 0x22).run)))
        = describeEnvelope (.of (.bytes (toyOutput toyStrangerSeal.run))) := by
  constructor
  · refine (sealed_shape toy_aeadTag).1 (toyChunkedCall 0x44 [0x01, 0x02, 0x03, 0x04, 0x05])
      toyStranger 5 2 _ _ ?_ (by decide +kernel) (by decide +kernel)
    exact ⟨⟨_, rfl, rfl⟩, ⟨_, rfl, rfl⟩, rfl, rfl, rfl, fun _ _ => rfl⟩
  · refine (sealed_shape toy_aeadTag).2 (toySealCall [0x01] 0x22) toyStrangerSeal 1 _ _ ?_
      (by decide +kernel) (by decide +kernel)
    exact ⟨⟨_, rfl, rfl⟩, ⟨_, rfl, rfl⟩, rfl⟩

end Sce
