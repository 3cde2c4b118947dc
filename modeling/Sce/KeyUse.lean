/-
# The use of keys over a history

Every seal draws its own salt and nonce, a segment of a stream too, and its key is derived from
the salt and everything it is bound to.  So a key is a name for all of these: over any history,
encryptions under one key agree in salt, secret, fingerprint, epoch and context, and segments at
different places have different keys whatever was drawn (`no_key_nonce_reuse`).
-/
import Sce.Authenticity
import Sce.StreamCanonical

namespace Sce

variable {P : Platform}

/-! ## 1. Two seals of one history -/

section

variable {calls : List (Call P)} {c c' : Call P} {b b' : Binding} {draw draw' : Draw}
  {S S' : Bytes}

/-- **A key comes from one binding and one salt.** -/
theorem Call.CarriesOut.eq_of_key (hsha : P.Sha3CollisionFree (historyLog calls))
    (henc : P.EncHalfCollisionFree (historyLog calls)) (hc : c ∈ calls) (hc' : c' ∈ calls)
    (h : c.CarriesOut b draw S) (h' : c'.CarriesOut b' draw' S')
    (hkey : (b.encryption P draw S).key = (b'.encryption P draw' S').key) :
    b = b' ∧ draw.salt = draw'.salt :=
  Binding.eq_of_kEnc hsha henc (h.derivedIn hc) (h'.derivedIn hc') hkey

/-- **A stored commitment comes from one binding and one salt.** -/
theorem Call.CarriesOut.eq_of_commitment (hsha : P.Sha3CollisionFree (historyLog calls))
    (hcom : P.ComHalfCollisionFree (historyLog calls)) (hc : c ∈ calls) (hc' : c' ∈ calls)
    (h : c.CarriesOut b draw S) (h' : c'.CarriesOut b' draw' S')
    (hcommit : b.commitment P draw.salt = b'.commitment P draw'.salt) :
    b = b' ∧ draw.salt = draw'.salt :=
  Binding.eq_of_commitment hsha hcom (h.derivedIn hc) (h'.derivedIn hc') hcommit

end

/-! ## 2. The whole history -/

/-- **No key and nonce are used twice without a double collision of the random source.**  The
encryptions of a history are those of the seals carried out.  Of any two such seals: one key and
one nonce mean one salt, one nonce and equal parameters; different salts mean different keys and
different stored commitments; and different arguments of the segment context mean different
keys, whatever was drawn. -/
theorem no_key_nonce_reuse {calls : List (Call P)}
    (hsha : P.Sha3CollisionFree (historyLog calls))
    (henc : P.EncHalfCollisionFree (historyLog calls))
    (hcom : P.ComHalfCollisionFree (historyLog calls)) :
    (∀ e ∈ encryptions (historyLog calls),
      ∃ c ∈ calls, ∃ b draw S, c.CarriesOut b draw S ∧ e = b.encryption P draw S) ∧
    ∀ c ∈ calls, ∀ c' ∈ calls, ∀ (b b' : Binding) (draw draw' : Draw) (S S' : Bytes),
      c.CarriesOut b draw S → c'.CarriesOut b' draw' S' →
      ((b.encryption P draw S).key = (b'.encryption P draw' S').key →
        (b.encryption P draw S).nonce = (b'.encryption P draw' S').nonce →
          draw.salt = draw'.salt ∧ draw.nonce = draw'.nonce ∧
            b.masterSecret = b'.masterSecret ∧ b.memh = b'.memh ∧ b.epochId = b'.epochId ∧
            b.context = b'.context) ∧
      (draw.salt ≠ draw'.salt →
        (b.encryption P draw S).key ≠ (b'.encryption P draw' S').key ∧
          b.commitment P draw.salt ≠ b'.commitment P draw'.salt) ∧
      (∀ u s i n L C u' s' i' n' L' C',
        segContext u s i n L C = .ok b.context → segContext u' s' i' n' L' C' = .ok b'.context →
        (u, s, i, n, L, C) ≠ (u', s', i', n', L', C') →
          (b.encryption P draw S).key ≠ (b'.encryption P draw' S').key) := by
  refine ⟨fun e he => encryption_carriedOut he, ?_⟩
  intro c hc c' hc' b b' draw draw' S S' h h'
  refine ⟨?_, ?_, ?_⟩
  · intro hkey hnonce
    obtain ⟨rfl, hsalt⟩ := h.eq_of_key hsha henc hc hc' h' hkey
    exact ⟨hsalt, hnonce, rfl, rfl, rfl, rfl⟩
  · intro hsalt
    constructor
    · intro hkey
      exact hsalt (h.eq_of_key hsha henc hc hc' h' hkey).2
    · intro hcommit
      exact hsalt (h.eq_of_commitment hsha hcom hc hc' h' hcommit).2
  · intro u s i n L C u' s' i' n' L' C' hctx hctx' hne hkey
    obtain ⟨rfl, -⟩ := h.eq_of_key hsha henc hc hc' h' hkey
    obtain ⟨hargs, hbytes⟩ := segContext_eq_ok.mp hctx
    obtain ⟨hargs', hbytes'⟩ := segContext_eq_ok.mp hctx'
    obtain ⟨rfl, rfl, rfl, rfl, rfl, rfl⟩ :=
      segContextBytes_inj hargs hargs' (hbytes.trans hbytes'.symm)
    exact hne rfl

/-- Three segments that all draw one salt and one nonce. -/
def toyRepeatedStream : ChunkedCall toy :=
  { toyChunkedCall 0x44 [0x01, 0x02, 0x03, 0x04, 0x05] with
    draw := { toyStreamDraw with segment := fun _ => toyDraw } }

/-- They and a direct seal with the same draw. -/
def toyRepeated : List (Call toy) :=
  [.direct (toySealCall [0x01] 0x22), .chunked toyRepeatedStream]

theorem toyRepeatedStream_performs :
    toyRepeatedStream.Performs toyStream [0x01, 0x02, 0x03, 0x04, 0x05] 2 where
  presented := ⟨⟨⟨toyManifest, rfl, rfl⟩, rfl, rfl⟩, rfl⟩
  state := rfl
  segmentSize := rfl
  state_lt := by decide
  pos := by decide
  cap := by decide

/-- Two segments with one salt and one nonce have two keys. -/
theorem toyRepeated_keys :
    ((toyStream.segment toyRepeatedStream_performs.header 0).encryption toy toyDraw
        [0x01, 0x02]).key ≠
      ((toyStream.segment toyRepeatedStream_performs.header 1).encryption toy toyDraw
        [0x03, 0x04]).key := by
  have hfirst : (Call.chunked toyRepeatedStream).CarriesOut
      (toyStream.segment toyRepeatedStream_performs.header 0) toyDraw [0x01, 0x02] :=
    ⟨.segment toyRepeatedStream_performs (by decide), by decide +kernel⟩
  have hsecond : (Call.chunked toyRepeatedStream).CarriesOut
      (toyStream.segment toyRepeatedStream_performs.header 1) toyDraw [0x03, 0x04] :=
    ⟨.segment toyRepeatedStream_performs (by decide), by decide +kernel⟩
  have hmem : Call.chunked toyRepeatedStream ∈ toyRepeated :=
    List.mem_cons_of_mem _ List.mem_cons_self
  have hctx := toyStream.segContext_eq toyRepeatedStream_performs.header (i := 0) (by decide)
  have hctx' := toyStream.segContext_eq toyRepeatedStream_performs.header (i := 1) (by decide)
  have hreuse := @no_key_nonce_reuse toy toyRepeated (by decide +kernel) (by decide +kernel)
    (by decide +kernel)
  exact (hreuse.2 _ hmem _ hmem _ _ _ _ _ _ hfirst hsecond).2.2 _ _ _ _ _ _ _ _ _ _ _ _
    hctx hctx' (by simp)

end Sce
