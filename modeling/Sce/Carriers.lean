/-
# What carries the bytes does not matter, except to `len`

`_require_envelope_bytes` accepts `bytes`, `bytearray` and `memoryview` and normalises them, so
an entry point that goes on with what it returns sees the bytes only.  Three of the five do.
The two descriptions report `len(...)` of the argument they were given instead, and for a
`memoryview` that is the first dimension, not the number of bytes.

`sameAsBytes_iff` says exactly when the five agree with their run on `bytes(x)`.
-/
import Sce.EnvelopeErrors

namespace Sce

variable {P : Platform}

/-! ## 1. The readers on a carrier -/

/-- **The carrier `x` is treated as its bytes**: each entry point returns what it returns on
`bytes(x)`, and the two totals are numbers of bytes. -/
structure SameAsBytes (P : Platform) (x : Carrier) (manifest : Arg (Manifest P))
    (masterSecret : Arg Bytes) (epochId : Arg Int) (context : Arg Bytes) : Prop where
  unsealed : unsealState P (.of x) manifest masterSecret epochId context
    = unsealState P (.of (.bytes x.toBytes)) manifest masterSecret epochId context
  unsealedStream : unsealStateChunked P (.of x) manifest masterSecret epochId context
    = unsealStateChunked P (.of (.bytes x.toBytes)) manifest masterSecret epochId context
  described : describeEnvelope (.of x) = describeEnvelope (.of (.bytes x.toBytes))
  describedStream : describeStream (.of x) = describeStream (.of (.bytes x.toBytes))
  explained : explainMismatch P (.of x) manifest
    = explainMismatch P (.of (.bytes x.toBytes)) manifest
  envelopeTotal : ∀ d, describeEnvelope (.of x) = .ok d →
    d.totalEnvelopeBytes = 69 + d.ciphertextBytes
  containerTotal : ∀ d, describeStream (.of x) = .ok d →
    d.totalContainerBytes = x.toBytes.length

/-- The description of an envelope with the given length of its carrier. -/
def Parsed.describe (p : Parsed) (total : Nat) : EnvelopeDescription where
  magic := decodeAscii p.magic
  version := p.version
  ciphertextBytes := p.ciphertext.length
  totalEnvelopeBytes := total

/-- The description of a container with the given length of its carrier. -/
def StreamFields.describe (H : StreamFields) (total : Nat) : StreamDescription where
  magic := decodeAscii STREAM_MAGIC
  version := STREAM_VERSION
  numSegments := H.numSegments
  segmentSize := H.segmentSize
  totalPlaintextBytes := H.totalLen
  totalContainerBytes := total

theorem describeEnvelope_eq (x : Carrier) : describeEnvelope (.of x) =
    (parseBytes x.toBytes >>= fun p => x.len >>= fun n => pure (p.describe n)) := rfl

theorem describeStream_eq (x : Carrier) : describeStream (.of x) =
    (parseStreamHeader x.toBytes >>= fun H => x.len >>= fun n => pure (H.describe n)) := rfl

theorem describeEnvelope_eq_ok {x : Carrier} {d : EnvelopeDescription} :
    describeEnvelope (.of x) = .ok d ↔
      ∃ p, parseBytes x.toBytes = .ok p ∧ ∃ n, x.len = .ok n ∧ p.describe n = d := by
  simp only [describeEnvelope_eq, Except.bind_eq_ok, Except.pure_eq_ok]

theorem describeStream_eq_ok {x : Carrier} {d : StreamDescription} :
    describeStream (.of x) = .ok d ↔
      ∃ H, parseStreamHeader x.toBytes = .ok H ∧ ∃ n, x.len = .ok n ∧ H.describe n = d := by
  simp only [describeStream_eq, Except.bind_eq_ok, Except.pure_eq_ok]

/-- Where the parse fails, or `len` counts bytes, the description is that of the bytes. -/
theorem describeEnvelope_same {x : Carrier}
    (h : x.len = .ok x.toBytes.length ∨ ∀ p, parseBytes x.toBytes ≠ .ok p) :
    describeEnvelope (.of x) = describeEnvelope (.of (.bytes x.toBytes)) := by
  rw [describeEnvelope_eq, describeEnvelope_eq]
  rcases h with hlen | hparse
  · rw [hlen]
    rfl
  · cases hp : parseBytes x.toBytes with
    | error e =>
      have hbytes : parseBytes (Carrier.bytes x.toBytes).toBytes = .error e := hp
      rw [hbytes]
      rfl
    | ok p => exact absurd hp (hparse p)

theorem describeStream_same {x : Carrier}
    (h : x.len = .ok x.toBytes.length ∨ ∀ H, parseStreamHeader x.toBytes ≠ .ok H) :
    describeStream (.of x) = describeStream (.of (.bytes x.toBytes)) := by
  rw [describeStream_eq, describeStream_eq]
  rcases h with hlen | hparse
  · rw [hlen]
    rfl
  · cases hH : parseStreamHeader x.toBytes with
    | error e =>
      have hbytes : parseStreamHeader (Carrier.bytes x.toBytes).toBytes = .error e := hH
      rw [hbytes]
      rfl
    | ok H => exact absurd hH (hparse H)

/-- A description that is that of the bytes shows that `len` counts them. -/
theorem len_of_describeEnvelope_same {x : Carrier} {p : Parsed}
    (hp : parseBytes x.toBytes = .ok p)
    (h : describeEnvelope (.of x) = describeEnvelope (.of (.bytes x.toBytes))) :
    x.len = .ok x.toBytes.length := by
  have hbytes : describeEnvelope (.of (.bytes x.toBytes)) = .ok (p.describe x.toBytes.length) :=
    describeEnvelope_eq_ok.mpr ⟨p, hp, _, rfl, rfl⟩
  obtain ⟨q, -, n, hn, hd⟩ := describeEnvelope_eq_ok.mp (h.trans hbytes)
  have htotal : n = x.toBytes.length := congrArg EnvelopeDescription.totalEnvelopeBytes hd
  rw [hn, htotal]

theorem len_of_describeStream_same {x : Carrier} {H : StreamFields}
    (hH : parseStreamHeader x.toBytes = .ok H)
    (h : describeStream (.of x) = describeStream (.of (.bytes x.toBytes))) :
    x.len = .ok x.toBytes.length := by
  have hbytes : describeStream (.of (.bytes x.toBytes)) = .ok (H.describe x.toBytes.length) :=
    describeStream_eq_ok.mpr ⟨H, hH, _, rfl, rfl⟩
  obtain ⟨F, -, n, hn, hd⟩ := describeStream_eq_ok.mp (h.trans hbytes)
  have htotal : n = x.toBytes.length := congrArg StreamDescription.totalContainerBytes hd
  rw [hn, htotal]

/-! ## 2. When a carrier is treated as its bytes -/

/-- **Exactly when the carrier makes no difference**: when its `len` is its number of bytes, or
when there is nothing to describe, its bytes being neither an envelope nor headed as a
container. -/
theorem sameAsBytes_iff (x : Carrier) (manifest : Arg (Manifest P)) (masterSecret : Arg Bytes)
    (epochId : Arg Int) (context : Arg Bytes) :
    SameAsBytes P x manifest masterSecret epochId context ↔
      x.len = .ok x.toBytes.length ∨
        ((∀ p, parseBytes x.toBytes ≠ .ok p) ∧ ∀ H, parseStreamHeader x.toBytes ≠ .ok H) := by
  constructor
  · intro h
    by_cases hparse : ∃ p, parseBytes x.toBytes = .ok p
    · obtain ⟨p, hp⟩ := hparse
      exact .inl (len_of_describeEnvelope_same hp h.described)
    · by_cases hheader : ∃ H, parseStreamHeader x.toBytes = .ok H
      · obtain ⟨H, hH⟩ := hheader
        exact .inl (len_of_describeStream_same hH h.describedStream)
      · exact .inr ⟨fun p hp => hparse ⟨p, hp⟩, fun H hH => hheader ⟨H, hH⟩⟩
  · intro h
    have henvelope : x.len = .ok x.toBytes.length ∨ ∀ p, parseBytes x.toBytes ≠ .ok p :=
      h.imp_right And.left
    have hstream : x.len = .ok x.toBytes.length ∨ ∀ H, parseStreamHeader x.toBytes ≠ .ok H :=
      h.imp_right And.right
    refine ⟨rfl, rfl, describeEnvelope_same henvelope, describeStream_same hstream, rfl, ?_, ?_⟩
    · intro d hd
      obtain ⟨p, hp, n, hn, rfl⟩ := describeEnvelope_eq_ok.mp hd
      obtain ⟨V, hV, rfl⟩ := parseBytes_eq_ok.mp hp
      have hlen := henvelope.resolve_right fun hnot => hnot _ hp
      obtain rfl := Except.ok.inj (hn.symm.trans hlen)
      have htotal : x.toBytes.length = 69 + V.ciphertext.length := by
        rw [hV, V.bytes_length]
      exact htotal
    · intro d hd
      obtain ⟨H, hH, n, hn, rfl⟩ := describeStream_eq_ok.mp hd
      have hlen := hstream.resolve_right fun hnot => hnot _ hH
      exact Except.ok.inj (hn.symm.trans hlen)

theorem toyEnvelope_length : toyEnvelope.length = 4 * [22].prod := by decide +kernel

/-- The 88 bytes of an envelope, seen as 22 items of 4 bytes. -/
def toyView : MemoryView where
  itemsize := 4
  shape := [22]
  contents := toyEnvelope
  contents_length := toyEnvelope_length

/-- **The total it is described with is 22**, beside 19 bytes of ciphertext. -/
theorem toyView_differs :
    describeEnvelope (.of (.memoryview toyView)) = .ok
        { magic := "SCE4", version := 4, ciphertextBytes := 19, totalEnvelopeBytes := 22 } ∧
      ¬ SameAsBytes toy (.memoryview toyView) (.of toyManifest) (.of toySecret) (.of 9)
        (.of [0x63]) := by
  have hview : describeEnvelope (.of (.memoryview toyView)) = .ok
      { magic := "SCE4", version := 4, ciphertextBytes := 19, totalEnvelopeBytes := 22 } := by
    decide +kernel
  exact ⟨hview, fun h => absurd (h.envelopeTotal _ hview) (by decide)⟩

end Sce
