/-
# The hashed KDF input is unambiguous

Everything a key depends on besides the secret and the salt enters HKDF through one SHA3-256
input, which `_kdf_info` builds from a context, an epoch and a fingerprint.  For a segment of a
stream the context is itself a composite, built by `_seg_context` of the other module with a
length prefix of its own.  This file shows that nothing is lost on the way, whatever the
contents imitate.

* `kdfCanonicalBytes` is the hashed input for arbitrary lengths: the fingerprint is neither
  assumed to have 32 bytes nor used as the last field.
* `KdfArgs` and `StreamKdfArgs` are the arguments that pass the length prefixes, those of a
  plain context and those of a segment.
* `kdfInput_injective` puts the two framings together.
-/
import Sce.StreamSpec

namespace Sce

open BigEndian

/-! ## 1. Arguments that fit the prefixes -/

/-- **What `_kdf_info` is called with**, each field within its length prefix. -/
@[ext] structure KdfArgs where
  context : Bytes
  epochId : Nat
  memh : Bytes
  context_le : context.length ≤ MAX_LP_FIELD
  epochId_lt : epochId < 2 ^ 64
  memh_lt : memh.length < 2 ^ 32

/-- **What a segment's key is derived for**: the arguments of `_seg_context` beside the epoch
and the fingerprint.  The two byte strings are bounded only through the segment context they
go into. -/
@[ext] structure StreamKdfArgs where
  userContext : Bytes
  streamId : Bytes
  index : Nat
  numSegments : Nat
  totalLen : Nat
  segmentSize : Nat
  epochId : Nat
  memh : Bytes
  contexts_le : 58 + userContext.length + streamId.length ≤ MAX_LP_FIELD
  index_lt : index < 2 ^ 64
  numSegments_lt : numSegments < 2 ^ 64
  totalLen_lt : totalLen < 2 ^ 64
  segmentSize_lt : segmentSize < 2 ^ 64
  epochId_lt : epochId < 2 ^ 64
  memh_lt : memh.length < 2 ^ 32

namespace KdfArgs

/-- `_kdf_info(context, epoch_id, memh)` -/
def kdfInfo (P : Platform) (k : KdfArgs) : Py Bytes := Sce.kdfInfo P k.context k.epochId k.memh

/-- The bytes it hashes. -/
def canonical (k : KdfArgs) : Bytes := kdfCanonicalBytes k.context k.epochId k.memh

theorem kdfInfo_eq (P : Platform) (k : KdfArgs) :
    k.kdfInfo P = ⟨[.sha3 k.canonical], .ok (KDF_INFO_PREFIX ++ P.sha3_256 k.canonical)⟩ :=
  kdfInfo_eq_of_fits P k.context_le k.epochId_lt (Nat.le_sub_one_of_lt k.memh_lt)

/-- **The hashed bytes determine the arguments.** -/
theorem canonical_inj {k k' : KdfArgs} (h : k.canonical = k'.canonical) : k = k' := by
  obtain ⟨hcontext, hepoch, hmemh⟩ := kdfCanonicalBytes_inj k.context_le k'.context_le
    k.epochId_lt k'.epochId_lt (Nat.le_sub_one_of_lt k.memh_lt)
    (Nat.le_sub_one_of_lt k'.memh_lt) h
  exact KdfArgs.ext hcontext hepoch hmemh

end KdfArgs

namespace StreamKdfArgs

variable (a : StreamKdfArgs)

/-- `_kdf_info(_seg_context(...), epoch_id, memh)` -/
def kdfInfo (P : Platform) : Py Bytes := do
  let segCtx ← segContext a.userContext a.streamId a.index a.numSegments a.totalLen a.segmentSize
  Sce.kdfInfo P segCtx a.epochId a.memh

theorem segContextArgs : SegContextArgs a.userContext a.streamId a.index a.numSegments
    a.totalLen a.segmentSize where
  userContext := by
    have h := a.contexts_le
    rw [MAX_LP_FIELD] at h
    omega
  streamId := by
    have h := a.contexts_le
    rw [MAX_LP_FIELD] at h
    omega
  index := a.index_lt
  numSegments := a.numSegments_lt
  totalLen := a.totalLen_lt
  segmentSize := a.segmentSize_lt

/-- The arguments of the inner call. -/
def toKdfArgs : KdfArgs where
  context := segContextBytes a.userContext a.streamId a.index a.numSegments a.totalLen
    a.segmentSize
  epochId := a.epochId
  memh := a.memh
  context_le := (segContextBytes_length _ _ _ _ _ _).trans_le a.contexts_le
  epochId_lt := a.epochId_lt
  memh_lt := a.memh_lt

theorem kdfInfo_eq (P : Platform) : a.kdfInfo P = a.toKdfArgs.kdfInfo P := by
  rw [kdfInfo, segContext_eq_ok.mpr ⟨a.segContextArgs, rfl⟩, Logged.liftM_ok, Logged.pure_bind]
  rfl

/-- **Through both framings.** -/
theorem toKdfArgs_inj {a a' : StreamKdfArgs} (h : a.toKdfArgs = a'.toKdfArgs) : a = a' := by
  have hcontext : a.toKdfArgs.context = a'.toKdfArgs.context := by rw [h]
  have hepoch : a.toKdfArgs.epochId = a'.toKdfArgs.epochId := by rw [h]
  have hmemh : a.toKdfArgs.memh = a'.toKdfArgs.memh := by rw [h]
  obtain ⟨hu, hs, hi, hn, hL, hC⟩ :=
    segContextBytes_inj a.segContextArgs a'.segContextArgs hcontext
  exact StreamKdfArgs.ext hu hs hi hn hL hC hepoch hmemh

end StreamKdfArgs

/-! ## 2. Injectivity -/

/-- **The composed encoding is injective.**  `_kdf_info` hashes one byte string; for a plain
context it determines the context, the epoch and the fingerprint, and for a segment context
every argument the segment context was made from as well. -/
theorem kdfInput_injective (P : Platform) :
    (∀ k k' : KdfArgs, ∃ x x', k.kdfInfo P = ⟨[.sha3 x], .ok (KDF_INFO_PREFIX ++ P.sha3_256 x)⟩ ∧
      k'.kdfInfo P = ⟨[.sha3 x'], .ok (KDF_INFO_PREFIX ++ P.sha3_256 x')⟩ ∧ (x = x' → k = k')) ∧
    (∀ a a' : StreamKdfArgs, ∃ x x',
      a.kdfInfo P = ⟨[.sha3 x], .ok (KDF_INFO_PREFIX ++ P.sha3_256 x)⟩ ∧
      a'.kdfInfo P = ⟨[.sha3 x'], .ok (KDF_INFO_PREFIX ++ P.sha3_256 x')⟩ ∧
      (x = x' → a = a')) := by
  constructor
  · intro k k'
    exact ⟨_, _, k.kdfInfo_eq P, k'.kdfInfo_eq P, KdfArgs.canonical_inj⟩
  · intro a a'
    refine ⟨_, _, (a.kdfInfo_eq P).trans (a.toKdfArgs.kdfInfo_eq P),
      (a'.kdfInfo_eq P).trans (a'.toKdfArgs.kdfInfo_eq P), ?_⟩
    exact fun h => StreamKdfArgs.toKdfArgs_inj (KdfArgs.canonical_inj h)

end Sce
