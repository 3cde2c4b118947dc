/-
# The chunked stream container

`seal_state_chunked` and `unseal_state_chunked` of `sce/stream.py`: a state cut into segments,
each an envelope sealed under a context that names its place, behind a header that carries the
stream id, the segment count, the segment size and the total length in the clear.

* The stream layer has a length-prefix helper of its own, without the bound of the core's
  (`streamLp`), and packs its integers at fixed widths; each of these can overflow on its own.
* The two loops keep the code's variables.  The producer appends to `out`; the consumer moves
  `off` through the container and collects `parts` and `assembled`.
* What `os.urandom` returns is an argument, as in `Core.lean`, and so is the key derivation.
-/
import Sce.Core

namespace Sce

open BigEndian

/-! ## 1. Constants -/

/-- `_STREAM_MAGIC = b"SCES"` -/
def STREAM_MAGIC : Bytes := [0x53, 0x43, 0x45, 0x53]

def STREAM_VERSION : Nat := 1

/-- `_STREAM_DOMAIN = b"LDDP-SCE|stream-v1"` -/
def STREAM_DOMAIN : Bytes :=
  [0x4c, 0x44, 0x44, 0x50, 0x2d, 0x53, 0x43, 0x45, 0x7c, 0x73, 0x74, 0x72, 0x65, 0x61, 0x6d,
    0x2d, 0x76, 0x31]

def STREAM_ID_LEN : Nat := 16

/-- `_STREAM_HEADER.size` -/
def STREAM_HEADER_size : Nat := 4 + 1 + STREAM_ID_LEN + 8 + 8 + 8

/-- `_SEG_FRAME.size` -/
def SEG_FRAME_size : Nat := 8

theorem STREAM_MAGIC_length : STREAM_MAGIC.length = 4 := rfl

theorem STREAM_DOMAIN_length : STREAM_DOMAIN.length = 18 := rfl

theorem STREAM_HEADER_size_eq : STREAM_HEADER_size = 45 := rfl

def DEFAULT_SEGMENT_SIZE : Nat := 64 * 1024 * 1024

/-! ## 2. The per-segment context -/

/-- The stream layer's `_lp`. -/
def streamLp (b : Bytes) : Except PyExc Bytes := do
  let n ← toBytes b.length 4
  return n ++ b

/-- `_seg_context` -/
def segContext (userContext streamId : Bytes) (index numSegments totalLen segmentSize : Nat) :
    Except PyExc Bytes := do
  let userContext ← streamLp userContext
  let streamId ← streamLp streamId
  let index ← toBytes index 8
  let numSegments ← toBytes numSegments 8
  let totalLen ← toBytes totalLen 8
  let segmentSize ← toBytes segmentSize 8
  return STREAM_DOMAIN ++ userContext ++ streamId ++ index ++ numSegments ++ totalLen
    ++ segmentSize

/-- The header fields, as `_parse_stream_header` returns them. -/
structure StreamFields where
  streamId : Bytes
  numSegments : Nat
  segmentSize : Nat
  totalLen : Nat
  deriving DecidableEq

/-- The context of segment `index` of the stream with these header fields. -/
def StreamFields.segContext (H : StreamFields) (userContext : Bytes) (index : Nat) :
    Except PyExc Bytes :=
  Sce.segContext userContext H.streamId index H.numSegments H.totalLen H.segmentSize

/-! ## 3. Sealing -/

/-- What one chunked seal draws from `os.urandom`: a stream id, and a salt and a nonce for each
segment. -/
structure StreamDraw where
  streamId : Bytes
  segment : Nat → Draw
  streamId_length : streamId.length = STREAM_ID_LEN

/-- The checks on `segment_size`. -/
def checkSegmentSize : Arg Int → Except PyExc Nat
  | .other _ => .error (.sceError "segment_size must be a positive integer")
  | .of segmentSize =>
    if segmentSize ≤ 0 then .error (.sceError "segment_size must be a positive integer")
    else if segmentSize > MAX_STATE then
      .error (.sceError "segment_size exceeds the maximum sealable payload (~4 GiB)")
    else .ok segmentSize.toNat

/-- `range(0, stop, step)` for a positive step. -/
def pyRange (stop step : Nat) : List Nat := List.range' 0 ((stop + step - 1) / step) step

/-- `bounds`: where the segments begin and end. -/
def segmentBounds (totalLen segmentSize : Nat) : List (Nat × Nat) :=
  if totalLen = 0 then [(0, 0)]
  else (pyRange totalLen segmentSize).map fun o => (o, min (o + segmentSize) totalLen)

/-- `_STREAM_HEADER.pack(...)` -/
def packStreamHeader (H : StreamFields) : Except PyExc Bytes := do
  let version ← packUInt 1 STREAM_VERSION
  let numSegments ← packUInt 8 H.numSegments
  let segmentSize ← packUInt 8 H.segmentSize
  let totalLen ← packUInt 8 H.totalLen
  return packS 4 STREAM_MAGIC ++ version ++ packS STREAM_ID_LEN H.streamId ++ numSegments
    ++ segmentSize ++ totalLen

variable (P : Platform)

/-- The segment loop of `seal_state_chunked`, from segment `i` on. -/
def sealSegmentsWith (derive : Deriver) (draw : StreamDraw) (state : Bytes)
    (manifest : Manifest P) (masterSecret : Arg Bytes) (epochId : Arg Int)
    (userContext : Bytes) (H : StreamFields) :
    (i : Nat) → (bounds : List (Nat × Nat)) → (out : Bytes) → Py Bytes
  | _, [], out => pure out
  | i, (lo, hi) :: bounds, out => do
    let segCtx ← H.segContext userContext i
    let env ← sealStateWith P derive (draw.segment i) (.of (slice state lo hi)) (.of manifest)
      masterSecret epochId (.of segCtx)
    let envLen ← packUInt SEG_FRAME_size env.length
    sealSegmentsWith derive draw state manifest masterSecret epochId userContext H (i + 1)
      bounds (out ++ envLen ++ env)

/-- `seal_state_chunked`, over an arbitrary key derivation. -/
def sealStateChunkedWith (derive : Deriver) (draw : StreamDraw) (state : Arg Bytes)
    (manifest : Arg (Manifest P)) (masterSecret : Arg Bytes) (epochId : Arg Int := .of 0)
    (context : Arg Bytes := .of []) (segmentSize : Arg Int := .of DEFAULT_SEGMENT_SIZE) :
    Py Bytes := do
  let manifest ← requireManifest P manifest
  let state ← requireState state
  let userContext ← requireContext context
  let segmentSize ← checkSegmentSize segmentSize
  let totalLen := state.length
  let bounds := segmentBounds totalLen segmentSize
  let numSegments := bounds.length
  let streamId ← Logged.perform (.streamId draw.streamId) draw.streamId
  let H : StreamFields := { streamId, numSegments, segmentSize, totalLen }
  let header ← packStreamHeader H
  sealSegmentsWith P derive draw state manifest masterSecret epochId userContext H 0 bounds
    header

/-- `seal_state_chunked` -/
def sealStateChunked (draw : StreamDraw) (state : Arg Bytes) (manifest : Arg (Manifest P))
    (masterSecret : Arg Bytes) (epochId : Arg Int := .of 0) (context : Arg Bytes := .of [])
    (segmentSize : Arg Int := .of DEFAULT_SEGMENT_SIZE) : Py Bytes :=
  sealStateChunkedWith P (deriveKeyMaterial P) draw state manifest masterSecret epochId context
    segmentSize

/-! ## 4. Unsealing -/

/-- `_parse_stream_header` after the type check. -/
def parseStreamHeader (container : Bytes) : Except PyExc StreamFields :=
  if container.length < STREAM_HEADER_size then
    .error (.malformedEnvelope "blob is shorter than the SCES stream header")
  else
    let magic := slice container 0 4
    let version := beNat (slice container 4 5)
    let streamId := slice container 5 21
    let numSegments := beNat (slice container 21 29)
    let segmentSize := beNat (slice container 29 37)
    let totalLen := beNat (slice container 37 45)
    if magic ≠ STREAM_MAGIC then
      .error (.malformedEnvelope "bad magic: not an SCES stream container")
    else if version ≠ STREAM_VERSION then
      .error (.malformedEnvelope ("unsupported SCES stream version " ++ toString version))
    else .ok { streamId, numSegments, segmentSize, totalLen }

/-- The guards of `unseal_state_chunked` between the header and the loop. -/
def checkStreamHeader (container : Bytes) (H : StreamFields) : Except PyExc Unit :=
  if H.numSegments = 0 then .error (.malformedEnvelope "container declares zero segments")
  else if H.totalLen = 0 ∧ H.numSegments ≠ 1 then
    .error (.malformedEnvelope "an empty state must be carried by exactly one segment")
  else if H.numSegments > (container.length - STREAM_HEADER_size) / (SEG_FRAME_size + 1) then
    .error (.malformedEnvelope "declared segment count exceeds what the container can hold")
  else .ok ()

/-- The variables of the segment loop. -/
structure SegmentLoop where
  off : Nat
  parts : List Bytes
  assembled : Nat

/-- The segment loop of `unseal_state_chunked`, with `remaining` segments to go from segment
`i` on. -/
def unsealSegmentsWith (derive : Deriver) (container : Bytes) (manifest : Manifest P)
    (masterSecret : Arg Bytes) (epochId : Arg Int) (userContext : Bytes) (H : StreamFields) :
    (remaining i : Nat) → SegmentLoop → Py SegmentLoop
  | 0, _, s => pure s
  | remaining + 1, i, s =>
    if s.off + SEG_FRAME_size > container.length then
      .fail (.malformedEnvelope "stream truncated: missing a segment length prefix")
    else
      let envLen := beNat (slice container s.off (s.off + SEG_FRAME_size))
      let off := s.off + SEG_FRAME_size
      if envLen > container.length - off then
        .fail (.malformedEnvelope "stream truncated: segment shorter than declared")
      else do
        let env := slice container off (off + envLen)
        let off := off + envLen
        let segCtx ← H.segContext userContext i
        let segment ← unsealStateWith P derive (.of (.bytes env)) (.of manifest) masterSecret
          epochId (.of segCtx)
        unsealSegmentsWith derive container manifest masterSecret epochId userContext H
          remaining (i + 1)
          { off := off, parts := s.parts ++ [segment], assembled := s.assembled + segment.length }

/-- The end of `unseal_state_chunked`. -/
def finishStream (container : Bytes) (H : StreamFields) (s : SegmentLoop) :
    Except PyExc Bytes :=
  if s.off ≠ container.length then
    .error (.malformedEnvelope "trailing bytes after the declared segments")
  else if s.assembled ≠ H.totalLen then .error mismatch
  else .ok s.parts.flatten

/-- `unseal_state_chunked`, over an arbitrary key derivation. -/
def unsealStateChunkedWith (derive : Deriver) (container : Arg Carrier)
    (manifest : Arg (Manifest P)) (masterSecret : Arg Bytes) (epochId : Arg Int := .of 0)
    (context : Arg Bytes := .of []) : Py Bytes := do
  let manifest ← requireManifest P manifest
  let userContext ← requireContext context
  let container ← requireEnvelopeBytes "stream container" container
  let H ← parseStreamHeader container
  checkStreamHeader container H
  let s ← unsealSegmentsWith P derive container manifest masterSecret epochId userContext H
    H.numSegments 0 { off := STREAM_HEADER_size, parts := [], assembled := 0 }
  finishStream container H s

/-- `unseal_state_chunked` -/
def unsealStateChunked (container : Arg Carrier) (manifest : Arg (Manifest P))
    (masterSecret : Arg Bytes) (epochId : Arg Int := .of 0) (context : Arg Bytes := .of []) :
    Py Bytes :=
  unsealStateChunkedWith P (deriveKeyMaterial P) container manifest masterSecret epochId context

end Sce
