/-
# Inspection without a key

`describe_envelope`, `explain_mismatch` and `describe_stream`: what anybody can read off an
envelope or a container.  All three start with the structural parse of the module they belong
to, so what they accept is what the unsealing entry points do not call malformed.

The descriptions end with `len(...)` of the argument as it was passed, not of the bytes it was
normalised to.
-/
import Sce.Stream

namespace Sce

open BigEndian

/-! ## 1. Envelopes -/

/-- `len(...)` of an argument. -/
def argLen : Arg Carrier → Except PyExc Nat
  | .of x => x.len
  | .other _ => .error .typeError

/-- The magic among the fields `_parse` unpacks. -/
def Parsed.magic (p : Parsed) : Bytes := slice p.headerPrefix 0 4

/-- The version among them. -/
def Parsed.version (p : Parsed) : Nat := beNat (slice p.headerPrefix 4 5)

/-- What `describe_envelope` returns. -/
structure EnvelopeDescription where
  magic : String
  version : Nat
  ciphertextBytes : Nat
  totalEnvelopeBytes : Nat
  deriving DecidableEq, Repr

/-- `describe_envelope` -/
def describeEnvelope (sealed : Arg Carrier) : Except PyExc EnvelopeDescription := do
  let p ← parse sealed
  let totalEnvelopeBytes ← argLen sealed
  return {
    magic := decodeAscii p.magic
    version := p.version
    ciphertextBytes := p.ciphertext.length
    totalEnvelopeBytes := totalEnvelopeBytes }

/-- What `explain_mismatch` says of an envelope that parses. -/
def refusalNote (memhPresent : Bytes) : String :=
  "refused under the presented environment (MEMH "
    ++ String.ofList (((hexCodes memhPresent).take 16).map Char.ofNat)
    ++ "...). SCE v4 does not record the sealing "
    ++ "environment/epoch/context in the envelope -- by design, to keep envelopes "
    ++ "unlinkable -- so the specific cause cannot be recovered from the bytes. "
    ++ "Verify the manifest, epoch, context, and master secret against the "
    ++ "sealing side out of band."

/-- `explain_mismatch` -/
def explainMismatch (P : Platform) (sealed : Arg Carrier) (manifest : Arg (Manifest P)) :
    Except PyExc String := do
  let manifest ← requireManifest P manifest
  match parse sealed with
  | .error (.malformedEnvelope message) => return "not a valid SCE envelope: " ++ message
  | .error e => .error e
  | .ok _ =>
    let memhPresent := manifest.memh
    return refusalNote memhPresent

/-! ## 2. Containers -/

/-- What `describe_stream` returns. -/
structure StreamDescription where
  magic : String
  version : Nat
  numSegments : Nat
  segmentSize : Nat
  totalPlaintextBytes : Nat
  totalContainerBytes : Nat
  deriving DecidableEq, Repr

/-- `describe_stream` -/
def describeStream (container : Arg Carrier) : Except PyExc StreamDescription := do
  let bytes ← requireEnvelopeBytes "stream container" container
  let H ← parseStreamHeader bytes
  let totalContainerBytes ← argLen container
  return {
    magic := decodeAscii STREAM_MAGIC
    version := STREAM_VERSION
    numSegments := H.numSegments
    segmentSize := H.segmentSize
    totalPlaintextBytes := H.totalLen
    totalContainerBytes := totalContainerBytes }

end Sce
