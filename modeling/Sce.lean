import Sce.StreamErrors
import Sce.StreamCanonical
import Sce.DomainSeparation
import Sce.KeyUse
import Sce.KdfInput
import Sce.Inspect
import Sce.EnvelopeErrors
import Sce.Carriers
import Sce.StreamReads
import Sce.StreamExact
import Sce.Lib.Raises
import Sce.Raises
import Sce.StreamRaises
import Sce.AadBinding
import Sce.Lib.Template
import Sce.Shape
import Sce.ManifestRaises
import Sce.Javascript
import Sce.JsManifest
import Sce.JsVector
import Sce.Lib.Base64
import Sce.Lib.Machine
import Sce.Serving
import Sce.ServingSpec
import Sce.Vault
import Sce.Conversation
import Sce.AllOrNothing
import Sce.Announced
import Sce.AttackSim
import Sce.Fuzz
import Sce.JsVerify
import Sce.PrefixFree
import Sce.Turns
