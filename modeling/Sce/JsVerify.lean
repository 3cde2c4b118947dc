/-
# What the exit status of the script says

`main` of `tools/verify_vectors.js`: over the cases of a file, compare each published value with
the one computed from the published inputs, count the cases that agree, and exit with 0 when none
failed.  The status is about the file, and the theorems here say what.

* `PublishedCase` is a case as a file carries it: an admissible manifest and vector, and whatever
  hexadecimal text stands beside them.  `PublishedCase.Holds n` says that the text is what the
  functions of `core.py` give at the epoch `n`.
* `main_verdict`: the script throws a `RangeError` exactly if some epoch is rounded up to `2 ^ 64`,
  exits with 0 exactly if every case holds at its rounded epoch, and with 1 otherwise.
* `main_published`: so a file of right values passes exactly if doubles hold its epochs.
-/
import Sce.JsVector

namespace Sce.Js

open BigEndian FiniteMap

variable {P : Platform} {R : Runtime}

/-! ## 1. The script -/

/-- A case, as `JSON.parse` returns it. -/
structure VectorCase extends CaseInput where
  manifest : JsManifest
  canonicalManifestHex : JsStr
  memhSha3_256Hex : JsStr
  kEncHex : JsStr
  keyCommitmentHex : JsStr
  aadHex : Option JsStr

/-- The fields of the file that `main` reads. -/
structure Vectors where
  envelopeMagic : JsStr
  cases : List VectorCase

/-- The names of the checks. -/
inductive Check
  | canonical
  | MEMH
  | kEnc
  | commitment
  | AAD
  deriving DecidableEq

section Script

variable (R : Runtime)

/-- `memh` -/
def memh (m : JsManifest) : Except JsError Bytes := do
  let canon ← canonicalManifest R m
  return R.sha3_256 canon

/-- The checks of one case.  The last is made if `aad_hex` is there and not empty. -/
def caseChecks (envelopeMagic : JsStr) (c : VectorCase) : Except JsError (List (Check × Bool)) := do
  let canon ← canonicalManifest R c.manifest
  let mh ← memh R c.manifest
  let material ← deriveKeyMaterial R c.masterSecretHex mh c.epochId c.contextUtf8 c.saltHex
  let checks :=
    [(Check.canonical, hexStr canon == c.canonicalManifestHex),
      (Check.MEMH, hexStr mh == c.memhSha3_256Hex),
      (Check.kEnc, hexStr material.kEnc == c.kEncHex),
      (Check.commitment, hexStr material.commitment == c.keyCommitmentHex)]
  match c.aadHex with
  | none => return checks
  | some aadHex =>
    if aadHex.isEmpty then
      return checks
    else
      let data ← caseAad envelopeMagic c.toCaseInput mh material.commitment
      return checks ++ [(Check.AAD, hexStr data == aadHex)]

/-- `pass` and `fail` -/
structure Tally where
  pass : Nat
  fail : Nat

/-- The loop over the cases. -/
def verifyCases (envelopeMagic : JsStr) : List VectorCase → Tally → Except JsError Tally
  | [], tally => .ok tally
  | c :: cs, tally => do
    let checks ← caseChecks R envelopeMagic c
    let ok := checks.all fun check => check.2
    if ok then verifyCases envelopeMagic cs { tally with pass := tally.pass + 1 }
    else verifyCases envelopeMagic cs { tally with fail := tally.fail + 1 }

/-- `main`: the exit status. -/
def main (vectors : Vectors) : Except JsError Nat := do
  let tally ← verifyCases R vectors.envelopeMagic vectors.cases { pass := 0, fail := 0 }
  return if tally.fail = 0 then 0 else 1

end Script

/-- **What the checks of a case ask**, once its values are computed. -/
theorem caseChecks_eq {envelopeMagic : JsStr} {c : VectorCase} {canon mh data : Bytes}
    {material : KeyMaterial} (hcanon : canonicalManifest R c.manifest = .ok canon)
    (hmemh : memh R c.manifest = .ok mh)
    (hmaterial : deriveKeyMaterial R c.masterSecretHex mh c.epochId c.contextUtf8 c.saltHex
      = .ok material)
    (hdata : caseAad envelopeMagic c.toCaseInput mh material.commitment = .ok data) :
    ∃ checks, caseChecks R envelopeMagic c = .ok checks ∧
      ((checks.all fun check => check.2) = true ↔
        hexStr canon = c.canonicalManifestHex ∧ hexStr mh = c.memhSha3_256Hex ∧
          hexStr material.kEnc = c.kEncHex ∧ hexStr material.commitment = c.keyCommitmentHex ∧
          ∀ text, c.aadHex = some text → text ≠ [] → hexStr data = text) := by
  unfold caseChecks
  rw [hcanon, hmemh]
  simp only [bind, Except.bind, hmaterial, hdata]
  cases haad : c.aadHex with
  | none => exact ⟨_, rfl, by simp⟩
  | some text =>
    cases text with
    | nil => exact ⟨_, rfl, by simp⟩
    | cons u text => exact ⟨_, rfl, by simp⟩

section Loop

variable {α : Type} {read : α → VectorCase} {envelopeMagic : JsStr}

/-- The loop counts the cases whose checks do not all hold. -/
theorem verifyCases_of_ok {cs : List α} {good : α → Prop}
    (h : ∀ c ∈ cs, ∃ checks, caseChecks R envelopeMagic (read c) = .ok checks ∧
      ((checks.all fun check => check.2) = true ↔ good c)) (tally : Tally) :
    ∃ tally', verifyCases R envelopeMagic (cs.map read) tally = .ok tally' ∧
      (tally'.fail = 0 ↔ tally.fail = 0 ∧ ∀ c ∈ cs, good c) := by
  induction cs generalizing tally with
  | nil => exact ⟨tally, rfl, by simp⟩
  | cons c cs ih =>
    obtain ⟨⟨checks, hchecks, hgood⟩, hrest⟩ := List.forall_mem_cons.mp h
    simp only [List.map_cons, verifyCases, hchecks, bind, Except.bind]
    by_cases hall : (checks.all fun check => check.2) = true
    · obtain ⟨tally', hrun, hfail⟩ := ih hrest { tally with pass := tally.pass + 1 }
      rw [if_pos hall]
      exact ⟨tally', hrun, by simp [hfail, hgood.mp hall]⟩
    · obtain ⟨tally', hrun, hfail⟩ := ih hrest { tally with fail := tally.fail + 1 }
      have hbad : ¬ good c := fun hc => hall (hgood.mpr hc)
      rw [if_neg hall]
      exact ⟨tally', hrun, by simp [hfail, hbad]⟩

/-- A case whose checks throw ends the loop. -/
theorem verifyCases_of_error {e : JsError} {cs : List α}
    (h : ∀ c ∈ cs, caseChecks R envelopeMagic (read c) = .error e ∨
      ∃ checks, caseChecks R envelopeMagic (read c) = .ok checks)
    (hstop : ∃ c ∈ cs, caseChecks R envelopeMagic (read c) = .error e) (tally : Tally) :
    verifyCases R envelopeMagic (cs.map read) tally = .error e := by
  induction cs generalizing tally with
  | nil => exact absurd hstop (by simp)
  | cons c cs ih =>
    obtain ⟨hfirst, hrest⟩ := List.forall_mem_cons.mp h
    rcases hfirst with hthrow | ⟨checks, hchecks⟩
    · rw [List.map_cons, verifyCases, hthrow]
      rfl
    · have hlater : ∃ c ∈ cs, caseChecks R envelopeMagic (read c) = .error e := by
        obtain ⟨c', hc', hthrow⟩ := hstop
        rcases List.mem_cons.mp hc' with rfl | hc'
        · exact absurd (hchecks.symm.trans hthrow) (by simp)
        · exact ⟨c', hc', hthrow⟩
      simp only [List.map_cons, verifyCases, hchecks, bind, Except.bind]
      split
      · exact ih hrest hlater _
      · exact ih hrest hlater _

end Loop

/-! ## 2. Published cases -/

theorem hexStr_inj {b b' : Bytes} (h : hexStr b = hexStr b') : b = b' := by
  rw [← bufferFromHex_hexStr b, h, bufferFromHex_hexStr]

/-- The same vector at another epoch. -/
def TestVector.withEpoch (v : TestVector) (n : Nat) (h : n < 2 ^ 64) : TestVector :=
  { v with epochId := n, epochId_lt := h }

/-- **A case of a file**: inputs that are admissible, and text that need not be right. -/
structure PublishedCase (P : Platform) where
  manifest : Manifest P
  object : JsManifest
  mirrors : object.Mirrors manifest.toManifestFields
  vector : TestVector
  memh_eq : vector.memh = manifest.memh
  canonicalManifestHex : JsStr
  memhSha3_256Hex : JsStr
  kEncHex : JsStr
  keyCommitmentHex : JsStr
  aadHex : Option JsStr

namespace PublishedCase

/-- What the script reads. -/
def read (c : PublishedCase P) : VectorCase where
  toCaseInput := c.vector.read
  manifest := c.object
  canonicalManifestHex := c.canonicalManifestHex
  memhSha3_256Hex := c.memhSha3_256Hex
  kEncHex := c.kEncHex
  keyCommitmentHex := c.keyCommitmentHex
  aadHex := c.aadHex

/-- **The values are those of `core.py`** for an epoch; an absent `aad_hex` says nothing. -/
structure Holds (c : PublishedCase P) (n : Nat) : Prop where
  epoch_lt : n < 2 ^ 64
  canonical : ∃ b, c.manifest.canonicalBytes P = .ok b ∧ hexStr b = c.canonicalManifestHex
  memh : hexStr c.manifest.memh = c.memhSha3_256Hex
  derived : ∃ info kEnc commitment data,
    (c.vector.withEpoch n epoch_lt).Expected P info kEnc commitment data ∧
      hexStr kEnc = c.kEncHex ∧ hexStr commitment = c.keyCommitmentHex ∧
      ∀ text, c.aadHex = some text → text ≠ [] → hexStr data = text

/-- In closed form. -/
theorem holds_iff {c : PublishedCase P} {n : Nat} (h : n < 2 ^ 64) :
    c.Holds n ↔ hexStr c.manifest.canonical = c.canonicalManifestHex ∧
      hexStr c.manifest.memh = c.memhSha3_256Hex ∧
      hexStr ((c.vector.withEpoch n h).binding.kEnc P c.vector.salt) = c.kEncHex ∧
      hexStr ((c.vector.withEpoch n h).binding.commitment P c.vector.salt)
        = c.keyCommitmentHex ∧
      ∀ text, c.aadHex = some text → text ≠ [] → hexStr ((c.vector.withEpoch n h).binding.aadBytes
        (headerBytes c.vector.toDraw
          ((c.vector.withEpoch n h).binding.commitment P c.vector.salt))) = text := by
  constructor
  · rintro ⟨_, ⟨b, hb, hcanonical⟩, hmemh, info, kEnc, commitment, data, hexpected, hkEnc,
      hcommitment, haad⟩
    obtain rfl := Except.ok.inj (hb.symm.trans c.manifest.canonicalBytes_eq)
    obtain ⟨-, rfl, rfl, rfl⟩ := hexpected.unique _ (TestVector.expected _ P)
    exact ⟨hcanonical, hmemh, hkEnc, hcommitment, haad⟩
  · rintro ⟨hcanonical, hmemh, hkEnc, hcommitment, haad⟩
    exact ⟨h, ⟨_, c.manifest.canonicalBytes_eq, hcanonical⟩, hmemh, _, _, _, _,
      TestVector.expected _ P, hkEnc, hcommitment, haad⟩

/-- A case all of whose values are computed from its inputs. -/
def honest (M : Manifest P) {j : JsManifest} (hj : j.Mirrors M.toManifestFields) (v : TestVector)
    (hv : v.memh = M.memh) : PublishedCase P where
  manifest := M
  object := j
  mirrors := hj
  vector := v
  memh_eq := hv
  canonicalManifestHex := hexStr M.canonical
  memhSha3_256Hex := hexStr M.memh
  kEncHex := hexStr (v.binding.kEnc P v.salt)
  keyCommitmentHex := hexStr (v.binding.commitment P v.salt)
  aadHex := some (hexStr (v.binding.aadBytes
    (headerBytes v.toDraw (v.binding.commitment P v.salt))))

theorem honest_holds (M : Manifest P) {j : JsManifest} (hj : j.Mirrors M.toManifestFields)
    (v : TestVector) (hv : v.memh = M.memh) : (honest M hj v hv).Holds v.epochId := by
  refine (holds_iff v.epochId_lt).mpr ⟨rfl, rfl, rfl, rfl, ?_⟩
  rintro text htext -
  exact Option.some.inj htext

/-! ## 3. The manifest of a case -/

/-- The script hashes the manifest of a case as `core.py` does. -/
theorem memh_mirrors (h : R.SameNfc P) (hhash : R.SameHashes P) (c : PublishedCase P) :
    Js.memh R c.object = .ok c.manifest.memh := by
  rw [Js.memh, c.mirrors.encodes h, c.manifest.memh_eq, ← hhash.sha3_256]
  rfl

/-! ## 4. One case -/

/-- The epoch the script works with. -/
def rounded (c : PublishedCase P) : Nat := Binary64.nearest c.vector.epochId

/-- Rounding twice is rounding once. -/
theorem read_withEpoch (c : PublishedCase P) (h : c.rounded < 2 ^ 64) :
    (c.vector.withEpoch c.rounded h).read = c.vector.read := by
  have hepoch : parseInteger c.rounded = parseInteger c.vector.epochId :=
    Subtype.ext (Binary64.nearest_eq_iff.mpr (Binary64.representable_nearest _))
  simp only [TestVector.read, TestVector.withEpoch, hepoch]

/-- A rounded epoch is written as it is. -/
theorem u64be_rounded (c : PublishedCase P) (h : c.rounded < 2 ^ 64) :
    u64be (c.vector.withEpoch c.rounded h).read.epochId = .ok (beBytes 8 c.rounded) :=
  (u64be_parseInteger_iff h).mpr (Binary64.representable_nearest _)

/-- **An epoch rounded up to `2 ^ 64` stops the script.** -/
theorem caseChecks_of_ge (h : R.SameNfc P) (hhash : R.SameHashes P) (c : PublishedCase P)
    (hge : 2 ^ 64 ≤ c.rounded) :
    caseChecks R envelopeMagic c.read = .error .rangeError := by
  have hepoch : u64be c.read.epochId = .error .rangeError := if_neg (not_lt.mpr hge)
  have hcanonical : canonicalManifest R c.read.manifest = .ok c.manifest.canonical :=
    c.mirrors.encodes h
  have hmemh : Js.memh R c.read.manifest = .ok c.manifest.memh := c.memh_mirrors h hhash
  rw [caseChecks, hcanonical, hmemh]
  simp only [deriveKeyMaterial, kdfInfo, hepoch]
  rfl

/-- **Any other case is checked at the rounded epoch.** -/
theorem caseChecks_of_lt (h : R.SameNfc P) (hhash : R.SameHashes P) (c : PublishedCase P)
    (hlt : c.rounded < 2 ^ 64) :
    ∃ checks, caseChecks R envelopeMagic c.read = .ok checks ∧
      ((checks.all fun check => check.2) = true ↔ c.Holds c.rounded) := by
  have hcanonical : canonicalManifest R c.read.manifest = .ok c.manifest.canonical :=
    c.mirrors.encodes h
  have hmemh : Js.memh R c.read.manifest = .ok c.manifest.memh := c.memh_mirrors h hhash
  have hepoch := c.u64be_rounded hlt
  have hmaterial := TestVector.deriveKeyMaterial_read _ hhash hepoch
  have haad := (TestVector.caseAad_read _
    ((c.vector.withEpoch c.rounded hlt).binding.commitment_length P c.vector.salt)).mpr
      ⟨_, hepoch, rfl⟩
  rw [c.read_withEpoch hlt] at hmaterial haad
  have hmaterial : deriveKeyMaterial R c.read.masterSecretHex c.manifest.memh c.read.epochId
      c.read.contextUtf8 c.read.saltHex = _ := c.memh_eq ▸ hmaterial
  have haad : caseAad envelopeMagic c.read.toCaseInput c.manifest.memh
      ((c.vector.withEpoch c.rounded hlt).binding.commitment P c.vector.salt) = .ok
        ((c.vector.withEpoch c.rounded hlt).binding.aadBytes (headerBytes c.vector.toDraw
          ((c.vector.withEpoch c.rounded hlt).binding.commitment P c.vector.salt))) := by
    rw [← c.memh_eq]
    exact haad
  rw [holds_iff hlt]
  exact caseChecks_eq hcanonical hmemh hmaterial haad

end PublishedCase

/-- A vector at any epoch, with every value right. -/
def toyPublished (epochId : Nat) (h : epochId < 2 ^ 64) : PublishedCase toy :=
  .honest toyNumbered (j := toyNumberedObject)
    ⟨fun f => by cases f <;> decide +kernel, by decide +kernel⟩
    { toyVector epochId h with memh := toyNumbered.memh, memh_length := toyNumbered.memh_length }
    rfl

/-! ## 5. The verdict -/

open PublishedCase

/-- **What the script makes of a file.**  It throws exactly if an epoch is rounded up to `2 ^ 64`,
and exits with 0 exactly if every value is the one `core.py` gives for the rounded epoch. -/
theorem main_verdict (h : R.SameNfc P) (hhash : R.SameHashes P) (cs : List (PublishedCase P)) :
    (main R ⟨envelopeMagic, cs.map read⟩ = .error .rangeError ∧
        ∃ c ∈ cs, 2 ^ 64 ≤ c.rounded) ∨
      (main R ⟨envelopeMagic, cs.map read⟩ = .ok 0 ∧ ∀ c ∈ cs, c.Holds c.rounded) ∨
      (main R ⟨envelopeMagic, cs.map read⟩ = .ok 1 ∧ (∀ c ∈ cs, c.rounded < 2 ^ 64) ∧
        ∃ c ∈ cs, ¬ c.Holds c.rounded) := by
  by_cases hrange : ∃ c ∈ cs, 2 ^ 64 ≤ c.rounded
  · refine .inl ⟨?_, hrange⟩
    have hrun : verifyCases R envelopeMagic (cs.map read) { pass := 0, fail := 0 }
        = .error .rangeError := by
      refine verifyCases_of_error ?_ ?_ _
      · intro c _
        by_cases hlt : c.rounded < 2 ^ 64
        · obtain ⟨checks, hchecks, -⟩ := c.caseChecks_of_lt h hhash hlt
          exact .inr ⟨checks, hchecks⟩
        · exact .inl (c.caseChecks_of_ge h hhash (not_lt.mp hlt))
      · obtain ⟨c, hc, hge⟩ := hrange
        exact ⟨c, hc, c.caseChecks_of_ge h hhash hge⟩
    rw [main, hrun]
    rfl
  · have hlt : ∀ c ∈ cs, c.rounded < 2 ^ 64 := fun c hc =>
      not_le.mp fun hge => hrange ⟨c, hc, hge⟩
    obtain ⟨tally, hrun, hfail⟩ := verifyCases_of_ok
      (fun (c : PublishedCase P) hc => c.caseChecks_of_lt h hhash (hlt c hc))
      { pass := 0, fail := 0 }
    have hmain : main R ⟨envelopeMagic, cs.map read⟩ = .ok (if tally.fail = 0 then 0 else 1) := by
      rw [main, hrun]
      rfl
    by_cases hall : ∀ c ∈ cs, c.Holds c.rounded
    · refine .inr (.inl ⟨?_, hall⟩)
      rw [hmain, if_pos (hfail.mpr ⟨rfl, hall⟩)]
    · refine .inr (.inr ⟨?_, hlt, ?_⟩)
      · rw [hmain, if_neg fun hzero => hall (hfail.mp hzero).2]
      · simpa using hall

/-- The last epoch there is stops the script. -/
theorem toyPublished_verdict :
    main toyRuntime ⟨envelopeMagic, [toyPublished (2 ^ 64 - 1) (by decide)].map read⟩
      = .error .rangeError := by
  have hge : 2 ^ 64 ≤ (toyPublished (2 ^ 64 - 1) (by decide)).rounded := by decide
  rcases main_verdict toyRuntime_sameNfc toyRuntime_sameHashes
    [toyPublished (2 ^ 64 - 1) (by decide)] with ⟨hrun, -⟩ | ⟨-, hall⟩ | ⟨-, hlt, -⟩
  · exact hrun
  · exact absurd (hall _ List.mem_cons_self).epoch_lt (not_lt.mpr hge)
  · exact absurd (hlt _ List.mem_cons_self) (not_lt.mpr hge)

/-- The associated data tells epochs apart. -/
theorem PublishedCase.Holds.epoch_unique {c : PublishedCase P} {n n' : Nat} (h : c.Holds n)
    (h' : c.Holds n') {text : JsStr} (htext : c.aadHex = some text) (hne : text ≠ []) :
    n = n' := by
  obtain ⟨-, -, -, -, haad⟩ := (holds_iff h.epoch_lt).mp h
  obtain ⟨-, -, -, -, haad'⟩ := (holds_iff h'.epoch_lt).mp h'
  have hdata := hexStr_inj ((haad text htext hne).trans (haad' text htext hne).symm)
  have hlen : ∀ commitment commitment' : Bytes, (headerBytes c.vector.toDraw commitment).length
      = (headerBytes c.vector.toDraw commitment').length := by
    intro commitment commitment'
    rw [headerBytes_length, headerBytes_length]
  exact (aadBytes_inj (hlen _ _) hdata).2.2

/-- **A file of right values passes exactly if doubles hold its epochs**, each case publishing its
associated data. -/
theorem main_published (h : R.SameNfc P) (hhash : R.SameHashes P) {cs : List (PublishedCase P)}
    (hright : ∀ c ∈ cs, c.Holds c.vector.epochId)
    (haad : ∀ c ∈ cs, ∃ text, c.aadHex = some text ∧ text ≠ []) :
    main R ⟨envelopeMagic, cs.map read⟩ = .ok 0 ↔
      ∀ c ∈ cs, Binary64.Representable c.vector.epochId := by
  have hiff : (∀ c ∈ cs, c.Holds c.rounded) ↔
      ∀ c ∈ cs, Binary64.Representable c.vector.epochId := by
    refine forall₂_congr fun c hc => ?_
    rw [← Binary64.nearest_eq_iff]
    constructor
    · intro hrounded
      obtain ⟨text, htext, hne⟩ := haad c hc
      exact hrounded.epoch_unique (hright c hc) htext hne
    · intro hrounded
      have hholds := hright c hc
      rw [← hrounded] at hholds
      exact hholds
  rw [← hiff]
  rcases main_verdict h hhash cs with ⟨hrun, c, hc, hge⟩ | ⟨hrun, hall⟩ | ⟨hrun, -, c, hc, hnot⟩
  · rw [hrun]
    refine iff_of_false (by simp) fun hall => ?_
    exact absurd (hall c hc).epoch_lt (not_lt.mpr hge)
  · exact iff_of_true hrun hall
  · rw [hrun]
    exact iff_of_false (by simp) fun hall => hnot (hall c hc)

/-- An epoch beyond `2 ^ 53` that a double holds. -/
theorem toyPublished_passes :
    main toyRuntime ⟨envelopeMagic, [toyPublished (2 ^ 53 + 2) (by decide)].map read⟩
      = .ok 0 := by
  have hright : ∀ c ∈ [toyPublished (2 ^ 53 + 2) (by decide)], c.Holds c.vector.epochId := by
    intro c hc
    obtain rfl := List.mem_singleton.mp hc
    exact honest_holds _ _ _ _
  have haad : ∀ c ∈ [toyPublished (2 ^ 53 + 2) (by decide)],
      ∃ text, c.aadHex = some text ∧ text ≠ [] := by
    intro c hc
    obtain rfl := List.mem_singleton.mp hc
    exact ⟨_, rfl, by decide +kernel⟩
  rw [main_published toyRuntime_sameNfc toyRuntime_sameHashes hright haad]
  intro c hc
  obtain rfl := List.mem_singleton.mp hc
  decide

end Sce.Js
