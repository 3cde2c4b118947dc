/-
# The two manifest encoders agree

`canonicalManifest` of the script against `ModelManifest.canonical_bytes`.  The script lists the
keys of `extra` in the engine's order, which puts keys that look like integers first, sorts the
bare keys with a byte comparator, and looks the values up; Python sorts the entries by the bytes
of their keys.  With distinct keys after NFC the sorted order is unique, so the order of the
listing does not matter, and the value found under a key is the one beside it.
-/
import Sce.Javascript
import Sce.ManifestIdentity

namespace Sce.Js

open BigEndian FiniteMap

variable {P : Platform} {R : Runtime}

/-! ## 1. The encoder -/

/-- `MANIFEST_TAG = Buffer.from("SCEMAN1")` -/
def MANIFEST_TAG : Bytes := [0x53, 0x43, 0x45, 0x4d, 0x41, 0x4e, 0x31]

/-- `CORE_FIELDS` -/
def CORE_FIELDS : List CoreField :=
  [.weightsHash, .quantization, .kernelBuildId, .tensorParallel, .numericsMode]

/-- A manifest as the vectors carry it; `none` is an `extra` that is missing. -/
structure JsManifest where
  weightsHash : JsStr
  quantization : JsStr
  kernelBuildId : JsStr
  tensorParallel : JsStr
  numericsMode : JsStr
  extra : Option JsObject

/-- `m[f]` -/
def JsManifest.field (m : JsManifest) : CoreField → JsStr
  | .weightsHash => m.weightsHash
  | .quantization => m.quantization
  | .kernelBuildId => m.kernelBuildId
  | .tensorParallel => m.tensorParallel
  | .numericsMode => m.numericsMode

section Encoding

variable (R : Runtime)

/-- `encStr` -/
def encStr (s : JsStr) : Bytes :=
  let b := bufferFrom (R.normalize s)
  u32be b.length ++ b

/-- The loop over the sorted keys. -/
def encEntries (extra : JsObject) : List JsStr → Except JsError Bytes
  | [] => .ok []
  | k :: ks => do
    let v ← getProperty extra k
    let rest ← encEntries extra ks
    return encStr R k ++ encStr R v ++ rest

/-- `canonicalManifest` -/
def canonicalManifest (m : JsManifest) : Except JsError Bytes := do
  let core := CORE_FIELDS.flatMap fun f => encStr R (m.field f)
  let extra := m.extra.getD []
  let keys := sortWith (fun a b => bufferCompare (bufferFrom (R.normalize a))
    (bufferFrom (R.normalize b))) (objectKeys extra)
  let entries ← encEntries R extra keys
  return MANIFEST_TAG ++ core ++ u32be keys.length ++ entries

end Encoding

/-- An entry with both strings in UTF-16. -/
def utf16Pair (kv : PyStr × PyStr) : JsStr × JsStr := (utf16 kv.1, utf16 kv.2)

/-- **The object with the same fields and the same own keys**, listed in any order. -/
structure JsManifest.Mirrors (j : JsManifest) (m : ManifestFields) : Prop where
  core : ∀ f, j.field f = utf16 (m.getattr f)
  extra : (j.extra.getD []).Perm (m.extra.map utf16Pair)

/-! ## 2. Strings -/

theorem bufferFrom_normalize (h : R.SameNfc P) {s : PyStr} (hs : ∀ c ∈ P.nfc s, ¬ Surrogate c) :
    bufferFrom (R.normalize (utf16 s)) = utf8 (P.nfc s) := by
  rw [h.normalize s ((h.surrogates s).mp hs), bufferFrom_utf16 hs]

/-- **One string is encoded alike.** -/
theorem encStr_utf16 (h : R.SameNfc P) {s : PyStr} (hs : Encodable P s) :
    encStr R (utf16 s) = enc P s := by
  have hlen : (utf8 (P.nfc s)).length < 2 ^ 32 := by
    have h4 := lt_of_le_MAX_LP_FIELD hs.2
    norm_num at h4 ⊢
    exact h4
  rw [encStr, bufferFrom_normalize h hs.1, u32be_of_lt hlen]
  rfl

/-! ## 3. Entries -/

/-- The loop over keys whose values are those beside them. -/
theorem encEntries_eq {extra kvs : JsObject} (h : ∀ kv ∈ kvs, extra.lookup kv.1 = some kv.2) :
    encEntries R extra (kvs.map Prod.fst)
      = .ok (kvs.flatMap fun kv => encStr R kv.1 ++ encStr R kv.2) := by
  induction kvs with
  | nil => rfl
  | cons kv kvs ih =>
    obtain ⟨hkv, hkvs⟩ := List.forall_mem_cons.mp h
    have hget : getProperty extra kv.1 = .ok kv.2 := by rw [getProperty, hkv]
    rw [List.map_cons, encEntries, hget, ih hkvs]
    rfl

/-- The key the script sorts an entry by. -/
def sortKey (R : Runtime) (p : JsStr × JsStr) : Bytes := bufferFrom (R.normalize p.1)

theorem sortKey_utf16Pair (h : R.SameNfc P) (M : Manifest P) {kv : PyStr × PyStr}
    (hkv : kv ∈ M.extra) : sortKey R (utf16Pair kv) = utf8 (P.nfc kv.1) :=
  bufferFrom_normalize h (M.hasCanonical.entries kv hkv).1.1

/-- **The sort keys tell the entries apart**, by the collision check of the constructor. -/
theorem sortKey_inj (h : R.SameNfc P) (M : Manifest P) :
    ∀ a ∈ M.extra.map utf16Pair, ∀ b ∈ M.extra.map utf16Pair,
      sortKey R a = sortKey R b → a = b := by
  intro a ha b hb hkey
  obtain ⟨kv, hkv, rfl⟩ := List.mem_map.mp ha
  obtain ⟨kv', hkv', rfl⟩ := List.mem_map.mp hb
  rw [sortKey_utf16Pair h M hkv, sortKey_utf16Pair h M hkv'] at hkey
  rw [List.inj_on_of_nodup_map M.nfcKeys_nodup hkv hkv' (utf8_inj hkey)]

/-- The own keys are distinct. -/
theorem keys_nodup (h : R.SameNfc P) (M : Manifest P) :
    ((M.extra.map utf16Pair).map Prod.fst).Nodup := by
  refine List.Nodup.of_map (fun k => bufferFrom (R.normalize k)) ?_
  have hkeys : ((M.extra.map utf16Pair).map Prod.fst).map (fun k => bufferFrom (R.normalize k))
      = (M.extra.map fun kv => P.nfc kv.1).map utf8 := by
    rw [List.map_map, List.map_map, List.map_map]
    exact List.map_congr_left fun kv hkv => sortKey_utf16Pair h M hkv
  rw [hkeys]
  exact M.nfcKeys_nodup.map fun _ _ => utf8_inj

/-- **Whatever order the keys are listed in, the sorted entries are Python's.** -/
theorem sorted_entries (h : R.SameNfc P) (M : Manifest P) {extra : JsObject}
    (hextra : extra.Perm (M.extra.map utf16Pair)) :
    sortBy (sortKey R) extra
      = (sortBy (fun kv => utf8 (P.nfc kv.1)) M.extra).map utf16Pair := by
  have hperm : sortBy (sortKey R) (M.extra.map utf16Pair) = sortBy (sortKey R) extra :=
    (sort_eq_iff_perm (sortKey_inj h M)).mpr hextra.symm
  rw [← hperm]
  refine (List.map_insertionSort _ _ utf16Pair M.extra fun a ha b hb => ?_).symm
  rw [sortKey_utf16Pair h M ha, sortKey_utf16Pair h M hb]

/-! ## 4. The manifest -/

namespace JsManifest.Mirrors

variable {M : Manifest P} {j : JsManifest} (hj : j.Mirrors M.toManifestFields)
  (h : R.SameNfc P)

include hj h

/-- The core fields are encoded alike. -/
theorem encCore : (CORE_FIELDS.flatMap fun f => encStr R (j.field f))
    = CoreField.all.flatMap fun f => enc P (M.getattr f) := by
  refine List.flatMap_congr fun f _ => ?_
  rw [hj.core f, encStr_utf16 h (M.hasCanonical.core f)]

/-- A value is found under its key. -/
theorem lookup_extra : ∀ kv ∈ sortBy (sortKey R) (j.extra.getD []),
    (j.extra.getD []).lookup kv.1 = some kv.2 := by
  intro kv hkv
  have hnodup := ((hj.extra.map Prod.fst).nodup_iff).mpr (keys_nodup h M)
  exact (lookup_eq_some_iff hnodup).mpr ((sortBy_perm _ _).mem_iff.mp hkv)

/-- The sorted entries are encoded alike. -/
theorem encExtra : ((sortBy (sortKey R) (j.extra.getD [])).flatMap
      fun kv => encStr R kv.1 ++ encStr R kv.2)
    = (sortBy (fun kv => utf8 (P.nfc kv.1)) M.extra).flatMap
      fun kv => enc P kv.1 ++ enc P kv.2 := by
  rw [sorted_entries h M hj.extra, List.flatMap_map]
  refine List.flatMap_congr fun kv hkv => ?_
  obtain ⟨hk, hv⟩ := M.hasCanonical.entries kv ((sortBy_perm _ _).mem_iff.mp hkv)
  rw [utf16Pair, encStr_utf16 h hk, encStr_utf16 h hv]

/-- **The script encodes the object of an accepted manifest to its canonical bytes.** -/
theorem encodes : canonicalManifest R j = .ok M.canonical := by
  have hkeys : sortWith (fun a b => bufferCompare (bufferFrom (R.normalize a))
      (bufferFrom (R.normalize b))) (objectKeys (j.extra.getD []))
      = (sortBy (sortKey R) (j.extra.getD [])).map Prod.fst := by
    rw [sortWith_bufferCompare fun k => bufferFrom (R.normalize k), objectKeys, ← map_sortBy]
    rfl
  have hcount : ((sortBy (sortKey R) (j.extra.getD [])).map Prod.fst).length
      = M.extra.length := by
    rw [List.length_map, (sortBy_perm _ _).length_eq, hj.extra.length_eq, List.length_map]
  rw [canonicalManifest, hkeys, encEntries_eq (hj.lookup_extra h), hj.encExtra h, hcount,
    u32be_of_lt M.hasCanonical.count, hj.encCore h, M.canonical_eq_form, canonicalForm_eq]
  rfl

end JsManifest.Mirrors

/-- **The two encoders agree.**  For every manifest the constructor accepts, the script returns
the bytes `canonical_bytes` returns. -/
theorem canonicalManifest_eq (h : R.SameNfc P) (M : Manifest P) {j : JsManifest}
    (hj : j.Mirrors M.toManifestFields) :
    ∃ b, M.canonicalBytes P = .ok b ∧ canonicalManifest R j = .ok b :=
  ⟨M.canonical, M.canonicalBytes_eq, hj.encodes h⟩

/-! ## 5. A runtime for the toy platform -/

/-- Composition neither makes a surrogate nor takes one away. -/
theorem toyNfc_surrogates (s : PyStr) :
    (∀ c ∈ toyNfc s, ¬ Surrogate c) ↔ ∀ c ∈ s, ¬ Surrogate c := by
  induction s using toyNfc.induct with
  | case1 => rfl
  | case2 c => rfl
  | case3 c d s h ih =>
    obtain ⟨rfl, rfl⟩ := h
    have hletters : ¬ Surrogate 0x65 ∧ ¬ Surrogate 0x301 ∧ ¬ Surrogate 0xE9 := by decide
    simp [toyNfc, hletters, ih]
  | case4 c d s h ih =>
    rw [toyNfc, if_neg h, List.forall_mem_cons, ih]
    exact (List.forall_mem_cons (p := fun c => ¬ Surrogate c)).symm

/-- The same functions in the other runtime. -/
def toyRuntime : Runtime where
  normalize u := utf16 (toyNfc (Utf16.decode u))
  sha3_256 := toy.sha3_256
  hkdfSync ikm salt info length := toy.hkdf length salt info ikm

theorem toyRuntime_sameNfc : toyRuntime.SameNfc toy where
  normalize s hs := by
    exact congrArg (fun t => utf16 (toyNfc t)) (Utf16.decode_encode hs)
  surrogates := toyNfc_surrogates

/-- Two keys that look like integers and one that does not, the last inserted first. -/
def toyNumbered : Manifest toy :=
  .ofFields { toyFields with
      extra := [([0x62], [0x78]), ([0x31, 0x30], [0x79]), ([0x32], [0x65, 0x301])] } (by decide)
    { core := fun f => by cases f <;> decide +kernel
      entries := by decide +kernel
      count := by decide +kernel }

/-- The object an engine makes of it: the integers first and ascending. -/
def toyNumberedObject : JsManifest where
  weightsHash := [0x77, 0x65, 0x301]
  quantization := [0x66, 0x70, 0x38]
  kernelBuildId := [0x6b]
  tensorParallel := []
  numericsMode := [0x6e]
  extra := some [([0x32], [0x65, 0x301]), ([0x31, 0x30], [0x79]), ([0x62], [0x78])]

/-- Both encoders on it. -/
theorem toyNumbered_canonicalManifest :
    ∃ b, toyNumbered.canonicalBytes toy = .ok b ∧
      canonicalManifest toyRuntime toyNumberedObject = .ok b :=
  canonicalManifest_eq toyRuntime_sameNfc toyNumbered
    ⟨fun f => by cases f <;> decide +kernel, by decide +kernel⟩

end Sce.Js
