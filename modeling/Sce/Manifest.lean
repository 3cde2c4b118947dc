/-
# The manifest and its canonical bytes

`ModelManifest` of `sce/core.py`: five strings and a mapping `extra`, validated and
fingerprinted once, at construction.

* `canonicalBytes` is the method of that name: a tag, the five fields length-prefixed in a
  fixed order, the number of extra entries, and the entries sorted by the UTF-8 bytes of the
  NFC form of their key.
* `Manifest` is the constructed object.  Its fields say what `__post_init__` has checked: no
  two keys of `extra` meet under NFC, the canonical bytes exist, the cached fingerprint is
  their hash.  So every value of this type is one the constructor accepts, which is
  `Manifest.construction_eq`.

`extra` is the list of its entries in insertion order.  A caller's mapping whose keys repeat
does not exist; the model would reject one like any other collision of keys.
-/
import Sce.Platform
import Sce.Lib.FiniteMap

namespace Sce

open BigEndian FiniteMap

/-! ## 1. Encoding the fields -/

/-- `_MANIFEST_TAG = b"SCEMAN1"` -/
def MANIFEST_TAG : Bytes := [0x53, 0x43, 0x45, 0x4d, 0x41, 0x4e, 0x31]

/-- `_MAX_LP_FIELD`: the longest field a 4-byte length prefix can carry. -/
def MAX_LP_FIELD : Nat := 2 ^ 32 - 1

theorem lt_of_le_MAX_LP_FIELD {n : Nat} (h : n ≤ MAX_LP_FIELD) : n < 256 ^ 4 := by
  simp only [MAX_LP_FIELD] at h
  omega

/-- The core fields, in the order they are encoded. -/
inductive CoreField
  | weightsHash
  | quantization
  | kernelBuildId
  | tensorParallel
  | numericsMode
  deriving DecidableEq

/-- The attribute name, which the error messages quote. -/
def CoreField.name : CoreField → String
  | .weightsHash => "weights_hash"
  | .quantization => "quantization"
  | .kernelBuildId => "kernel_build_id"
  | .tensorParallel => "tensor_parallel"
  | .numericsMode => "numerics_mode"

def CoreField.all : List CoreField :=
  [.weightsHash, .quantization, .kernelBuildId, .tensorParallel, .numericsMode]

theorem CoreField.mem_all (f : CoreField) : f ∈ CoreField.all := by cases f <;> decide

/-- The fields of a manifest before anything is known about them. -/
structure ManifestFields where
  weightsHash : PyStr
  quantization : PyStr
  kernelBuildId : PyStr
  tensorParallel : PyStr
  numericsMode : PyStr
  extra : List (PyStr × PyStr)

/-- `getattr(self, name)` -/
def ManifestFields.getattr (m : ManifestFields) : CoreField → PyStr
  | .weightsHash => m.weightsHash
  | .quantization => m.quantization
  | .kernelBuildId => m.kernelBuildId
  | .tensorParallel => m.tensorParallel
  | .numericsMode => m.numericsMode

section Encoding

variable (P : Platform)

/-- `_enc_str`: NFC, UTF-8, length prefix. -/
def encStr (label : String) : Arg PyStr → Except PyExc Bytes
  | .other typeName =>
    .error (.sceError ("manifest field '" ++ label ++ "' must be a str, got " ++ typeName))
  | .of value => do
    let b ← encodeUtf8 (P.nfc value)
    if b.length > MAX_LP_FIELD then
      .error (.sceError
        ("manifest field '" ++ label ++ "' exceeds the 4-byte length-prefix limit"))
    else do
      let n ← toBytes b.length 4
      return n ++ b

/-- The core fields, one after another. -/
def encCore (m : ManifestFields) : List CoreField → Except PyExc Bytes
  | [] => .ok []
  | f :: fs => do
    let b ← encStr P f.name (.of (m.getattr f))
    let rest ← encCore m fs
    return b ++ rest

/-- Each entry beside its sort key, as `sorted(..., key=...)` computes them. -/
def sortKeys : List (PyStr × PyStr) → Except PyExc (List (Bytes × (PyStr × PyStr)))
  | [] => .ok []
  | kv :: kvs => do
    let key ← encodeUtf8 (P.nfc kv.1)
    let rest ← sortKeys kvs
    return (key, kv) :: rest

/-- `sorted(self.extra.items(), key=...)`: a stable sort on the keys. -/
def sortedItems (extra : List (PyStr × PyStr)) : Except PyExc (List (PyStr × PyStr)) := do
  let keyed ← sortKeys P extra
  return (sortBy Prod.fst keyed).map Prod.snd

/-- The entries, key before value. -/
def encItems : List (PyStr × PyStr) → Except PyExc Bytes
  | [] => .ok []
  | (k, v) :: kvs => do
    let key ← encStr P "extra-key" (.of k)
    let value ← encStr P "extra-value" (.of v)
    let rest ← encItems kvs
    return key ++ value ++ rest

/-- `ModelManifest.canonical_bytes` -/
def ManifestFields.canonicalBytes (m : ManifestFields) : Except PyExc Bytes := do
  let core ← encCore P m CoreField.all
  let items ← sortedItems P m.extra
  let count ← toBytes items.length 4
  let entries ← encItems P items
  return MANIFEST_TAG ++ core ++ count ++ entries

/-! ## 2. Construction -/

/-- The scan for keys that meet under NFC.  `seen` is the set `seen_norm`. -/
def checkKeys : List PyStr → List PyStr → Except PyExc Unit
  | _, [] => .ok ()
  | seen, k :: ks =>
    if P.nfc k ∈ seen then
      .error (.sceError
        ("manifest 'extra' has keys that collide after NFC normalisation "
          ++ "(" ++ P.strRepr k ++ "); de-duplicate them before constructing the manifest so "
          ++ "the fingerprint stays unambiguous."))
    else checkKeys (P.nfc k :: seen) ks

theorem checkKeys_eq_ok {seen keys : List PyStr} :
    checkKeys P seen keys = .ok () ↔
      (keys.map P.nfc).Nodup ∧ ∀ k ∈ keys, P.nfc k ∉ seen := by
  induction keys generalizing seen with
  | nil => simp [checkKeys]
  | cons k ks ih =>
    unfold checkKeys
    split
    · rename_i h
      simp [h]
    · rename_i h
      rw [ih, List.map_cons, List.nodup_cons]
      constructor
      · rintro ⟨hnd, hks⟩
        refine ⟨⟨?_, hnd⟩, ?_⟩
        · intro hm
          obtain ⟨k', hk', he⟩ := List.mem_map.mp hm
          exact hks k' hk' (he ▸ List.mem_cons_self)
        · intro k' hk'
          rcases List.mem_cons.mp hk' with rfl | hk'
          · exact h
          · exact fun hm => hks k' hk' (List.mem_cons_of_mem _ hm)
      · rintro ⟨⟨hnot, hnd⟩, hks⟩
        refine ⟨hnd, fun k' hk' hm => ?_⟩
        rcases List.mem_cons.mp hm with he | hm
        · exact hnot (List.mem_map.mpr ⟨k', hk', he⟩)
        · exact hks k' (List.mem_cons_of_mem _ hk') hm

end Encoding

/-- **A constructed manifest**, with what its construction has established. -/
structure Manifest (P : Platform) extends ManifestFields where
  nfcKeys_nodup : (extra.map fun kv => P.nfc kv.1).Nodup
  canonical : Bytes
  canonicalBytes_eq : toManifestFields.canonicalBytes P = .ok canonical
  /-- the cached `_memh` -/
  memh : Bytes
  memh_eq : memh = P.sha3_256 canonical

@[simp] theorem Manifest.memh_length {P : Platform} (m : Manifest P) : m.memh.length = 32 := by
  rw [m.memh_eq]; exact P.sha3_256_length _

section Construction

variable (P : Platform)

/-- The `isinstance(..., str)` check of one core field. -/
def requireStr (f : CoreField) : Arg PyStr → Except PyExc PyStr
  | .of s => .ok s
  | .other _ => .error (.sceError ("manifest field '" ++ f.name ++ "' must be a str"))

/-- The `isinstance(self.extra, Mapping)` check. -/
def requireMapping {α : Type} : Arg α → Except PyExc α
  | .of m => .ok m
  | .other _ => .error (.sceError "manifest field 'extra' must be a mapping of str -> str")

/-- The check that every key and value of `extra` is a string. -/
def requireStrItems : List (Arg PyStr × Arg PyStr) → Except PyExc (List (PyStr × PyStr))
  | [] => .ok []
  | (.of k, .of v) :: rest => do
    let kvs ← requireStrItems rest
    return (k, v) :: kvs
  | _ :: _ => .error (.sceError "manifest 'extra' must map str -> str")

/-- The end of `__post_init__`: freeze the fields and hash their canonical bytes, given the
outcome of computing these. -/
def ManifestFields.freeze (m : ManifestFields)
    (hk : (m.extra.map fun kv => P.nfc kv.1).Nodup) :
    (r : Except PyExc Bytes) → m.canonicalBytes P = r → Py (Manifest P)
  | .error e, _ => .fail e
  | .ok canonical, hc =>
    .perform (.sha3 canonical)
      { m with
        nfcKeys_nodup := hk
        canonical := canonical
        canonicalBytes_eq := hc
        memh := P.sha3_256 canonical
        memh_eq := rfl }

/-- `__post_init__` after the collision scan, given its outcome. -/
def ManifestFields.afterScan (m : ManifestFields) :
    (r : Except PyExc Unit) → checkKeys P [] (m.extra.map Prod.fst) = r → Py (Manifest P)
  | .error e, _ => .fail e
  | .ok (), hk =>
    m.freeze P (by have h := ((checkKeys_eq_ok P).mp hk).1; rwa [List.map_map] at h) _ rfl

/-- `__post_init__` from the collision scan on: the fields have their types by now. -/
def ManifestFields.postInit (m : ManifestFields) : Py (Manifest P) := m.afterScan P _ rfl

/-- `ModelManifest(...)` -/
def modelManifest (weightsHash quantization kernelBuildId tensorParallel numericsMode : Arg PyStr)
    (extra : Arg (List (Arg PyStr × Arg PyStr)) := .of []) : Py (Manifest P) := do
  let weightsHash ← requireStr .weightsHash weightsHash
  let quantization ← requireStr .quantization quantization
  let kernelBuildId ← requireStr .kernelBuildId kernelBuildId
  let tensorParallel ← requireStr .tensorParallel tensorParallel
  let numericsMode ← requireStr .numericsMode numericsMode
  let items ← requireMapping extra
  let extra ← requireStrItems items
  { weightsHash, quantization, kernelBuildId, tensorParallel, numericsMode, extra
    : ManifestFields }.postInit P

theorem requireStrItems_of (kvs : List (PyStr × PyStr)) :
    requireStrItems (kvs.map fun kv => (.of kv.1, .of kv.2)) = .ok kvs := by
  induction kvs with
  | nil => rfl
  | cons kv kvs ih => simp [requireStrItems, ih]

variable {P}

/-- The constructor called on an existing manifest's own fields. -/
def Manifest.construction (m : Manifest P) : Py (Manifest P) :=
  modelManifest P (.of m.weightsHash) (.of m.quantization) (.of m.kernelBuildId)
    (.of m.tensorParallel) (.of m.numericsMode)
    (.of (m.extra.map fun kv => (.of kv.1, .of kv.2)))

theorem Manifest.freeze_eq (m : Manifest P) {r : Except PyExc Bytes}
    (hr : m.toManifestFields.canonicalBytes P = r) :
    m.toManifestFields.freeze P m.nfcKeys_nodup r hr = ⟨[.sha3 m.canonical], .ok m⟩ := by
  obtain rfl : r = .ok m.canonical := hr.symm.trans m.canonicalBytes_eq
  obtain ⟨fields, hnd, canonical, hc, memh, rfl⟩ := m
  rfl

theorem Manifest.postInit_eq (m : Manifest P) :
    m.toManifestFields.postInit P = ⟨[.sha3 m.canonical], .ok m⟩ := by
  have hk : checkKeys P [] (m.extra.map Prod.fst) = .ok () := by
    rw [checkKeys_eq_ok, List.map_map]
    exact ⟨m.nfcKeys_nodup, fun _ _ => List.not_mem_nil⟩
  have hscan : ∀ r (hr : checkKeys P [] (m.extra.map Prod.fst) = r),
      m.toManifestFields.afterScan P r hr = ⟨[.sha3 m.canonical], .ok m⟩ := by
    rintro r hr
    obtain rfl : r = .ok () := hr.symm.trans hk
    exact m.freeze_eq rfl
  exact hscan _ rfl

/-- **Every manifest is one the constructor accepts**, and accepting it hashes exactly its
canonical bytes. -/
theorem Manifest.construction_eq (m : Manifest P) :
    m.construction = ⟨[.sha3 m.canonical], .ok m⟩ := by
  unfold Manifest.construction modelManifest
  simp only [requireStr, requireMapping, requireStrItems_of, Logged.liftM_ok, Logged.pure_bind]
  exact m.postInit_eq

end Construction

end Sce
