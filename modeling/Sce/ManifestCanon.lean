/-
# The canonical bytes are a complete invariant of the manifest

Two accepted manifests have the same canonical bytes exactly when their core fields agree after
NFC and their extra mappings agree as maps after NFC of keys and values
(`canonicalBytes_eq_iff`).  Three mechanisms have to fit together for this.

* **Length prefixes.**  Section 1 gives the closed form of `canonical_bytes` and section 2 reads
  the fields and the entries back off it, by the rules for self-delimiting encodings.
* **The sort.**  The entries are read back in sorted order only, so the bytes determine them up
  to permutation (`canonEntries`).
* **The collision check.**  It makes the NFC keys distinct.  Hence the sorted order is unique,
  and "up to permutation" is the same as "as a map".
-/
import Sce.Manifest

namespace Sce

open BigEndian FiniteMap

variable {P : Platform}

/-! ## 1. The closed form -/

/-- `enc(s) = LP(UTF8(NFC(s)))` -/
def enc (P : Platform) (s : PyStr) : Bytes := lenPrefix 4 (utf8 (P.nfc s))

/-- The NFC form of `s` has a UTF-8 encoding, and one that a length prefix can carry. -/
def Encodable (P : Platform) (s : PyStr) : Prop :=
  (∀ c ∈ P.nfc s, ¬ Surrogate c) ∧ (utf8 (P.nfc s)).length ≤ MAX_LP_FIELD

theorem encStr_eq_ok {label : String} {s : PyStr} {b : Bytes} :
    encStr P label (.of s) = .ok b ↔ Encodable P s ∧ enc P s = b := by
  simp only [encStr, Except.bind_eq_ok, encodeUtf8_eq_ok, Encodable, enc, lenPrefix]
  constructor
  · rintro ⟨_, ⟨hs, rfl⟩, h⟩
    split at h
    · exact absurd h (by simp)
    · rename_i hlen
      obtain ⟨n, hn, hb⟩ := Except.bind_eq_ok.mp h
      rw [toBytes_natCast_eq_ok] at hn
      obtain ⟨-, rfl⟩ := hn
      exact ⟨⟨hs, by omega⟩, Except.pure_eq_ok.mp hb⟩
  · rintro ⟨⟨hs, hlen⟩, rfl⟩
    refine ⟨_, ⟨hs, rfl⟩, ?_⟩
    rw [if_neg (by omega), toBytes_natCast (lt_of_le_MAX_LP_FIELD hlen)]
    rfl

theorem encCore_eq_ok {m : ManifestFields} {fs : List CoreField} {b : Bytes} :
    encCore P m fs = .ok b ↔
      (∀ f ∈ fs, Encodable P (m.getattr f)) ∧
        (fs.flatMap fun f => enc P (m.getattr f)) = b := by
  induction fs generalizing b with
  | nil => simp [encCore]
  | cons f fs ih =>
    simp only [encCore, Except.bind_eq_ok, encStr_eq_ok, ih, Except.pure_eq_ok,
      List.forall_mem_cons, List.flatMap_cons]
    constructor
    · rintro ⟨_, ⟨hf, rfl⟩, _, ⟨hfs, rfl⟩, rfl⟩
      exact ⟨⟨hf, hfs⟩, rfl⟩
    · rintro ⟨⟨hf, hfs⟩, rfl⟩
      exact ⟨_, ⟨hf, rfl⟩, _, ⟨hfs, rfl⟩, rfl⟩

theorem sortKeys_eq_ok {kvs : List (PyStr × PyStr)} {r : List (Bytes × (PyStr × PyStr))} :
    sortKeys P kvs = .ok r ↔
      (∀ kv ∈ kvs, ∀ c ∈ P.nfc kv.1, ¬ Surrogate c) ∧
        kvs.map (fun kv => (utf8 (P.nfc kv.1), kv)) = r := by
  induction kvs generalizing r with
  | nil => simp [sortKeys]
  | cons kv kvs ih =>
    simp only [sortKeys, Except.bind_eq_ok, encodeUtf8_eq_ok, ih, Except.pure_eq_ok,
      List.forall_mem_cons, List.map_cons]
    constructor
    · rintro ⟨_, ⟨hk, rfl⟩, _, ⟨hks, rfl⟩, rfl⟩
      exact ⟨⟨hk, hks⟩, rfl⟩
    · rintro ⟨⟨hk, hks⟩, rfl⟩
      exact ⟨_, ⟨hk, rfl⟩, _, ⟨hks, rfl⟩, rfl⟩

/-- Sorting the keyed entries is sorting the entries by key. -/
theorem sortedItems_eq_ok {kvs r : List (PyStr × PyStr)} :
    sortedItems P kvs = .ok r ↔
      (∀ kv ∈ kvs, ∀ c ∈ P.nfc kv.1, ¬ Surrogate c) ∧
        sortBy (fun kv => utf8 (P.nfc kv.1)) kvs = r := by
  have hsort : (sortBy Prod.fst (kvs.map fun kv => (utf8 (P.nfc kv.1), kv))).map Prod.snd
      = sortBy (fun kv => utf8 (P.nfc kv.1)) kvs := by
    rw [← map_sortBy (fun kv : PyStr × PyStr => (utf8 (P.nfc kv.1), kv)) Prod.fst,
      List.map_map]
    exact List.map_id _
  simp only [sortedItems, Except.bind_eq_ok, sortKeys_eq_ok, Except.pure_eq_ok]
  constructor
  · rintro ⟨_, ⟨hs, rfl⟩, h⟩
    exact ⟨hs, hsort ▸ h⟩
  · rintro ⟨hs, h⟩
    exact ⟨_, ⟨hs, rfl⟩, hsort.trans h⟩

theorem encItems_eq_ok {kvs : List (PyStr × PyStr)} {b : Bytes} :
    encItems P kvs = .ok b ↔
      (∀ kv ∈ kvs, Encodable P kv.1 ∧ Encodable P kv.2) ∧
        (kvs.flatMap fun kv => enc P kv.1 ++ enc P kv.2) = b := by
  induction kvs generalizing b with
  | nil => simp [encItems]
  | cons kv kvs ih =>
    simp only [encItems, Except.bind_eq_ok, encStr_eq_ok, ih, Except.pure_eq_ok,
      List.forall_mem_cons, List.flatMap_cons]
    constructor
    · rintro ⟨_, ⟨hk, rfl⟩, _, ⟨hv, rfl⟩, _, ⟨hks, rfl⟩, rfl⟩
      exact ⟨⟨⟨hk, hv⟩, hks⟩, rfl⟩
    · rintro ⟨⟨⟨hk, hv⟩, hks⟩, rfl⟩
      exact ⟨_, ⟨hk, rfl⟩, _, ⟨hv, rfl⟩, _, ⟨hks, rfl⟩, rfl⟩

/-- An entry with both strings in NFC. -/
def nfcPair (P : Platform) (kv : PyStr × PyStr) : PyStr × PyStr := (P.nfc kv.1, P.nfc kv.2)

/-- The entries as the canonical bytes carry them: in NFC and sorted. -/
def canonEntries (P : Platform) (m : ManifestFields) : List (PyStr × PyStr) :=
  sortBy (fun kv => utf8 kv.1) (m.extra.map (nfcPair P))

/-- The encoding of an entry that is already in NFC. -/
def encPair (kv : PyStr × PyStr) : Bytes := lenPrefix 4 (utf8 kv.1) ++ lenPrefix 4 (utf8 kv.2)

/-- The canonical bytes, once they exist. -/
def canonicalForm (P : Platform) (m : ManifestFields) : Bytes :=
  MANIFEST_TAG ++ ((CoreField.all.map fun f => P.nfc (m.getattr f)).flatMap
      fun s => lenPrefix 4 (utf8 s))
    ++ beBytes 4 m.extra.length ++ (canonEntries P m).flatMap encPair

/-- The same with the strings as they are, encoded one by one. -/
theorem canonicalForm_eq (P : Platform) (m : ManifestFields) : canonicalForm P m = MANIFEST_TAG
    ++ (CoreField.all.flatMap fun f => enc P (m.getattr f)) ++ beBytes 4 m.extra.length
    ++ ((sortBy (fun kv => utf8 (P.nfc kv.1)) m.extra).flatMap
        fun kv => enc P kv.1 ++ enc P kv.2) := by
  unfold canonicalForm canonEntries
  rw [← map_sortBy (nfcPair P) (fun kv => utf8 kv.1), List.flatMap_map, List.flatMap_map]
  rfl

/-- When the canonical bytes exist. -/
structure HasCanonical (P : Platform) (m : ManifestFields) : Prop where
  core : ∀ f, Encodable P (m.getattr f)
  entries : ∀ kv ∈ m.extra, Encodable P kv.1 ∧ Encodable P kv.2
  count : m.extra.length < 2 ^ 32

/-- **The closed form of `canonical_bytes`.** -/
theorem canonicalBytes_eq_ok {m : ManifestFields} {b : Bytes} :
    m.canonicalBytes P = .ok b ↔ HasCanonical P m ∧ canonicalForm P m = b := by
  have hlen : (sortBy (fun kv => utf8 (P.nfc kv.1)) m.extra).length = m.extra.length :=
    (sortBy_perm _ m.extra).length_eq
  have hmem : ∀ kv, kv ∈ sortBy (fun kv => utf8 (P.nfc kv.1)) m.extra ↔ kv ∈ m.extra :=
    fun kv => (sortBy_perm _ m.extra).mem_iff
  have hform := canonicalForm_eq P m
  simp only [ManifestFields.canonicalBytes, Except.bind_eq_ok, encCore_eq_ok,
    sortedItems_eq_ok, encItems_eq_ok, Except.pure_eq_ok]
  constructor
  · rintro ⟨_, ⟨hcore, rfl⟩, _, ⟨-, rfl⟩, _, hcount, _, ⟨hitems, rfl⟩, rfl⟩
    rw [toBytes_natCast_eq_ok, hlen] at hcount
    obtain ⟨hcount, rfl⟩ := hcount
    exact ⟨⟨fun f => hcore f f.mem_all, fun kv hkv => hitems kv ((hmem kv).mpr hkv),
      by simpa using hcount⟩, hform⟩
  · rintro ⟨⟨hcore, hitems, hcount⟩, rfl⟩
    refine ⟨_, ⟨fun f _ => hcore f, rfl⟩, _, ⟨fun kv hkv => (hitems kv hkv).1.1, rfl⟩,
      beBytes 4 m.extra.length, ?_, _, ⟨fun kv hkv => hitems kv ((hmem kv).mp hkv), rfl⟩,
      hform.symm⟩
    rw [hlen]
    exact toBytes_natCast (by simpa using hcount)

theorem Manifest.hasCanonical (m : Manifest P) : HasCanonical P m.toManifestFields :=
  (canonicalBytes_eq_ok.mp m.canonicalBytes_eq).1

theorem Manifest.canonical_eq_form (m : Manifest P) :
    m.canonical = canonicalForm P m.toManifestFields :=
  (canonicalBytes_eq_ok.mp m.canonicalBytes_eq).2.symm

/-! ## 2. Reading the fields and the entries back -/

theorem lenPrefix_utf8_selfDelim :
    SelfDelim (fun s : PyStr => (utf8 s).length < 256 ^ 4) fun s => lenPrefix 4 (utf8 s) :=
  (lenPrefix_selfDelim 4).comap utf8 (fun _ h => h) fun _ _ _ _ h => utf8_inj h

theorem encPair_selfDelim :
    SelfDelim (fun kv : PyStr × PyStr => (utf8 kv.1).length < 256 ^ 4 ∧
      (utf8 kv.2).length < 256 ^ 4) encPair :=
  lenPrefix_utf8_selfDelim.prod lenPrefix_utf8_selfDelim

theorem HasCanonical.canonEntries_length {m : ManifestFields} :
    (canonEntries P m).length = m.extra.length := by
  rw [canonEntries, (sortBy_perm _ _).length_eq, List.length_map]

/-- Every entry the bytes carry fits its length prefixes. -/
theorem HasCanonical.canonEntries_fit {m : ManifestFields} (h : HasCanonical P m) :
    ∀ kv ∈ canonEntries P m, (utf8 kv.1).length < 256 ^ 4 ∧ (utf8 kv.2).length < 256 ^ 4 := by
  intro kv hkv
  obtain ⟨kv', hkv', rfl⟩ := List.mem_map.mp ((sortBy_perm _ _).mem_iff.mp hkv)
  obtain ⟨hk, hv⟩ := h.entries kv' hkv'
  exact ⟨lt_of_le_MAX_LP_FIELD hk.2, lt_of_le_MAX_LP_FIELD hv.2⟩

/-- **The bytes determine the normalised fields and the sorted entries.** -/
theorem canonicalForm_inj {m m' : ManifestFields} (h : HasCanonical P m)
    (h' : HasCanonical P m') (he : canonicalForm P m = canonicalForm P m') :
    (∀ f, P.nfc (m.getattr f) = P.nfc (m'.getattr f)) ∧
      canonEntries P m = canonEntries P m' := by
  simp only [canonicalForm, List.append_assoc] at he
  have hcore := List.append_cancel_left he
  obtain ⟨hfields, hrest⟩ := lenPrefix_utf8_selfDelim.flatMap (by simp)
    (by simpa using fun f _ => lt_of_le_MAX_LP_FIELD (h.core f).2)
    (by simpa using fun f _ => lt_of_le_MAX_LP_FIELD (h'.core f).2) hcore
  obtain ⟨hcount, hentries⟩ := beBytes_selfDelim 4 (by simpa using h.count)
    (by simpa using h'.count) hrest
  have hsame : (canonEntries P m).length = (canonEntries P m').length := by
    rw [HasCanonical.canonEntries_length, HasCanonical.canonEntries_length, hcount]
  refine ⟨fun f => (List.map_inj_left.mp hfields) f f.mem_all, ?_⟩
  exact (encPair_selfDelim.flatMap (s := []) (t := []) hsame h.canonEntries_fit
    h'.canonEntries_fit (by simpa using hentries)).1

/-! ## 3. Entries in sorted order, and entries as a map -/

/-- The extra mapping, read as a finite map from NFC keys to NFC values. -/
def ManifestFields.extraMap (P : Platform) (m : ManifestFields) (key : PyStr) : Option PyStr :=
  (m.extra.map (nfcPair P)).lookup key

theorem Manifest.nfcPair_keys_nodup (m : Manifest P) :
    ((m.extra.map (nfcPair P)).map Prod.fst).Nodup := by
  rw [List.map_map]; exact m.nfcKeys_nodup

/-- **The collision check at work**: with distinct NFC keys, the sorted entries say neither
more nor less than the map. -/
theorem canonEntries_eq_iff (m m' : Manifest P) :
    canonEntries P m.toManifestFields = canonEntries P m'.toManifestFields ↔
      m.extraMap P = m'.extraMap P := by
  have hinj : ∀ a ∈ m.extra.map (nfcPair P), ∀ b ∈ m.extra.map (nfcPair P),
      utf8 a.1 = utf8 b.1 → a = b := by
    intro a ha b hb hkey
    exact List.inj_on_of_nodup_map m.nfcPair_keys_nodup ha hb (utf8_inj hkey)
  rw [canonEntries, canonEntries, sort_eq_iff_perm hinj,
    perm_iff_lookup m.nfcPair_keys_nodup m'.nfcPair_keys_nodup]
  exact ⟨fun h => funext h, fun h => congrFun h⟩

/-- **The canonical bytes are a complete invariant.** -/
theorem canonical_eq_iff (m m' : Manifest P) :
    m.canonical = m'.canonical ↔
      (∀ f, P.nfc (m.getattr f) = P.nfc (m'.getattr f)) ∧ m.extraMap P = m'.extraMap P := by
  rw [m.canonical_eq_form, m'.canonical_eq_form, ← canonEntries_eq_iff]
  constructor
  · exact canonicalForm_inj m.hasCanonical m'.hasCanonical
  · rintro ⟨hcore, hentries⟩
    have hcount : m.extra.length = m'.extra.length := by
      rw [← HasCanonical.canonEntries_length (P := P), hentries,
        HasCanonical.canonEntries_length]
    unfold canonicalForm
    rw [hentries, hcount, List.map_congr_left fun f _ => hcore f]

end Sce
