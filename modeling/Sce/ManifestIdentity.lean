/-
# What the identity of a manifest does and does not depend on

`ManifestCanon.lean` shows when two accepted manifests have the same canonical bytes.  This file
draws the consequences a user of the class sees.

* The insertion order of `extra` and the Unicode form of the strings do not matter, and the
  reordered or normalised manifest is again accepted (`Manifest.reorder`, `Manifest.mapNfc`).
* Moving characters across a field boundary always matters (`canonical_ne_of_core_move`,
  `canonical_ne_of_entry_move`).  Length prefixes alone do not give this: what is prefixed is
  the NFC form, and two splits of one text could share theirs.  That they cannot is a fact
  about NFC (`Platform.NfcSize`).
* `==` refines equality of fingerprints, so `__hash__` is consistent with it.
-/
import Sce.ManifestCanon
import Sce.Toy

namespace Sce

open BigEndian FiniteMap

variable {P : Platform}

/-! ## 1. Comparing and hashing -/

/-- `dict.__eq__`: as many entries, and each key has the same value on the other side. -/
def dictEq (a b : List (PyStr × PyStr)) : Prop :=
  a.length = b.length ∧ ∀ kv ∈ a, b.lookup kv.1 = some kv.2

/-- `A == B`: the generated field-by-field comparison. -/
def Manifest.pyEq (A B : Manifest P) : Prop :=
  (∀ f ∈ CoreField.all, A.getattr f = B.getattr f) ∧ dictEq A.extra B.extra

/-- `ModelManifest.__hash__` -/
def Manifest.hash (m : Manifest P) : Int := P.bytesHash m.memh

/-! ## 2. Building a manifest from fields that would be accepted -/

/-- The object the constructor makes of fields that pass its checks. -/
def Manifest.ofFields (m : ManifestFields)
    (hk : (m.extra.map fun kv => P.nfc kv.1).Nodup) (hc : HasCanonical P m) : Manifest P where
  toManifestFields := m
  nfcKeys_nodup := hk
  canonical := canonicalForm P m
  canonicalBytes_eq := canonicalBytes_eq_ok.mpr ⟨hc, rfl⟩
  memh := P.sha3_256 (canonicalForm P m)
  memh_eq := rfl

/-- The same manifest with the entries of `extra` inserted in another order. -/
def Manifest.reorder (m : Manifest P) {es : List (PyStr × PyStr)} (h : es.Perm m.extra) :
    Manifest P :=
  .ofFields { m.toManifestFields with extra := es }
    (((h.map _).nodup_iff).mpr m.nfcKeys_nodup)
    { core := m.hasCanonical.core
      entries := fun kv hkv => m.hasCanonical.entries kv (h.mem_iff.mp hkv)
      count := h.length_eq ▸ m.hasCanonical.count }

/-- Every string of the manifest replaced by its NFC form. -/
def ManifestFields.mapNfc (P : Platform) (m : ManifestFields) : ManifestFields where
  weightsHash := P.nfc m.weightsHash
  quantization := P.nfc m.quantization
  kernelBuildId := P.nfc m.kernelBuildId
  tensorParallel := P.nfc m.tensorParallel
  numericsMode := P.nfc m.numericsMode
  extra := m.extra.map (nfcPair P)

theorem ManifestFields.getattr_mapNfc (m : ManifestFields) (f : CoreField) :
    (m.mapNfc P).getattr f = P.nfc (m.getattr f) := by
  cases f <;> rfl

/-- Normalising twice encodes like normalising once. -/
theorem Encodable.nfc (hidem : P.NfcIdempotent) {s : PyStr} (h : Encodable P s) :
    Encodable P (P.nfc s) := by
  unfold Encodable at h ⊢
  rw [hidem]
  exact h

/-- The normalised manifest is accepted. -/
def Manifest.mapNfc (hidem : P.NfcIdempotent) (m : Manifest P) : Manifest P :=
  .ofFields (m.toManifestFields.mapNfc P)
    (by
      have hkeys : (m.extra.map (nfcPair P)).map (fun kv => P.nfc kv.1)
          = m.extra.map fun kv => P.nfc kv.1 := by
        rw [List.map_map]
        exact List.map_congr_left fun kv _ => hidem kv.1
      have hnd := m.nfcKeys_nodup
      rwa [← hkeys] at hnd)
    { core := fun f => by
        rw [ManifestFields.getattr_mapNfc]
        exact (m.hasCanonical.core f).nfc hidem
      entries := fun kv hkv => by
        obtain ⟨kv', hkv', rfl⟩ := List.mem_map.mp hkv
        obtain ⟨hkey, hvalue⟩ := m.hasCanonical.entries kv' hkv'
        exact ⟨hkey.nfc hidem, hvalue.nfc hidem⟩
      count := by
        have hcount := m.hasCanonical.count
        rwa [← List.length_map (nfcPair P)] at hcount }

/-! ## 3. What does not matter -/

/-- Entries in another order are the same map. -/
theorem extraMap_eq_of_perm {A B : Manifest P} (h : A.extra.Perm B.extra) :
    A.extraMap P = B.extraMap P :=
  funext ((perm_iff_lookup A.nfcPair_keys_nodup B.nfcPair_keys_nodup).mp (h.map _))

/-- **Insertion order never matters.** -/
theorem Manifest.canonical_reorder (m : Manifest P) {es : List (PyStr × PyStr)}
    (h : es.Perm m.extra) : (m.reorder h).canonical = m.canonical :=
  (canonical_eq_iff _ _).mpr ⟨fun f => by cases f <;> rfl, extraMap_eq_of_perm h⟩

/-- **The Unicode form of the strings never matters.** -/
theorem Manifest.canonical_mapNfc (hidem : P.NfcIdempotent) (m : Manifest P) :
    (m.mapNfc hidem).canonical = m.canonical := by
  refine (canonical_eq_iff _ _).mpr ⟨fun f => ?_, ?_⟩
  · exact (congrArg P.nfc (m.toManifestFields.getattr_mapNfc f)).trans (hidem _)
  · have hentries : (m.extra.map (nfcPair P)).map (nfcPair P) = m.extra.map (nfcPair P) := by
      rw [List.map_map]
      exact List.map_congr_left fun kv _ => Prod.ext (hidem kv.1) (hidem kv.2)
    funext key
    exact congrArg (List.lookup key) hentries

/-- Two equal dictionaries hold the same entries. -/
theorem perm_of_dictEq {A B : Manifest P} (h : dictEq A.extra B.extra) :
    A.extra.Perm B.extra := by
  obtain ⟨hlen, hlookup⟩ := h
  have hkeys : ∀ m : Manifest P, (m.extra.map Prod.fst).Nodup := fun m =>
    List.Nodup.of_map P.nfc (by rw [List.map_map]; exact m.nfcKeys_nodup)
  have hsub : A.extra ⊆ B.extra := fun kv hkv =>
    (lookup_eq_some_iff (hkeys B)).mp (hlookup kv hkv)
  exact (List.subperm_of_subset (nodup_of_keys (hkeys A)) hsub).perm_of_length_le hlen.ge

/-- **Manifests that compare equal have the same canonical bytes.** -/
theorem Manifest.pyEq.canonical_eq {A B : Manifest P} (h : A.pyEq B) :
    A.canonical = B.canonical :=
  (canonical_eq_iff A B).mpr
    ⟨fun f => congrArg P.nfc (h.1 f f.mem_all), extraMap_eq_of_perm (perm_of_dictEq h.2)⟩

theorem Manifest.memh_eq_of_canonical {A B : Manifest P} (h : A.canonical = B.canonical) :
    A.memh = B.memh := by
  rw [A.memh_eq, B.memh_eq, h]

/-! ## 4. What always matters -/

/-- **Two splits of one text at different places differ after NFC**: the longer left part
counts more characters, and NFC keeps the count. -/
theorem nfc_ne_of_move {size : PyStr → Nat} (hsize : P.NfcSize size) {x y x' y' : PyStr}
    (htext : x ++ y = x' ++ y') (hne : x ≠ x') : P.nfc x ≠ P.nfc x' := by
  intro hnfc
  have hcount := hsize.invariant x x' hnfc
  rcases List.append_eq_append_iff.mp htext with ⟨u, hx', -⟩ | ⟨u, hx, -⟩
  · have hu : u ≠ [] := by
      rintro rfl
      exact hne (by simpa using hx'.symm)
    have hpos := hsize.pos u hu
    rw [hx', hsize.append] at hcount
    omega
  · have hu : u ≠ [] := by
      rintro rfl
      exact hne (by simpa using hx)
    have hpos := hsize.pos u hu
    rw [hx, hsize.append] at hcount
    omega

/-- **Moving characters between two core fields changes the bytes.** -/
theorem canonical_ne_of_core_move {size : PyStr → Nat} (hsize : P.NfcSize size)
    {A B : Manifest P} {f g : CoreField}
    (htext : A.getattr f ++ A.getattr g = B.getattr f ++ B.getattr g)
    (hne : A.getattr f ≠ B.getattr f) : A.canonical ≠ B.canonical :=
  fun he => nfc_ne_of_move hsize htext hne (((canonical_eq_iff A B).mp he).1 f)

/-- An entry of `extra` shows up in the map. -/
theorem Manifest.extraMap_of_perm (m : Manifest P) {k v : PyStr} {l : List (PyStr × PyStr)}
    (h : m.extra.Perm ((k, v) :: l)) : m.extraMap P (P.nfc k) = some (P.nfc v) := by
  have hmem : (k, v) ∈ m.extra := h.mem_iff.mpr List.mem_cons_self
  exact (lookup_eq_some_iff m.nfcPair_keys_nodup).mpr (List.mem_map.mpr ⟨_, hmem, rfl⟩)

/-- **Moving characters between a key and its value changes the bytes.** -/
theorem canonical_ne_of_entry_move {size : PyStr → Nat} (hsize : P.NfcSize size)
    {A B : Manifest P} {k v k' v' : PyStr} {l : List (PyStr × PyStr)}
    (hA : A.extra.Perm ((k, v) :: l)) (hB : B.extra.Perm ((k', v') :: l))
    (htext : k ++ v = k' ++ v') (hne : k ≠ k') : A.canonical ≠ B.canonical := by
  intro he
  have hkeys : P.nfc k ≠ P.nfc k' := nfc_ne_of_move hsize htext hne
  -- the old key has to be an entry of `B`, either the moved one or one of the rest
  have hold : (P.nfc k, P.nfc v) ∈ B.extra.map (nfcPair P) := by
    rw [← lookup_eq_some_iff B.nfcPair_keys_nodup]
    exact (congrFun ((canonical_eq_iff A B).mp he).2 _).symm.trans (A.extraMap_of_perm hA)
  rw [(hB.map _).mem_iff, List.map_cons, List.mem_cons] at hold
  rcases hold with hmoved | hrest
  · exact hkeys (Prod.ext_iff.mp hmoved).1
  · have hnd : (((k, v) :: l).map fun kv => P.nfc kv.1).Nodup :=
      (hA.map _).nodup_iff.mp A.nfcKeys_nodup
    obtain ⟨kv, hkv, hpair⟩ := List.mem_map.mp hrest
    rw [List.map_cons, List.nodup_cons] at hnd
    exact hnd.1 (List.mem_map.mpr ⟨kv, hkv, (Prod.ext_iff.mp hpair).1⟩)

/-! ## 5. The identity of a manifest -/

/-- **The canonicalisation is a complete invariant.**  The bytes agree exactly when the fields
agree after NFC, `extra` as a map; so reordering and normalising give accepted manifests with
the same bytes, moving characters changes them, and `==` implies one fingerprint and one
hash.  What is assumed of NFC is assumed of the part that needs it. -/
theorem canonicalBytes_complete_invariant (P : Platform) :
    (∀ A B : Manifest P,
      A.canonicalBytes P = B.canonicalBytes P ↔
        (∀ f, P.nfc (A.getattr f) = P.nfc (B.getattr f)) ∧ A.extraMap P = B.extraMap P) ∧
    (∀ (A : Manifest P) (es : List (PyStr × PyStr)), es.Perm A.extra →
      ∃ B : Manifest P, B.toManifestFields = { A.toManifestFields with extra := es } ∧
        B.canonicalBytes P = A.canonicalBytes P) ∧
    (P.NfcIdempotent → ∀ A : Manifest P, ∃ B : Manifest P,
      B.toManifestFields = A.toManifestFields.mapNfc P ∧
        B.canonicalBytes P = A.canonicalBytes P) ∧
    (∀ size : PyStr → Nat, P.NfcSize size → ∀ (A B : Manifest P) (f g : CoreField),
      A.getattr f ++ A.getattr g = B.getattr f ++ B.getattr g → A.getattr f ≠ B.getattr f →
        A.canonicalBytes P ≠ B.canonicalBytes P) ∧
    (∀ size : PyStr → Nat, P.NfcSize size →
      ∀ (A B : Manifest P) (k v k' v' : PyStr) (l : List (PyStr × PyStr)),
        A.extra.Perm ((k, v) :: l) → B.extra.Perm ((k', v') :: l) → k ++ v = k' ++ v' →
          k ≠ k' → A.canonicalBytes P ≠ B.canonicalBytes P) ∧
    (∀ A B : Manifest P, A.pyEq B → A.memh = B.memh ∧ A.hash = B.hash) := by
  have hbytes : ∀ A B : Manifest P,
      A.canonicalBytes P = B.canonicalBytes P ↔ A.canonical = B.canonical := fun A B => by
    rw [A.canonicalBytes_eq, B.canonicalBytes_eq, Except.ok.injEq]
  refine ⟨?_, ?_, ?_, ?_, ?_, ?_⟩
  · intro A B
    rw [hbytes, canonical_eq_iff]
  · intro A es h
    exact ⟨A.reorder h, rfl, (hbytes _ _).mpr (A.canonical_reorder h)⟩
  · intro hidem A
    exact ⟨A.mapNfc hidem, rfl, (hbytes _ _).mpr (A.canonical_mapNfc hidem)⟩
  · intro size hsize A B f g htext hne
    rw [ne_eq, hbytes]
    exact canonical_ne_of_core_move hsize htext hne
  · intro size hsize A B k v k' v' l hA hB htext hne
    rw [ne_eq, hbytes]
    exact canonical_ne_of_entry_move hsize hA hB htext hne
  · intro A B h
    have hmemh := Manifest.memh_eq_of_canonical h.canonical_eq
    exact ⟨hmemh, congrArg P.bytesHash hmemh⟩

/-! ## 6. Two manifests of the toy platform -/

/-- An accented letter written as a letter and a combining accent. -/
def toyFields : ManifestFields where
  weightsHash := [0x77, 0x65, 0x301]
  quantization := [0x66, 0x70, 0x38]
  kernelBuildId := [0x6b]
  tensorParallel := []
  numericsMode := [0x6e]
  extra := [([0x61], [0x78]), ([0x65, 0x301], [0x79])]

/-- The same with the letter precomposed and the entries the other way round. -/
def toyFields' : ManifestFields :=
  { toyFields with
    weightsHash := [0x77, 0xE9]
    extra := [([0xE9], [0x79]), ([0x61], [0x78])] }

instance (s : PyStr) : Decidable (Encodable P s) :=
  have : Decidable (∀ c ∈ P.nfc s, ¬ Surrogate c) := List.decidableBAll _ _
  inferInstanceAs (Decidable (_ ∧ (utf8 (P.nfc s)).length ≤ MAX_LP_FIELD))

def toyManifest : Manifest toy :=
  .ofFields toyFields (by decide)
    { core := fun f => by cases f <;> decide +kernel
      entries := by decide +kernel
      count := by decide +kernel }

def toyManifest' : Manifest toy :=
  .ofFields toyFields' (by decide)
    { core := fun f => by cases f <;> decide +kernel
      entries := by decide +kernel
      count := by decide +kernel }

/-- The first with a character moved from one field into the next. -/
def toyMoved : Manifest toy :=
  .ofFields { toyFields with kernelBuildId := [], tensorParallel := [0x6b] } (by decide)
    { core := fun f => by cases f <;> decide +kernel
      entries := by decide +kernel
      count := by decide +kernel }

/-- **The two forms have the same bytes, and so does the normalised manifest; the moved character
changes them.** -/
theorem toyManifest_canonicalBytes_eq :
    toyManifest.canonicalBytes toy = toyManifest'.canonicalBytes toy ∧
      (∃ B : Manifest toy, B.toManifestFields = toyManifest.toManifestFields.mapNfc toy ∧
        B.canonicalBytes toy = toyManifest.canonicalBytes toy) ∧
      toyManifest.canonicalBytes toy ≠ toyMoved.canonicalBytes toy := by
  obtain ⟨hiff, -, hnormalise, hmove, -, -⟩ := canonicalBytes_complete_invariant toy
  refine ⟨(hiff toyManifest toyManifest').mpr ⟨fun f => by cases f <;> decide, ?_⟩,
    hnormalise toy_nfcIdempotent toyManifest,
    hmove toySize toy_nfcSize toyManifest toyMoved .kernelBuildId .tensorParallel (by decide)
      (by decide)⟩
  have hperm : (toyManifest.extra.map (nfcPair toy)).Perm
      (toyManifest'.extra.map (nfcPair toy)) := by decide
  exact funext ((perm_iff_lookup toyManifest.nfcPair_keys_nodup
    toyManifest'.nfcPair_keys_nodup).mp hperm)

end Sce
