/-
# What the manifest constructor raises

`ModelManifest(...)` checks its fields and promises `SCEError`.  Three of its steps can raise
something else: a string whose NFC form holds a surrogate has no UTF-8 encoding
(`UnicodeEncodeError`, from the core fields, the sort keys or the entries), and a number of
entries of `2 ** 32` or more does not fit its four bytes (`OverflowError`).  A manifest is
encoded in one pass, so whether such a step is reached depends on what comes ahead of it.

* `EncodesClean` says that no such step is reached; `canonicalBytes_raises_iff` that this is when
  `canonical_bytes` raises only library errors.
* `construction_contract_iff` adds the scan for colliding keys, which comes first.
-/
import Sce.ManifestIdentity
import Sce.Raises

namespace Sce

open BigEndian FiniteMap

variable {P : Platform}

/-! ## 1. Strings -/

/-- `normalize("NFC", s).encode("utf-8")` returns. -/
def HasUtf8 (P : Platform) (s : PyStr) : Prop := ∀ c ∈ P.nfc s, ¬ Surrogate c

/-- The encoded string does not fit its length prefix. -/
def TooLong (P : Platform) (s : PyStr) : Prop := (utf8 (P.nfc s)).length > MAX_LP_FIELD

/-- **Encoding these strings one after another, none without a UTF-8 encoding is reached.** -/
def StopsClean (P : Platform) : List PyStr → Prop
  | [] => True
  | s :: ss => HasUtf8 P s ∧ (TooLong P s ∨ StopsClean P ss)

theorem not_libraryError_unicodeEncodeError : ¬ LibraryError .unicodeEncodeError := by
  simp [LibraryError, PyExc.isSCEError]

theorem encodeUtf8_of_surrogate {s : PyStr} (h : ¬ ∀ c ∈ s, ¬ Surrogate c) :
    encodeUtf8 s = .error .unicodeEncodeError := by
  cases hb : encodeUtf8 s with
  | ok b => exact absurd (encodeUtf8_eq_ok.mp hb).1 h
  | error e =>
    unfold encodeUtf8 at hb
    split at hb
    · exact hb.symm
    · exact absurd hb (by simp)

theorem encodeUtf8_raises_iff {s : PyStr} :
    (encodeUtf8 s).RaisesOnly LibraryError ↔ ∀ c ∈ s, ¬ Surrogate c := by
  constructor
  · intro h
    by_contra hs
    rw [encodeUtf8_of_surrogate hs, Except.RaisesOnly.error_iff] at h
    exact not_libraryError_unicodeEncodeError h
  · intro h
    exact .of_ok (encodeUtf8_eq_ok.mpr ⟨h, rfl⟩)

/-- **`_enc_str` guards the length, not the encoding.** -/
theorem encStr_raises_iff {label : String} {s : PyStr} :
    (encStr P label (.of s)).RaisesOnly LibraryError ↔ HasUtf8 P s := by
  rw [encStr, Except.RaisesOnly.bind_iff, encodeUtf8_raises_iff]
  refine ⟨fun h => h.1, fun h => ⟨h, fun b _ => ?_⟩⟩
  refine .ite (fun _ => .error rfl) fun hlen => ?_
  exact .bind (.of_ok (toBytes_natCast (lt_of_le_MAX_LP_FIELD (not_lt.mp hlen)))) fun _ _ => .pure _

/-- One string ahead of others. -/
theorem bind_encStr_raises_iff {α : Type} {label : String} {s : PyStr} {ss : List PyStr}
    {f : Bytes → Except PyExc α} (hf : ∀ b, (f b).RaisesOnly LibraryError ↔ StopsClean P ss) :
    (encStr P label (.of s) >>= f).RaisesOnly LibraryError ↔ StopsClean P (s :: ss) := by
  rw [Except.RaisesOnly.bind_iff, encStr_raises_iff, StopsClean]
  constructor
  · rintro ⟨hs, hrest⟩
    refine ⟨hs, ?_⟩
    by_cases hlen : TooLong P s
    · exact .inl hlen
    · exact .inr ((hf _).mp (hrest _ (encStr_eq_ok.mpr ⟨⟨hs, not_lt.mp hlen⟩, rfl⟩)))
  · rintro ⟨hs, hrest⟩
    refine ⟨hs, fun b hb => (hf b).mpr ?_⟩
    exact hrest.resolve_left (not_lt.mpr (encStr_eq_ok.mp hb).1.2)

/-- A pure step behind adds nothing. -/
theorem bind_pure_raises_iff {α β : Type} {x : Except PyExc α} {g : α → β} :
    (x >>= fun a => pure (g a)).RaisesOnly LibraryError ↔ x.RaisesOnly LibraryError := by
  rw [Except.RaisesOnly.bind_iff]
  exact ⟨fun h => h.1, fun h => ⟨h, fun _ _ => .pure _⟩⟩

/-! ## 2. The steps of `canonical_bytes` -/

theorem encCore_raises_iff {m : ManifestFields} {fs : List CoreField} :
    (encCore P m fs).RaisesOnly LibraryError ↔ StopsClean P (fs.map m.getattr) := by
  induction fs with
  | nil => exact iff_of_true (.ok _) trivial
  | cons f fs ih =>
    rw [List.map_cons]
    exact bind_encStr_raises_iff fun b => bind_pure_raises_iff.trans ih

theorem encItems_raises_iff {kvs : List (PyStr × PyStr)} :
    (encItems P kvs).RaisesOnly LibraryError ↔
      StopsClean P (kvs.flatMap fun kv => [kv.1, kv.2]) := by
  induction kvs with
  | nil => exact iff_of_true (.ok _) trivial
  | cons kv kvs ih =>
    obtain ⟨k, v⟩ := kv
    rw [List.flatMap_cons]
    exact bind_encStr_raises_iff fun key => bind_encStr_raises_iff fun value =>
      bind_pure_raises_iff.trans ih

theorem sortKeys_raises_iff {kvs : List (PyStr × PyStr)} :
    (sortKeys P kvs).RaisesOnly LibraryError ↔ ∀ kv ∈ kvs, HasUtf8 P kv.1 := by
  induction kvs with
  | nil => exact iff_of_true (.ok _) (by simp)
  | cons kv kvs ih =>
    rw [sortKeys, Except.RaisesOnly.bind_iff, encodeUtf8_raises_iff, List.forall_mem_cons]
    constructor
    · rintro ⟨hk, hrest⟩
      exact ⟨hk, ih.mp (bind_pure_raises_iff.mp (hrest _ (encodeUtf8_eq_ok.mpr ⟨hk, rfl⟩)))⟩
    · rintro ⟨hk, hrest⟩
      exact ⟨hk, fun _ _ => bind_pure_raises_iff.mpr (ih.mpr hrest)⟩

theorem count_raises_iff {n : Nat} :
    (toBytes n 4).RaisesOnly LibraryError ↔ n < 2 ^ 32 := by
  constructor
  · intro h
    by_contra hn
    have hfit : ¬ (0 ≤ (n : Int) ∧ (n : Int).toNat < 256 ^ 4) := by
      rw [Int.toNat_natCast]
      norm_num at hn ⊢
      omega
    rw [toBytes, if_neg hfit, Except.RaisesOnly.error_iff] at h
    exact absurd h (by simp [LibraryError, PyExc.isSCEError])
  · intro h
    refine .of_ok (toBytes_natCast ?_)
    norm_num at h ⊢
    omega

/-- The entries in the order they are encoded in, key before value. -/
def ManifestFields.sortedStrings (P : Platform) (m : ManifestFields) : List PyStr :=
  (sortBy (fun kv => utf8 (P.nfc kv.1)) m.extra).flatMap fun kv => [kv.1, kv.2]

/-- What follows the core fields. -/
theorem entries_raises_iff {m : ManifestFields} {core : Bytes} :
    (do let items ← sortedItems P m.extra
        let count ← toBytes items.length 4
        let entries ← encItems P items
        return MANIFEST_TAG ++ core ++ count ++ entries : Except PyExc Bytes).RaisesOnly
      LibraryError ↔
      (∀ kv ∈ m.extra, HasUtf8 P kv.1) ∧ m.extra.length < 2 ^ 32 ∧
        StopsClean P (m.sortedStrings P) := by
  have hsorted : (sortedItems P m.extra).RaisesOnly LibraryError ↔
      ∀ kv ∈ m.extra, HasUtf8 P kv.1 := bind_pure_raises_iff.trans sortKeys_raises_iff
  have hlen : (sortBy (fun kv => utf8 (P.nfc kv.1)) m.extra).length = m.extra.length :=
    (sortBy_perm _ m.extra).length_eq
  rw [Except.RaisesOnly.bind_iff, hsorted]
  refine and_congr_right fun hkeys => ?_
  have hitems := sortedItems_eq_ok.mpr ⟨hkeys, rfl⟩
  rw [hitems]
  simp only [Except.ok.injEq, forall_eq', Except.RaisesOnly.bind_iff, count_raises_iff, hlen]
  refine and_congr_right fun hcount => ?_
  have hfits : toBytes m.extra.length 4 = .ok (beBytes 4 m.extra.length) := by
    refine toBytes_natCast ?_
    norm_num at hcount ⊢
    omega
  rw [hfits]
  simp only [Except.ok.injEq, forall_eq', encItems_raises_iff, ManifestFields.sortedStrings]
  exact ⟨fun h => h.1, fun h => ⟨h, fun _ _ => .pure _⟩⟩

/-- **No step of `canonical_bytes` that raises an error of its own is reached.**  If all core
fields can be encoded, the sort keys, the count and the entries follow. -/
structure EncodesClean (P : Platform) (m : ManifestFields) : Prop where
  core : StopsClean P (CoreField.all.map m.getattr)
  keys : (∀ f, Encodable P (m.getattr f)) → ∀ kv ∈ m.extra, HasUtf8 P kv.1
  count : (∀ f, Encodable P (m.getattr f)) → m.extra.length < 2 ^ 32
  entries : (∀ f, Encodable P (m.getattr f)) → StopsClean P (m.sortedStrings P)

/-- **When `canonical_bytes` raises only library errors.** -/
theorem canonicalBytes_raises_iff {m : ManifestFields} :
    (m.canonicalBytes P).RaisesOnly LibraryError ↔ EncodesClean P m := by
  rw [ManifestFields.canonicalBytes, Except.RaisesOnly.bind_iff, encCore_raises_iff]
  constructor
  · rintro ⟨hcore, hrest⟩
    have hentries : (∀ f, Encodable P (m.getattr f)) → _ := fun hall =>
      entries_raises_iff.mp (hrest _ (encCore_eq_ok.mpr ⟨fun f _ => hall f, rfl⟩))
    exact ⟨hcore, fun hall => (hentries hall).1, fun hall => (hentries hall).2.1,
      fun hall => (hentries hall).2.2⟩
  · rintro ⟨hcore, hkeys, hcount, hentries⟩
    refine ⟨hcore, fun core hok => ?_⟩
    have hall : ∀ f, Encodable P (m.getattr f) := fun f => (encCore_eq_ok.mp hok).1 f f.mem_all
    exact entries_raises_iff.mpr ⟨hkeys hall, hcount hall, hentries hall⟩

/-! ## 3. The constructor -/

/-- `ModelManifest(...)` on strings and a mapping of strings. -/
def ManifestFields.construct (P : Platform) (m : ManifestFields) : Py (Manifest P) :=
  modelManifest P (.of m.weightsHash) (.of m.quantization) (.of m.kernelBuildId)
    (.of m.tensorParallel) (.of m.numericsMode)
    (.of (m.extra.map fun kv => (.of kv.1, .of kv.2)))

theorem ManifestFields.construct_eq (m : ManifestFields) : m.construct P = m.postInit P := by
  unfold ManifestFields.construct modelManifest
  simp only [requireStr, requireMapping, requireStrItems_of, Logged.liftM_ok, Logged.pure_bind]

/-- Two keys of `extra` are equal after NFC. -/
def KeysCollide (P : Platform) (m : ManifestFields) : Prop :=
  ¬ (m.extra.map fun kv => P.nfc kv.1).Nodup

theorem checkKeys_raises {seen keys : List PyStr} :
    (checkKeys P seen keys).RaisesOnly LibraryError := by
  induction keys generalizing seen with
  | nil => exact .ok ()
  | cons k ks ih => exact .ite (fun _ => .error rfl) fun _ => ih

/-- **Everything the constructor can do with strings.** -/
theorem ManifestFields.construct_cases (m : ManifestFields) :
    (KeysCollide P m ∧ ∃ e, m.construct P = .fail e ∧ LibraryError e) ∨
      (¬ KeysCollide P m ∧ ∃ e, m.canonicalBytes P = .error e ∧ m.construct P = .fail e) ∨
      ¬ KeysCollide P m ∧ ∃ M : Manifest P, M.toManifestFields = m ∧
        m.canonicalBytes P = .ok M.canonical ∧ m.construct P = ⟨[.sha3 M.canonical], .ok M⟩ := by
  have hscan : checkKeys P [] (m.extra.map Prod.fst) = .ok () ↔ ¬ KeysCollide P m := by
    rw [checkKeys_eq_ok, List.map_map, KeysCollide, not_not]
    exact ⟨fun h => h.1, fun h => ⟨h, fun _ _ => List.not_mem_nil⟩⟩
  have hfreeze : ∀ hk r (hr : m.canonicalBytes P = r),
      (∃ e, r = .error e ∧ m.freeze P hk r hr = .fail e) ∨
        ∃ M : Manifest P, M.toManifestFields = m ∧ r = .ok M.canonical ∧
          m.freeze P hk r hr = ⟨[.sha3 M.canonical], .ok M⟩ := by
    intro hk r hr
    cases r with
    | error e => exact .inl ⟨e, rfl, rfl⟩
    | ok canonical =>
      exact .inr ⟨{ m with
        nfcKeys_nodup := hk
        canonical := canonical
        canonicalBytes_eq := hr
        memh := P.sha3_256 canonical
        memh_eq := rfl }, rfl, rfl, rfl⟩
  have hafter : ∀ r (hr : checkKeys P [] (m.extra.map Prod.fst) = r),
      (∃ e, r = .error e ∧ m.afterScan P r hr = .fail e) ∨
        ∃ hk, r = .ok () ∧ m.afterScan P r hr = m.freeze P hk _ rfl := by
    intro r hr
    cases r with
    | error e => exact .inl ⟨e, rfl, rfl⟩
    | ok u => exact .inr ⟨_, rfl, rfl⟩
  rw [m.construct_eq, ManifestFields.postInit]
  rcases hafter _ rfl with ⟨e, he, hrun⟩ | ⟨hk, hok, hrun⟩
  · refine .inl ⟨?_, e, hrun, checkKeys_raises e he⟩
    by_contra hcollide
    exact absurd (he.symm.trans (hscan.mpr hcollide)) (by simp)
  · rw [hrun]
    rcases hfreeze hk _ rfl with ⟨e, he, hfail⟩ | ⟨M, hM, hcanonical, hreturn⟩
    · exact .inr (.inl ⟨hscan.mp hok, e, he, hfail⟩)
    · exact .inr (.inr ⟨hscan.mp hok, M, hM, hcanonical, hreturn⟩)

/-- All strings of a manifest. -/
def ManifestFields.strings (m : ManifestFields) : List PyStr :=
  CoreField.all.map m.getattr ++ m.extra.flatMap fun kv => [kv.1, kv.2]

/-- **What the constructor promises**: a manifest whose fingerprint is the hash of its canonical
bytes, or a library error for one of the documented reasons. -/
structure ConstructionContract (P : Platform) (m : ManifestFields) : Prop where
  returned : ∀ M, (m.construct P).result = .ok M → M.toManifestFields = m ∧
    ∃ b, M.canonicalBytes P = .ok b ∧ M.memh = P.sha3_256 b
  raised : (m.construct P).RaisesOnly LibraryError
  reason : ∀ e, (m.construct P).result = .error e →
    (∃ s ∈ m.strings, TooLong P s) ∨ 2 ^ 32 ≤ m.extra.length ∨ KeysCollide P m ∨
      ∃ s ∈ m.strings, ¬ HasUtf8 P s

/-- Canonical bytes that do not exist are missing for one of the reasons. -/
theorem reason_of_not_hasCanonical {m : ManifestFields} (h : ¬ HasCanonical P m) :
    (∃ s ∈ m.strings, TooLong P s) ∨ 2 ^ 32 ≤ m.extra.length ∨ ∃ s ∈ m.strings, ¬ HasUtf8 P s := by
  by_contra hnone
  obtain ⟨hlong, hcount, hutf8⟩ := by simpa only [not_or] using hnone
  have hall : ∀ s ∈ m.strings, Encodable P s := by
    intro s hs
    exact ⟨not_not.mp fun h => hutf8 ⟨s, hs, h⟩, not_lt.mp fun h => hlong ⟨s, hs, h⟩⟩
  have hentry : ∀ kv ∈ m.extra, ∀ s ∈ [kv.1, kv.2], s ∈ m.strings := fun kv hkv s hs =>
    List.mem_append_right _ (List.mem_flatMap.mpr ⟨kv, hkv, hs⟩)
  refine h ⟨fun f => ?_, fun kv hkv => ⟨?_, ?_⟩, not_le.mp hcount⟩
  · exact hall _ (List.mem_append_left _ (List.mem_map_of_mem f.mem_all))
  · exact hall _ (hentry kv hkv _ List.mem_cons_self)
  · exact hall _ (hentry kv hkv _ (List.mem_cons_of_mem _ List.mem_cons_self))

/-- **When the constructor keeps its promise**: when two keys collide, so that nothing is
encoded, or when no string without a UTF-8 encoding and no oversized count is reached. -/
theorem construction_contract_iff (m : ManifestFields) :
    ConstructionContract P m ↔ KeysCollide P m ∨ EncodesClean P m := by
  rw [← canonicalBytes_raises_iff]
  rcases m.construct_cases (P := P) with ⟨hcollide, e, hrun, he⟩ | ⟨hcollide, e, hbytes, hrun⟩ |
    ⟨hcollide, M, rfl, hbytes, hrun⟩
  · refine iff_of_true ⟨?_, ?_, fun _ _ => .inr (.inr (.inl hcollide))⟩ (.inl hcollide)
    · intro M hM
      rw [hrun] at hM
      exact absurd hM (by simp)
    · rw [hrun]
      exact .fail he
  · rw [or_iff_right hcollide, hbytes, Except.RaisesOnly.error_iff]
    constructor
    · intro h
      exact h.raised e (by rw [hrun]; rfl)
    · intro he
      refine ⟨?_, ?_, fun _ _ => ?_⟩
      · intro M hM
        rw [hrun] at hM
        exact absurd hM (by simp)
      · rw [hrun]
        exact .fail he
      · have hnone : ¬ HasCanonical P m := fun h => by
          rw [canonicalBytes_eq_ok.mpr ⟨h, rfl⟩] at hbytes
          exact absurd hbytes (by simp)
        rcases reason_of_not_hasCanonical hnone with hlong | hcount | hutf8
        · exact .inl hlong
        · exact .inr (.inl hcount)
        · exact .inr (.inr (.inr hutf8))
  · refine iff_of_true ⟨?_, ?_, ?_⟩ (.inr (.of_ok hbytes))
    · intro M' hM'
      rw [hrun] at hM'
      obtain rfl := Except.ok.inj hM'
      exact ⟨rfl, _, hbytes, M.memh_eq⟩
    · rw [hrun]
      exact .ok M
    · intro e he
      rw [hrun] at he
      exact absurd he (by simp)

/-- The toy manifest with a lone surrogate for its weights hash. -/
def toySurrogate : ManifestFields := { toyFields with weightsHash := [0xD800] }

/-- **A lone surrogate escapes as a `UnicodeEncodeError`.** -/
theorem toySurrogate_escapes : ¬ ConstructionContract toy toySurrogate := by
  intro h
  have hrun : (toySurrogate.construct toy).result = .error .unicodeEncodeError := rfl
  exact not_libraryError_unicodeEncodeError (h.raised _ hrun)

end Sce
