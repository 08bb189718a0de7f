import UpgradeSafety.Proofs.Manifest.Documents
import UpgradeSafety.Proofs.Manifest.SessionRuns

/-!
# What is read from a manifest

Whatever text stands in a manifest, data that are read from it have numbers of the
size of their fields and the current version.
-/

namespace UpgradeSafety

namespace Table

variable {α : Type}

lemma mem_insertEntry {key : String} {value : α} {entries : List (String × α)} {e : String × α}
    (entered : e ∈ insertEntry key value entries) : e = (key, value) ∨ e ∈ entries := by
  induction entries with
  | nil => exact .inl (List.mem_singleton.1 entered)
  | cons first rest ih =>
    obtain ⟨k, v⟩ := first
    rw [insertEntry] at entered
    split at entered
    · exact List.mem_cons.1 entered
    · split at entered
      · rcases List.mem_cons.1 entered with rfl | entered
        · exact .inl rfl
        · exact .inr (List.mem_cons_of_mem _ entered)
      · rcases List.mem_cons.1 entered with rfl | entered
        · exact .inr List.mem_cons_self
        · exact (ih entered).imp_right (List.mem_cons_of_mem _)

/-- A table has no other entries than those that were put into it. -/
lemma mem_ofList {entries : List (String × α)} {e : String × α}
    (entered : e ∈ (ofList entries).entries) : e ∈ entries := by
  have each (entries : List (String × α)) (t : Table α)
      (entered : e ∈ (entries.foldl (fun t e => t.insert e.1 e.2) t).entries) :
      e ∈ t.entries ∨ e ∈ entries := by
    induction entries generalizing t with
    | nil => exact .inl entered
    | cons first rest ih =>
      rcases ih _ entered with inside | behind
      · rcases mem_insertEntry inside with rfl | before
        · exact .inr List.mem_cons_self
        · exact .inl before
      · exact .inr (List.mem_cons_of_mem _ behind)
  exact (each entries empty entered).resolve_left nofun

end Table

namespace Json

variable {α β : Type} {read : Json → Option α}

lemma mem_of_mapM {f : β → Option α} {bs : List β} {as : List α} (all : bs.mapM f = some as) :
    ∀ a ∈ as, ∃ b, f b = some a := by
  induction bs generalizing as with
  | nil =>
    cases all
    exact nofun
  | cons b bs ih =>
    simp only [List.mapM_cons, Option.bind_eq_bind, Option.bind_eq_some_iff, Option.pure_def,
      Option.some.injEq] at all
    obtain ⟨a, here, rest, there, rfl⟩ := all
    intro a' member
    rcases List.mem_cons.1 member with rfl | member
    · exact ⟨b, here⟩
    · exact ih there a' member

lemma mem_of_asList? {j : Json} {as : List α} (h : asList? read j = some as) :
    ∀ a ∈ as, ∃ j, read j = some a := by
  obtain ⟨items, -, all⟩ := Option.bind_eq_some_iff.1 h
  exact mem_of_mapM all

lemma mem_of_asTable? {j : Json} {t : Table α} (h : asTable? read j = some t) :
    ∀ a ∈ t.values, ∃ j, read j = some a := by
  obtain ⟨members, -, h⟩ := Option.bind_eq_some_iff.1 h
  obtain ⟨entries, all, same⟩ := Option.bind_eq_some_iff.1 h
  cases same
  intro a member
  obtain ⟨e, entered, rfl⟩ := List.mem_map.1 member
  obtain ⟨⟨key, j⟩, is⟩ := mem_of_mapM all e (Table.mem_ofList entered)
  obtain ⟨a, is, same⟩ := Option.map_eq_some_iff.1 (show (read j).map (key, ·) = some e from is)
  exact ⟨j, by rw [is, ← same]⟩

lemma lt_of_asWord? {j : Json} {n : Nat} (h : j.asWord? = some n) : n < Numeral.bound256 := by
  obtain ⟨text, -, number⟩ := Option.bind_eq_some_iff.1 h
  unfold Numeral.read? at number
  split at number <;> exact Numeral.ofDigits?_lt number

lemma lt_of_asNatural? {j : Json} {n bound : Nat} (h : asNatural? bound j = some n) :
    n < bound := by
  obtain ⟨i, inside, rfl⟩ := Option.map_eq_some_iff.1 h
  cases j with
  | integer m =>
    simp only [asInteger?] at inside
    split at inside
    · next range =>
      cases inside
      omega
    · cases inside
  | _ => cases inside

lemma required_eq_some {key : String} {ms : Members} {a : α} (h : required read key ms = some a) :
    ∃ j, ms.lookup key = some j ∧ read j = some a := by
  obtain ⟨j, there, is⟩ := Option.bind_eq_some_iff.1 h
  rw [field?] at there
  split at there
  · exact ⟨j, there, is⟩
  · cases there

lemma defaulted_eq_some {key : String} {ms : Members} {default a : α}
    (h : defaulted default read key ms = some a) : a = default ∨ ∃ j, read j = some a := by
  obtain ⟨j, -, is⟩ := Option.bind_eq_some_iff.1 h
  cases j with
  | none => exact .inl (Option.some.inj is).symm
  | some j => exact .inr ⟨j, is⟩

end Json

lemma StorageItem.fits_of_read {j : Json} {item : StorageItem} (read : ofJson? j = some item) :
    item.Fits := by
  simp only [ofJson?, Option.bind_eq_bind, Option.bind_eq_some_iff, Option.pure_def,
    Option.some.injEq] at read
  obtain ⟨ms, -, contract, -, label, -, type, -, slot, hasSlot, offset, hasOffset, src, -,
    renamed, -, rfl⟩ := read
  obtain ⟨_, -, hasSlot⟩ := Json.required_eq_some hasSlot
  obtain ⟨_, -, hasOffset⟩ := Json.required_eq_some hasOffset
  exact ⟨Json.lt_of_asWord? hasSlot, Json.lt_of_asNatural? hasOffset⟩

lemma ArrayLength.fits_of_read {j : Json} {length : ArrayLength} (read : ofJson? j = some length) :
    length.Fits := by
  unfold ofJson? at read
  split at read
  · obtain ⟨n, word, rfl⟩ := Option.map_eq_some_iff.1 read
    exact Json.lt_of_asWord? word
  · split at read
    · cases read
      trivial
    · cases read

lemma TypeKind.fits_of_read {ms : Json.Members} {kind : TypeKind}
    (read : ofMembers? ms = some kind) : kind.Fits := by
  simp only [ofMembers?, Option.bind_eq_bind, Option.bind_eq_some_iff] at read
  obtain ⟨name, -, read⟩ := read
  split at read
  · cases read
    trivial
  · cases read
    trivial
  · obtain ⟨known, -, rfl⟩ := Option.map_eq_some_iff.1 read
    trivial
  · obtain ⟨known, -, rfl⟩ := Option.map_eq_some_iff.1 read
    trivial
  · simp only [Option.bind_eq_some_iff, Option.pure_def, Option.some.injEq] at read
    obtain ⟨key, -, value, -, rfl⟩ := read
    trivial
  · simp only [Option.bind_eq_some_iff, Option.pure_def, Option.some.injEq] at read
    obtain ⟨element, -, length, hasLength, rfl⟩ := read
    obtain ⟨_, -, hasLength⟩ := Json.required_eq_some hasLength
    exact ArrayLength.fits_of_read hasLength
  · cases read

lemma TypeItem.fits_of_read {j : Json} {item : TypeItem} (read : ofJson? j = some item) :
    item.Fits := by
  simp only [ofJson?, Option.bind_eq_bind, Option.bind_eq_some_iff, Option.pure_def,
    Option.some.injEq] at read
  obtain ⟨ms, -, label, -, size, hasSize, kind, hasKind, rfl⟩ := read
  obtain ⟨_, -, hasSize⟩ := Json.required_eq_some hasSize
  exact ⟨Json.lt_of_asWord? hasSize, TypeKind.fits_of_read hasKind⟩

lemma Layout.fits_of_read {j : Json} {l : Layout} (read : ofJson? j = some l) : l.Fits := by
  simp only [ofJson?, Option.bind_eq_bind, Option.bind_eq_some_iff, Option.pure_def,
    Option.some.injEq] at read
  obtain ⟨ms, -, storage, hasStorage, types, hasTypes, rfl⟩ := read
  obtain ⟨_, -, hasStorage⟩ := Json.required_eq_some hasStorage
  obtain ⟨_, -, hasTypes⟩ := Json.required_eq_some hasTypes
  refine ⟨fun item stored => ?_, fun item known => ?_⟩
  · obtain ⟨_, is⟩ := Json.mem_of_asList? hasStorage item stored
    exact StorageItem.fits_of_read is
  · obtain ⟨_, is⟩ := Json.mem_of_asTable? hasTypes item known
    exact TypeItem.fits_of_read is

lemma Implementation.fits_of_read {j : Json} {i : Implementation} (read : ofJson? j = some i) :
    i.layout.Fits := by
  simp only [ofJson?, Option.bind_eq_bind, Option.bind_eq_some_iff, Option.pure_def,
    Option.some.injEq] at read
  obtain ⟨ms, -, deployment, -, layout, hasLayout, rfl⟩ := read
  obtain ⟨_, -, hasLayout⟩ := Json.required_eq_some hasLayout
  exact Layout.fits_of_read hasLayout

lemma Json.asNullable?_eq_some {α : Type} {read : Json → Option α} {j : Json} {a : α}
    (h : asNullable? read j = some (some a)) : read j = some a := by
  unfold asNullable? at h
  split at h
  · cases h
  · obtain ⟨b, is, same⟩ := Option.map_eq_some_iff.1 h
    rwa [← Option.some.inj same]

lemma ManifestData.fits_of_read {j : Json} {data : ManifestData} (read : ofJson? j = some data) :
    data.Fits := by
  simp only [ofJson?, Option.bind_eq_bind, Option.bind_eq_some_iff, Option.pure_def,
    Option.some.injEq] at read
  obtain ⟨ms, -, version, -, admin, -, impls, hasImpls, rfl⟩ := read
  intro i recorded
  rcases Json.defaulted_eq_some hasImpls with rfl | ⟨_, hasImpls⟩
  · cases recorded
  · obtain ⟨j, is⟩ := Json.mem_of_asTable? hasImpls (some i) recorded
    exact Implementation.fits_of_read (Json.asNullable?_eq_some is)

/-- The version of data that are read is the one that their document states, if it states one. -/
lemma ManifestData.version_of_read {j : Json} {data : ManifestData} {version : String}
    (read : ofJson? j = some data) (states : Migration.version? j = some version) :
    data.schemaVersion = version := by
  obtain ⟨stated, member, text⟩ := Option.bind_eq_some_iff.1 states
  obtain ⟨members, object, there⟩ := Option.bind_eq_some_iff.1 member
  cases j with
  | object ms =>
    cases object
    simp only [ofJson?, Option.bind_eq_bind, Json.asRecord?_bind, Option.bind_eq_some_iff,
      Option.pure_def, Option.some.injEq] at read
    obtain ⟨version, hasVersion, admin, -, impls, -, rfl⟩ := read
    obtain ⟨stated', there', text'⟩ := Json.required_eq_some hasVersion
    cases there.symm.trans there'
    exact Option.some.inj (text'.symm.trans text)
  | _ => cases object

namespace Migration

lemma lookup_replaceMember {key : String} {value j : Json} {ms : Json.Members}
    (there : ms.lookup key = some j) : (replaceMember key value ms).lookup key = some value := by
  induction ms with
  | nil => cases there
  | cons m ms ih =>
    obtain ⟨k, v⟩ := m
    rw [replaceMember]
    rw [Json.lookup_member] at there
    by_cases same : key = k
    · rw [if_pos same.symm, Json.lookup_member, if_pos same]
    · rw [if_neg (Ne.symm same), Json.lookup_member, if_neg same]
      rw [if_neg same] at there
      exact ih there

lemma version?_withVersion {document : Json} {version before : String}
    (states : version? document = some before) :
    version? (withVersion version document) = some version := by
  obtain ⟨j, member, -⟩ := Option.bind_eq_some_iff.1 states
  obtain ⟨ms, object, there⟩ := Option.bind_eq_some_iff.1 member
  cases document with
  | object members =>
    cases object
    rw [withVersion, version?, Json.member?, Json.asObject?_bind, lookup_replaceMember there]
    rfl
  | _ => cases object

/-- A document that is taken has the current version. -/
lemma version?_of_validate {document document' : Json} (valid : validate document = .ok document') :
    version? document' = some currentSchemaVersion := by
  rw [validate, outcome_eq_ok, on_check] at valid
  split at valid
  · cases valid
  · next version states =>
    split at valid
    · cases valid
    · next parsed _ =>
      split at valid
      · cases valid
      · split at valid
        · simp only [on_raise, states] at valid
          split at valid
          · cases valid
            exact version?_withVersion states
          · cases valid
        · split at valid
          · next current =>
            cases valid
            rw [states, current]
          · cases valid

end Migration

/-- Data that are read have numbers that fit and the current version. -/
theorem Session.current_of_read {path : String} {reading : Reading} {data : ManifestData}
    (read : dataOfReading path reading = .ok data) :
    data.Fits ∧ data.schemaVersion = currentSchemaVersion := by
  cases reading with
  | absent =>
    cases read
    exact ⟨nofun, rfl⟩
  | unreadable => cases read
  | text content =>
    simp only [dataOfReading, dataOfText] at read
    split at read
    · cases read
    · split at read
      · cases read
      · next document valid =>
        split at read
        · cases read
        · next data' is =>
          cases read
          exact ⟨ManifestData.fits_of_read is,
            ManifestData.version_of_read is (Migration.version?_of_validate valid)⟩

end UpgradeSafety
