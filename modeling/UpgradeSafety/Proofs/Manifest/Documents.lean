import UpgradeSafety.Manifest.Session
import UpgradeSafety.Proofs.Json.RoundTrips
import UpgradeSafety.Proofs.TypeId.ArrayLengths

/-!
# Manifests as documents

What a manifest records is written as a text that is read as the same data, as
far as its numbers fit: lists of members that are unknown stay apart from empty
ones, and entries without an implementation stay. The version is the only
exception, which is raised to the current one when the text is read.
-/

namespace UpgradeSafety

open Json (optionalMember)

/-! ## What can be written -/

structure StorageItem.Fits (item : StorageItem) : Prop where
  slot : item.slot < Numeral.bound256
  offset : item.offset < Numeral.bound64

def TypeKind.Fits : TypeKind → Prop
  | .array _ length => length.Fits
  | _ => True

structure TypeItem.Fits (item : TypeItem) : Prop where
  size : item.numberOfBytes < Numeral.bound256
  kind : item.kind.Fits

structure Layout.Fits (l : Layout) : Prop where
  storage : ∀ item ∈ l.storage, item.Fits
  types : ∀ item ∈ l.types.values, item.Fits

/-- Whether every number in the data is one that its field can have. -/
def ManifestData.Fits (data : ManifestData) : Prop :=
  ∀ i, some i ∈ data.impls.values → i.layout.Fits

/-! ## Reading back -/

lemma StorageItem.ofJson?_toJson {item : StorageItem} (fits : item.Fits) :
    ofJson? item.toJson = some item := by
  have slot := Json.asWord?_ofWord fits.slot
  have offset := Json.asNatural?_natural fits.offset
  obtain ⟨contract, label, type, slot, offset, src, renamedFrom⟩ := item
  cases src <;> cases renamedFrom <;> simp [ofJson?, toJson, optionalMember, slot, offset]

lemma StructMember.ofJson?_toJson (m : StructMember) : ofJson? m.toJson = some m := rfl

lemma ArrayLength.ofJson?_toJson {length : ArrayLength} (fits : length.Fits) :
    ofJson? length.toJson = some length := by
  cases length with
  | fixed n => rw [toJson, ofJson?, Json.asWord?_ofWord fits, Option.map_some]
  | dynamic => rfl

lemma TypeItem.ofJson?_toJson {item : TypeItem} (fits : item.Fits) :
    ofJson? item.toJson = some item := by
  obtain ⟨label, size, kind⟩ := item
  have size := Json.asWord?_ofWord fits.size
  cases kind with
  | value | contract | mapping key value =>
    simp [ofJson?, toJson, TypeKind.members, TypeKind.ofMembers?, size]
  | struct known =>
    have members (ms : List StructMember) :
        Json.asList? StructMember.ofJson? (.array (ms.map StructMember.toJson)) = some ms :=
      Json.asList?_map fun m _ => m.ofJson?_toJson
    cases known <;>
      simp [ofJson?, toJson, TypeKind.members, TypeKind.ofMembers?, optionalMember, size, members]
  | enum known =>
    cases known <;>
      simp [ofJson?, toJson, TypeKind.members, TypeKind.ofMembers?, optionalMember, size]
  | array element length =>
    have length := ArrayLength.ofJson?_toJson fits.kind
    simp [ofJson?, toJson, TypeKind.members, TypeKind.ofMembers?, size, length]

lemma Layout.ofJson?_toJson {l : Layout} (fits : l.Fits) : ofJson? l.toJson = some l := by
  have storage : Json.asList? StorageItem.ofJson? (.array (l.storage.map StorageItem.toJson)) =
      some l.storage :=
    Json.asList?_map fun item stored => StorageItem.ofJson?_toJson (fits.storage item stored)
  have types : Json.asTable? TypeItem.ofJson? (.ofTable TypeItem.toJson l.types) = some l.types :=
    Json.asTable?_ofTable fun item known => TypeItem.ofJson?_toJson (fits.types item known)
  simp [ofJson?, toJson, storage, types]

lemma Deployment.ofJson?_toJson (d : Deployment) : ofJson? d.toJson = some d := by
  obtain ⟨address, txHash⟩ := d
  cases txHash <;> simp [ofJson?, ofMembers?, toJson, toMembers, optionalMember]

lemma Implementation.ofJson?_toJson {i : Implementation} (fits : i.layout.Fits) :
    ofJson? i.toJson = some i := by
  obtain ⟨⟨address, txHash⟩, l⟩ := i
  have layout := Layout.ofJson?_toJson fits
  cases txHash <;>
    simp [ofJson?, toJson, Deployment.ofMembers?, Deployment.toMembers, optionalMember, layout]

lemma ManifestData.ofJson?_toJson {data : ManifestData} (fits : data.Fits) :
    ofJson? data.toJson = some data := by
  have impls : Json.asTable? (Json.asNullable? Implementation.ofJson?)
      (.ofTable (Json.orNull Implementation.toJson) data.impls) = some data.impls :=
    Json.asTable?_ofTable fun entry entered =>
      Json.asNullable?_orNull (fun _ _ => Json.noConfusion) fun i recorded =>
        Implementation.ofJson?_toJson (fits i (by rwa [← recorded]))
  obtain ⟨version, admin, impls⟩ := data
  cases admin with
  | none => simp_all [ofJson?, toJson, optionalMember]
  | some d =>
    have deployment := d.ofJson?_toJson
    rw [Deployment.toJson] at deployment
    simp_all [ofJson?, toJson, optionalMember, Deployment.toJson]

/-! ## The text of a manifest -/

lemma StorageItem.small_toJson {item : StorageItem} (fits : item.Fits) :
    item.toJson.Small 1 := by
  have offset : (Json.natural item.offset).Small 0 := Json.small_natural fits.offset
  cases source : item.src <;> cases renamed : item.renamedFrom <;>
    simp [toJson, optionalMember, source, renamed, offset]

lemma StructMember.small_toJson (m : StructMember) : m.toJson.Small 1 := by
  simp [toJson]

lemma ArrayLength.small_toJson (length : ArrayLength) : length.toJson.Small 1 := by
  cases length <;> simp [toJson]

lemma TypeItem.small_toJson (item : TypeItem) : item.toJson.Small 3 := by
  obtain ⟨label, size, kind⟩ := item
  cases kind with
  | value | contract | mapping key value => simp [toJson, TypeKind.members]
  | struct known =>
    cases known <;> simp [toJson, TypeKind.members, optionalMember, StructMember.small_toJson]
  | enum known => cases known <;> simp [toJson, TypeKind.members, optionalMember]
  | array element length =>
    have small := length.small_toJson.mono (Nat.le_succ 1)
    simp [toJson, TypeKind.members, small]

lemma Layout.small_toJson {l : Layout} (fits : l.Fits) : l.toJson.Small 5 := by
  have storage (item) (stored : item ∈ l.storage) : item.toJson.Small 3 :=
    (StorageItem.small_toJson (fits.storage item stored)).mono (by decide)
  simp [toJson, TypeItem.small_toJson]
  exact storage

lemma Deployment.small_toJson (d : Deployment) : d.toJson.Small 1 := by
  obtain ⟨address, txHash⟩ := d
  cases txHash <;> simp [toJson, toMembers, optionalMember]

lemma Implementation.small_toJson {i : Implementation} (fits : i.layout.Fits) :
    i.toJson.Small 6 := by
  obtain ⟨⟨address, txHash⟩, l⟩ := i
  have layout := Layout.small_toJson fits
  cases txHash <;> simp [toJson, Deployment.toMembers, optionalMember, layout]

lemma ManifestData.small_toJson {data : ManifestData} (fits : data.Fits) :
    data.toJson.Small 8 := by
  have impls : (Json.ofTable (Json.orNull Implementation.toJson) data.impls).Small 7 :=
    Json.small_ofTable.2 fun entry entered => Json.small_orNull.2 fun i recorded =>
      Implementation.small_toJson (fits i (by rwa [← recorded]))
  have admin (d : Deployment) : d.toJson.Small 7 := d.small_toJson.mono (by decide)
  cases owner : data.admin <;> simp [toJson, optionalMember, owner, admin, impls]

/-- The data with the version that is written today. -/
def ManifestData.raised (data : ManifestData) : ManifestData :=
  { data with schemaVersion := currentSchemaVersion }

/-- Whether the version of the data is the current or the previous one. -/
def ManifestData.Supported (data : ManifestData) : Prop :=
  data.schemaVersion = currentSchemaVersion ∨ data.schemaVersion = oldestSchemaVersion

lemma ManifestData.raised_of_current {data : ManifestData}
    (current : data.schemaVersion = currentSchemaVersion) : data.raised = data := by
  rw [raised, ← current]

lemma Migration.version?_toJson (data : ManifestData) :
    version? data.toJson = some data.schemaVersion := by
  simp [version?, versionKey, Json.member?, ManifestData.toJson]

lemma Migration.validate_toJson {data : ManifestData} (supported : data.Supported) :
    validate data.toJson = .ok data.raised.toJson := by
  rw [validate, outcome_eq_ok, on_check]
  rcases supported with current | oldest
  · have parsed : SchemaVersion.parse? currentSchemaVersion = some .current := by decide
    have notOlder : SchemaVersion.current.compare .oldest ≠ .lt := by decide
    have notPrevious : SchemaVersion.current.compare .current ≠ .lt := by decide
    simp [version?_toJson, current, parsed, notOlder, notPrevious,
      ManifestData.raised_of_current current]
  · have parsed : SchemaVersion.parse? oldestSchemaVersion = some .oldest := by decide
    have notOlder : SchemaVersion.oldest.compare .oldest ≠ .lt := by decide
    have previous : SchemaVersion.oldest.compare .current = .lt := by decide
    have raised : withVersion currentSchemaVersion data.toJson = data.raised.toJson := by
      simp [withVersion, ManifestData.toJson, replaceMember, versionKey, ManifestData.raised]
    simp [on_raise, version?_toJson, oldest, parsed, notOlder, previous, raised]

/-- The text that records some data is read as that data, raised to the current version. -/
lemma Session.dataOfText_textOfData {data : ManifestData} (fits : data.Fits)
    (supported : data.Supported) (path : String) :
    dataOfText path (textOfData data) = .ok data.raised := by
  have small := ManifestData.small_toJson fits
  have text : textOfData data = String.ofList (Json.chars Json.pretty 0 data.toJson ++ ['\n']) := by
    rw [textOfData, Json.render, String.ofList_append]
  have shallow : data.toJson.within Json.maxDepth = data.toJson :=
    Json.within_of_depth (Nat.le_trans small.shallow (by decide))
  have document : Json.parseWhole (textOfData data) = some data.toJson := by
    have spaces : ∀ c ∈ ['\n'], Json.isSpace c = true := List.forall_mem_singleton.2 rfl
    rw [Json.parseWhole, text, Json.parse_chars Json.pretty_blank small.plain spaces, shallow,
      Option.bind_some, Json.whole?_of_isPlain small.plain, Option.map_some, small.distinct]
  have raised : data.raised.Fits := fits
  simp only [dataOfText, document, Migration.validate_toJson supported,
    ManifestData.ofJson?_toJson raised]

end UpgradeSafety
