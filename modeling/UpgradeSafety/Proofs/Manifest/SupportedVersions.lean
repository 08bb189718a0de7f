import Mathlib.Data.List.Forall2
import UpgradeSafety.Manifest.SchemaVersion
import UpgradeSafety.Proofs.Texts

/-!
# Which versions are supported

A manifest is taken if it states one of the two supported versions by its own spelling, and
nothing but the version of the older one is changed. Every other manifest is left as it is, and
the reason tells versions by their numbers, however these are spelled.
-/

namespace UpgradeSafety

/-! ## Numbers with dots between them -/

lemma Numeral.mapM_read?_eq_some_iff {bound : Nat} {parts : List (List Char)}
    {numbers : List Nat} :
    parts.mapM (read? bound) = some numbers ↔ List.Forall₂ (Spells bound) parts numbers := by
  induction parts generalizing numbers with
  | nil => simp [eq_comm]
  | cons part parts ih =>
    simp only [List.mapM_cons, Option.bind_eq_bind, Option.bind_eq_some_iff, read?_eq_some_iff, ih,
      Option.pure_def, Option.some.injEq, List.forall₂_cons_left_iff]
    constructor
    · rintro ⟨n, first, rest, others, rfl⟩
      exact ⟨n, rest, first, others, rfl⟩
    · rintro ⟨n, rest, first, others, rfl⟩
      exact ⟨n, first, rest, others, rfl⟩

namespace SchemaVersion

open Numeral (bound64)

/-- One to three numbers with dots between them; the ones that are missing count as zero. -/
inductive Spells : List Char → SchemaVersion → Prop where
  | one {a : List Char} {major : Nat} (first : Numeral.Spells bound64 a major) :
      Spells a ⟨major, 0, 0⟩
  | two {a b : List Char} {major minor : Nat} (first : Numeral.Spells bound64 a major)
      (second : Numeral.Spells bound64 b minor) : Spells (a ++ '.' :: b) ⟨major, minor, 0⟩
  | three {a b c : List Char} {major minor patch : Nat} (first : Numeral.Spells bound64 a major)
      (second : Numeral.Spells bound64 b minor) (third : Numeral.Spells bound64 c patch) :
      Spells (a ++ '.' :: b ++ '.' :: c) ⟨major, minor, patch⟩

/-- The first number that differs is less. -/
def Below (a b : SchemaVersion) : Prop :=
  a.major < b.major ∨ a.major = b.major ∧
    (a.minor < b.minor ∨ a.minor = b.minor ∧ a.patch < b.patch)

/-- What is below the oldest version is below the current one. -/
lemma Below.oldest {v : SchemaVersion} (h : v.Below ⟨3, 0, 0⟩) : v.Below ⟨3, 1, 0⟩ := by
  simp only [Below] at *
  omega

lemma compare_eq_lt_iff {a b : SchemaVersion} : a.compare b = .lt ↔ a.Below b := by
  rw [compare, Below, Ordering.then_eq_lt, Ordering.then_eq_lt]
  simp only [Nat.compare_eq_lt, Nat.compare_eq_eq]

/-- What is between the dots is read, if it is one to three numbers. -/
lemma numbers_eq_some_iff {text : List Char} {v : SchemaVersion} :
    ((Text.splitOn '.' text).mapM (Numeral.read? bound64)).bind ofNumbers? = some v ↔
      Spells text v := by
  constructor
  · intro read
    obtain ⟨numbers, read, made⟩ := Option.bind_eq_some_iff.1 read
    have spelled := Numeral.mapM_read?_eq_some_iff.1 read
    have cuts := Text.cuts_splitOn '.' text
    generalize Text.splitOn '.' text = parts at spelled cuts
    unfold ofNumbers? at made
    split at made
    · cases made
      obtain _ | ⟨first, ⟨⟩⟩ := spelled
      obtain _ | ⟨_, ⟨⟩⟩ := cuts
      exact .one first
    · cases made
      obtain _ | ⟨first, _ | ⟨second, ⟨⟩⟩⟩ := spelled
      obtain _ | ⟨_, _ | ⟨_, ⟨⟩⟩⟩ := cuts
      exact .two first second
    · cases made
      obtain _ | ⟨first, _ | ⟨second, _ | ⟨third, ⟨⟩⟩⟩⟩ := spelled
      obtain _ | ⟨_, _ | ⟨_, _ | ⟨_, ⟨⟩⟩⟩⟩ := cuts
      simpa using Spells.three first second third
    · cases made
  · have dotless {n : Nat} {part : List Char} (h : Numeral.Spells bound64 part n) : '.' ∉ part :=
      h.not_mem rfl (by decide)
    have pieces {parts : List (List Char)} {numbers : List Nat} (cuts : Text.Cuts '.' text parts)
        (spelled : List.Forall₂ (Numeral.Spells bound64) parts numbers) :
        (Text.splitOn '.' text).mapM (Numeral.read? bound64) = some numbers := by
      rw [cuts.splitOn_eq]
      exact Numeral.mapM_read?_eq_some_iff.2 spelled
    intro spelled
    cases spelled with
    | one first =>
      rw [pieces (.last (dotless first)) (.cons first .nil)]
      rfl
    | two first second =>
      rw [pieces (.next (dotless first) (.last (dotless second))) (.cons first (.cons second .nil))]
      rfl
    | three first second third =>
      rw [List.append_assoc, List.cons_append] at pieces ⊢
      rw [pieces
        (.next (dotless first) (.next (dotless second) (.last (dotless third))))
        (.cons first (.cons second (.cons third .nil)))]
      rfl

lemma parse?_eq_some_iff {text : String} {v : SchemaVersion} :
    parse? text = some v ↔ Spells text.toList v := numbers_eq_some_iff

/-- A text spells one version only. -/
lemma Spells.unique {text : List Char} {v w : SchemaVersion} (hv : Spells text v)
    (hw : Spells text w) : v = w :=
  Option.some_inj.1 ((numbers_eq_some_iff.2 hv).symm.trans (numbers_eq_some_iff.2 hw))

end SchemaVersion

/-! ## Documents and their versions -/

namespace Migration

open Json (Members)

/-- An object that states a version among its members. -/
def stating (front back : Members) (version : String) : Json :=
  .object (front ++ ("manifestVersion", .string version) :: back)

/-- A document states a version, with other members in front of it and behind it. -/
def States (document : Json) (front back : Members) (version : String) : Prop :=
  "manifestVersion" ∉ front.map Prod.fst ∧ document = stating front back version

variable {document : Json} {front back : Members} {version : String}

lemma version?_eq_some_iff :
    version? document = some version ↔ ∃ front back, States document front back version := by
  have string {j : Json} : j.asString? = some version ↔ j = .string version := by
    cases j <;> simp [Json.asString?]
  simp only [version?, Json.member?, Option.bind_eq_some_iff, string]
  constructor
  · rintro ⟨_, ⟨ms, object, there⟩, rfl⟩
    obtain ⟨front, back, rfl, absent⟩ := List.lookup_eq_some_iff.1 there
    cases document with
    | object members =>
      cases object
      refine ⟨front, back, fun mem => ?_, rfl⟩
      obtain ⟨m, mem, same⟩ := List.mem_map.1 mem
      simpa [versionKey, same] using absent m mem
    | _ => cases object
  · rintro ⟨front, back, absent, rfl⟩
    refine ⟨_, ⟨_, rfl, List.lookup_eq_some_iff.2 ⟨front, back, rfl, fun m mem => ?_⟩⟩, rfl⟩
    simp only [bne_iff_ne, ne_eq]
    rintro same
    exact absent (List.mem_map.2 ⟨m, mem, same.symm⟩)

lemma version?_of_states (states : States document front back version) :
    version? document = some version := version?_eq_some_iff.2 ⟨front, back, states⟩

/-- A new version takes the place of the old one. -/
lemma withVersion_of_states (states : States document front back version) (new : String) :
    withVersion new document = stating front back new := by
  obtain ⟨absent, rfl⟩ := states
  rw [stating, withVersion, stating]
  congr 1
  induction front with
  | nil => rfl
  | cons m front ih =>
    rw [List.map_cons, List.mem_cons, not_or] at absent
    have other : m.1 ≠ versionKey := Ne.symm absent.1
    rw [List.cons_append, replaceMember, if_neg other, ih absent.2]
    rfl

/-! ## The check -/

open SchemaVersion (Spells)

/-- How a document that states a version is answered. -/
inductive Answer (front back : Members) (version : String) :
    Except ManifestError Unit × Json → Prop where
  | unread (unspelled : ∀ v, ¬ Spells version.toList v) :
      Answer front back version (.error (.unknownVersion version), stating front back version)
  | legacy {v : SchemaVersion} (spelled : Spells version.toList v) (old : v.Below ⟨3, 0, 0⟩) :
      Answer front back version (.error (.legacy version), stating front back version)
  | raised {v : SchemaVersion} (spelled : Spells version.toList v) (supported : ¬ v.Below ⟨3, 0, 0⟩)
      (older : v.Below ⟨3, 1, 0⟩) (previous : version = "3.0") :
      Answer front back version (.ok (), stating front back "3.1")
  | older {v : SchemaVersion} (spelled : Spells version.toList v) (supported : ¬ v.Below ⟨3, 0, 0⟩)
      (older : v.Below ⟨3, 1, 0⟩) (other : version ≠ "3.0") :
      Answer front back version (.error (.migrationUnavailable version), stating front back version)
  | latest {v : SchemaVersion} (spelled : Spells version.toList v) (newer : ¬ v.Below ⟨3, 1, 0⟩)
      (current : version = "3.1") : Answer front back version (.ok (), stating front back version)
  | newer {v : SchemaVersion} (spelled : Spells version.toList v) (newer : ¬ v.Below ⟨3, 1, 0⟩)
      (other : version ≠ "3.1") :
      Answer front back version (.error (.unknownVersion version), stating front back version)

lemma answer_of_states (states : States document front back version) :
    Answer front back version (on check document) := by
  have stated := version?_of_states states
  have raised := withVersion_of_states states "3.1"
  rw [on_check, on_raise, stated, states.2] at *
  dsimp only
  cases read : SchemaVersion.parse? version with
  | none =>
    refine .unread fun v spelled => ?_
    rw [SchemaVersion.parse?_eq_some_iff.2 spelled] at read
    cases read
  | some v =>
    have spelled := SchemaVersion.parse?_eq_some_iff.1 read
    dsimp only
    split
    · next old => exact .legacy spelled (SchemaVersion.compare_eq_lt_iff.1 old)
    next supported =>
    split
    · next older =>
      have supported := mt SchemaVersion.compare_eq_lt_iff.2 supported
      have older := SchemaVersion.compare_eq_lt_iff.1 older
      split
      · next previous =>
        rw [show currentSchemaVersion = "3.1" from rfl, raised]
        exact .raised spelled supported older previous
      · next other => exact .older spelled supported older other
    · next newer =>
      have newer := mt SchemaVersion.compare_eq_lt_iff.2 newer
      split
      · next current => exact .latest spelled newer current
      · next other => exact .newer spelled newer other

variable {answer answer' : Except ManifestError Unit × Json}

/-- The answers exclude one another. -/
lemma Answer.unique (first : Answer front back version answer)
    (second : Answer front back version answer') : answer = answer' := by
  have same {v w} (hv : Spells version.toList v) (hw : Spells version.toList w) := hv.unique hw
  have oldest {v : SchemaVersion} (h : v.Below ⟨3, 0, 0⟩) := h.oldest
  cases first <;> cases second <;> grind

lemma Answer.accepted_iff (h : Answer front back version answer) :
    answer.1 = .ok () ↔ version = "3.0" ∨ version = "3.1" := by
  constructor
  · intro accepted
    cases h with
    | raised _ _ _ previous => exact .inl previous
    | latest _ _ current => exact .inr current
    | _ => cases accepted
  · rintro (previous | current)
    · have spelled : Spells version.toList ⟨3, 0, 0⟩ :=
        SchemaVersion.parse?_eq_some_iff.1 (by subst previous; decide)
      rw [h.unique (.raised spelled (by simp [SchemaVersion.Below])
        (by simp [SchemaVersion.Below]) previous)]
    · have spelled : Spells version.toList ⟨3, 1, 0⟩ :=
        SchemaVersion.parse?_eq_some_iff.1 (by subst current; decide)
      rw [h.unique (.latest spelled (by simp [SchemaVersion.Below]) current)]

lemma Answer.unknown_iff (h : Answer front back version answer) :
    answer.1 = .error (.unknownVersion version) ↔ (∀ v, ¬ Spells version.toList v) ∨
      ∃ v, Spells version.toList v ∧ ¬ v.Below ⟨3, 1, 0⟩ ∧ version ≠ "3.1" := by
  constructor
  · intro refused
    cases h with
    | unread unspelled => exact .inl unspelled
    | newer spelled newer other => exact .inr ⟨_, spelled, newer, other⟩
    | _ => cases refused
  · rintro (unspelled | ⟨v, spelled, newer, other⟩)
    · rw [h.unique (.unread unspelled)]
    · rw [h.unique (.newer spelled newer other)]

lemma Answer.legacy_iff (h : Answer front back version answer) :
    answer.1 = .error (.legacy version) ↔ ∃ v, Spells version.toList v ∧ v.Below ⟨3, 0, 0⟩ := by
  constructor
  · intro refused
    cases h with
    | legacy spelled old => exact ⟨_, spelled, old⟩
    | _ => cases refused
  · rintro ⟨v, spelled, old⟩
    rw [h.unique (.legacy spelled old)]

lemma Answer.older_iff (h : Answer front back version answer) :
    answer.1 = .error (.migrationUnavailable version) ↔ ∃ v, Spells version.toList v ∧
      ¬ v.Below ⟨3, 0, 0⟩ ∧ v.Below ⟨3, 1, 0⟩ ∧ version ≠ "3.0" := by
  constructor
  · intro refused
    cases h with
    | older spelled supported older other => exact ⟨_, spelled, supported, older, other⟩
    | _ => cases refused
  · rintro ⟨v, spelled, supported, older, other⟩
    rw [h.unique (.older spelled supported older other)]

/-- The version becomes the current one, unless the document is refused. -/
lemma Answer.after (h : Answer front back version answer) :
    answer.2 = stating front back (if answer.1 = .ok () then "3.1" else version) := by
  cases h with
  | latest _ _ current => rw [if_pos rfl, current]
  | raised => rw [if_pos rfl]
  | _ => rw [if_neg nofun]

lemma Answer.not_missing (h : Answer front back version answer) :
    answer.1 ≠ .error .missingVersion := by
  cases h <;> nofun

lemma on_check_of_unstated (unstated : ¬ ∃ front back version, States document front back version) :
    on check document = (.error .missingVersion, document) := by
  have none : version? document = none := by
    rw [Option.eq_none_iff_forall_ne_some]
    exact fun version stated => unstated
      ((version?_eq_some_iff.1 stated).imp fun front ⟨back, states⟩ => ⟨back, version, states⟩)
  rw [on_check, none]

lemma missing_iff : (on check document).1 = .error .missingVersion ↔
    ¬ ∃ front back version, States document front back version := by
  constructor
  · rintro missing ⟨front, back, version, states⟩
    exact (answer_of_states states).not_missing missing
  · exact fun unstated => by rw [on_check_of_unstated unstated]

/-- Only a document that states a version is taken. -/
lemma stated_of_accepted (accepted : (on check document).1 = .ok ()) :
    ∃ front back version, States document front back version := by
  by_contra unstated
  rw [missing_iff.2 unstated] at accepted
  cases accepted

lemma accepted_iff : (on check document).1 = .ok () ↔ ∃ front back version,
    States document front back version ∧ (version = "3.0" ∨ version = "3.1") := by
  constructor
  · intro accepted
    obtain ⟨front, back, version, states⟩ := stated_of_accepted accepted
    exact ⟨front, back, version, states, (answer_of_states states).accepted_iff.1 accepted⟩
  · rintro ⟨front, back, version, states, supported⟩
    exact (answer_of_states states).accepted_iff.2 supported

lemma kept_of_refused {e : ManifestError} (refused : (on check document).1 = .error e) :
    (on check document).2 = document := by
  by_cases stated : ∃ front back version, States document front back version
  · obtain ⟨front, back, version, states⟩ := stated
    rw [(answer_of_states states).after, refused, if_neg nofun, states.2]
  · rw [on_check_of_unstated stated]

/-- A refusal is about the version. -/
lemma validate_not_contended {path : String} {attempts : Nat} :
    validate document ≠ .error (.lockContention path attempts) := by
  intro refused
  have refused : (on check document).1 = .error (.lockContention path attempts) := by
    rw [validate, outcome] at refused
    split at refused
    · cases refused
    · next e after failed =>
      rw [failed, Except.error.inj refused]
  by_cases stated : ∃ front back version, States document front back version
  · obtain ⟨front, back, version, states⟩ := stated
    have answer := answer_of_states states
    generalize on check document = out at answer refused
    cases answer <;> cases refused
  · rw [on_check_of_unstated stated] at refused
    cases refused

lemma raised_of_accepted (states : States document front back version)
    (accepted : (on check document).1 = .ok ()) :
    (on check document).2 = stating front back "3.1" := by
  rw [(answer_of_states states).after, if_pos accepted]

lemma check_again (accepted : (on check document).1 = .ok ()) :
    on check (on check document).2 = (.ok (), (on check document).2) := by
  obtain ⟨front, back, version, states⟩ := stated_of_accepted accepted
  rw [raised_of_accepted states accepted]
  have current : States (stating front back "3.1") front back "3.1" := ⟨states.1, rfl⟩
  have again := (answer_of_states current).accepted_iff.2 (.inr rfl)
  exact Prod.ext again (raised_of_accepted current again)

/-- The check takes a document just if that states a supported version in the spelling of that
version, and then nothing but the version is another one afterwards, which the check takes once
more. It leaves every other document as it is, and the error is the one for the numbers of the
version. -/
theorem versions_gated (document : Json) :
    ((on check document).1 = .ok () ↔ ∃ front back version,
      States document front back version ∧ (version = "3.0" ∨ version = "3.1")) ∧
    ((on check document).1 = .error .missingVersion ↔
      ¬ ∃ front back version, States document front back version) ∧
    (∀ front back version, States document front back version →
      ((on check document).1 = .ok () → (on check document).2 = stating front back "3.1") ∧
      ((on check document).1 = .error (.unknownVersion version) ↔
        (∀ v, ¬ Spells version.toList v) ∨
          ∃ v, Spells version.toList v ∧ ¬ v.Below ⟨3, 1, 0⟩ ∧ version ≠ "3.1") ∧
      ((on check document).1 = .error (.legacy version) ↔
        ∃ v, Spells version.toList v ∧ v.Below ⟨3, 0, 0⟩) ∧
      ((on check document).1 = .error (.migrationUnavailable version) ↔
        ∃ v, Spells version.toList v ∧
          ¬ v.Below ⟨3, 0, 0⟩ ∧ v.Below ⟨3, 1, 0⟩ ∧ version ≠ "3.0")) ∧
    (∀ e, (on check document).1 = .error e → (on check document).2 = document) ∧
    ((on check document).1 = .ok () →
      on check (on check document).2 = (.ok (), (on check document).2)) := by
  refine ⟨accepted_iff, missing_iff, fun front back version states => ?_,
    fun e => kept_of_refused, check_again⟩
  have answer := answer_of_states states
  exact ⟨raised_of_accepted states, answer.unknown_iff, answer.legacy_iff, answer.older_iff⟩

/-- The previous version is raised in its place, but not in another spelling. -/
theorem previous_version_gated :
    (on check (stating [("admin", .null)] [("impls", .null)] "3.0")).2 =
      stating [("admin", .null)] [("impls", .null)] "3.1" ∧
    (on check (stating [] [] "+3.00")).1 = .error (.migrationUnavailable "+3.00") := by
  have first : States (stating [("admin", .null)] [("impls", .null)] "3.0")
    [("admin", .null)] [("impls", .null)] "3.0" := ⟨by decide, rfl⟩
  have second : States (stating [] [] "+3.00") [] [] "+3.00" := ⟨by decide, rfl⟩
  have taken := (versions_gated _).1.2 ⟨_, _, _, first, .inl rfl⟩
  refine ⟨((versions_gated _).2.2.1 _ _ _ first).1 taken,
    ((versions_gated _).2.2.1 _ _ _ second).2.2.2.2 ⟨⟨3, 0, 0⟩, ?_, ?_, ?_, by decide⟩⟩
  · exact SchemaVersion.parse?_eq_some_iff.1 (by decide)
  · simp [SchemaVersion.Below]
  · simp [SchemaVersion.Below]

end Migration

end UpgradeSafety
