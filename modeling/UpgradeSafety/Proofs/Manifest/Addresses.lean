import UpgradeSafety.Proofs.Manifest.Documents
import UpgradeSafety.Proofs.Manifest.Scripts
import UpgradeSafety.Proofs.Tables

/-!
# Addresses compared by value

Two addresses are the same if they write the same bytes in hexadecimal, so that neither the case of
the letters nor `0x` in front matters, or if they are the same text. An implementation is looked up
by any of the texts for its address.
-/

namespace UpgradeSafety

open Json (hexValue? hexDigit)

/-! ## Hexadecimal digits -/

/-- A hexadecimal digit, in either case. -/
def HexDigit (c : Char) : Prop :=
  ('0' ≤ c ∧ c ≤ '9') ∨ ('a' ≤ c ∧ c ≤ 'f') ∨ ('A' ≤ c ∧ c ≤ 'F')

lemma hexValue?_isSome_iff {c : Char} : (hexValue? c).isSome = true ↔ HexDigit c := by
  unfold hexValue? HexDigit
  grind

/-- The letters and digits are found among the first characters. -/
lemma toNat_lt_of_hexDigit {c : Char} (digit : HexDigit c) : c.toNat < 128 := by
  rcases digit with ⟨_, below⟩ | ⟨_, below⟩ | ⟨_, below⟩ <;>
    exact lt_of_le_of_lt (Char.le_def.1 below) (by decide)

lemma toLower_of_hexValue? {c : Char} {n : Nat} (value : hexValue? c = some n) :
    n < 16 ∧ c.toLower = hexDigit n := by
  have all : ∀ m < 128, (hexValue? (Char.ofNat m)).all fun n =>
      n < 16 ∧ (Char.ofNat m).toLower = hexDigit n := by decide
  have digit : HexDigit c := hexValue?_isSome_iff.1 (Option.isSome_of_eq_some value)
  have here := all c.toNat (toNat_lt_of_hexDigit digit)
  rw [Char.ofNat_toNat, value] at here
  simpa using here

/-! ## Bytes in hexadecimal -/

/-- The bytes that pairs of hexadecimal digits write. -/
def hexBytes? : List Char → Option (List UInt8)
  | [] => some []
  | [_] => none
  | high :: low :: rest => do
    let high ← hexValue? high
    let low ← hexValue? low
    return UInt8.ofNat (16 * high + low) :: (← hexBytes? rest)

/-- The digits that write some bytes. -/
def hexText : List UInt8 → List Char
  | [] => []
  | byte :: bytes => hexDigit (byte.toNat / 16) :: hexDigit (byte.toNat % 16) :: hexText bytes

variable {text text' : List Char} {bytes bytes' : List UInt8}

/-- Exactly the texts of whole bytes are decoded. -/
lemma hexBytes?_isSome_iff :
    (hexBytes? text).isSome = true ↔ text.length % 2 = 0 ∧ ∀ c ∈ text, HexDigit c := by
  fun_induction hexBytes? text with
  | case1 => simp
  | case2 c => simp
  | case3 high low rest ih =>
    have length : (high :: low :: rest).length % 2 = rest.length % 2 := by
      simp [Nat.add_assoc]
    rw [length, List.forall_mem_cons, List.forall_mem_cons, ← hexValue?_isSome_iff,
      ← hexValue?_isSome_iff]
    cases hexValue? high <;> cases hexValue? low <;> cases decoded : hexBytes? rest <;>
      simp_all

lemma hexBytes?_hexText (bytes : List UInt8) : hexBytes? (hexText bytes) = some bytes := by
  induction bytes with
  | nil => rfl
  | cons byte bytes ih =>
    have bound : byte.toNat < 256 := byte.toNat_lt_size
    have whole : 16 * (byte.toNat / 16) + byte.toNat % 16 = byte.toNat := by omega
    have high := Json.hexValue?_hexDigit (byte.toNat / 16) (by omega)
    have low := Json.hexValue?_hexDigit (byte.toNat % 16) (by omega)
    simp only [hexText, hexBytes?, high, low, ih, Option.bind_eq_bind, Option.bind_some, whole,
      UInt8.ofNat_toNat, Option.pure_def]

/-- The first byte of a text is that of its first two digits. -/
lemma hexBytes?_pair {high low : Char} (decoded : hexBytes? (high :: low :: text) = some bytes) :
    ∃ h l rest, hexValue? high = some h ∧ hexValue? low = some l ∧ hexBytes? text = some rest ∧
      bytes = UInt8.ofNat (16 * h + l) :: rest := by
  rw [hexBytes?] at decoded
  obtain ⟨h, value, decoded⟩ := Option.bind_eq_some_iff.1 decoded
  obtain ⟨l, value', decoded⟩ := Option.bind_eq_some_iff.1 decoded
  obtain ⟨rest, decoded', ⟨⟩⟩ := Option.bind_eq_some_iff.1 decoded
  exact ⟨h, l, rest, value, value', decoded', rfl⟩

/-- In lower case, a text is the one that is written for its bytes. -/
lemma toLower_of_hexBytes? (decoded : hexBytes? text = some bytes) :
    text.map Char.toLower = hexText bytes := by
  induction text using hexBytes?.induct generalizing bytes with
  | case1 =>
    cases decoded
    rfl
  | case2 c => cases decoded
  | case3 high low rest ih =>
    obtain ⟨h, l, others, value, value', decoded', rfl⟩ := hexBytes?_pair decoded
    obtain ⟨small, lower⟩ := toLower_of_hexValue? value
    obtain ⟨small', lower'⟩ := toLower_of_hexValue? value'
    have byte : (UInt8.ofNat (16 * h + l)).toNat = 16 * h + l :=
      UInt8.toNat_ofNat_of_lt (by change _ < 256; omega)
    have halves : (16 * h + l) / 16 = h ∧ (16 * h + l) % 16 = l := by omega
    rw [hexText, byte, halves.1, halves.2, ← lower, ← lower', ← ih decoded']
    rfl

/-- Texts of whole bytes have the same bytes exactly if they differ in the case of letters only. -/
lemma hexBytes?_eq_iff (decoded : hexBytes? text = some bytes)
    (decoded' : hexBytes? text' = some bytes') :
    bytes = bytes' ↔ text.map Char.toLower = text'.map Char.toLower := by
  rw [toLower_of_hexBytes? decoded, toLower_of_hexBytes? decoded']
  refine ⟨congrArg hexText, fun same => ?_⟩
  have read := hexBytes?_hexText bytes
  rw [same, hexBytes?_hexText] at read
  exact (Option.some.inj read).symm

/-! ## The bytes of an address -/

/-- The bytes that an address writes behind an optional `0x`. -/
def addressBytes? (address : String) : Option (List UInt8) :=
  hexBytes? (addressDigits address.toList)

lemma toLower_of_values {values : List Nat} (decoded : text.mapM hexValue? = some values) :
    text.map Char.toLower = values.map hexDigit ∧
      (values.map hexDigit).mapM hexValue? = some values := by
  induction text generalizing values with
  | nil =>
    cases decoded
    exact ⟨rfl, rfl⟩
  | cons c text ih =>
    rw [List.mapM_cons] at decoded
    obtain ⟨n, value, decoded⟩ := Option.bind_eq_some_iff.1 decoded
    obtain ⟨others, decoded', ⟨⟩⟩ := Option.bind_eq_some_iff.1 decoded
    obtain ⟨small, lower⟩ := toLower_of_hexValue? value
    obtain ⟨texts, again⟩ := ih decoded'
    refine ⟨by rw [List.map_cons, List.map_cons, lower, texts], ?_⟩
    rw [List.map_cons, List.mapM_cons, Json.hexValue?_hexDigit n small, again]
    rfl

lemma mapM_hexValue?_isSome_iff :
    (text.mapM hexValue?).isSome = true ↔ ∀ c ∈ text, HexDigit c := by
  induction text with
  | nil => simp
  | cons c text ih =>
    rw [List.mapM_cons, List.forall_mem_cons, ← ih, ← hexValue?_isSome_iff]
    cases hexValue? c <;> cases text.mapM hexValue? <;> simp

variable {a b : String}

/-- An address has digits for whole bytes just if it has bytes. -/
lemma addressValue?_eq_none_iff : addressValue? a = none ↔ addressBytes? a = none := by
  rw [← Option.not_isSome_iff_eq_none, ← Option.not_isSome_iff_eq_none, addressBytes?,
    hexBytes?_isSome_iff, ← mapM_hexValue?_isSome_iff, addressValue?]
  by_cases whole : (addressDigits a.toList).length % 2 = 0 <;> simp [whole]

lemma toLower_of_addressValue? {values : List Nat} (decoded : addressValue? a = some values) :
    (addressDigits a.toList).map Char.toLower = values.map hexDigit ∧
      (values.map hexDigit).mapM hexValue? = some values := by
  rw [addressValue?] at decoded
  by_cases whole : (addressDigits a.toList).length % 2 = 0
  · exact toLower_of_values (by simpa [whole] using decoded)
  · simp [whole] at decoded

lemma addressValue?_eq_iff {values values' : List Nat} (decoded : addressValue? a = some values)
    (decoded' : addressValue? b = some values') :
    values = values' ↔ (addressDigits a.toList).map Char.toLower =
      (addressDigits b.toList).map Char.toLower := by
  obtain ⟨lower, read⟩ := toLower_of_addressValue? decoded
  obtain ⟨lower', read'⟩ := toLower_of_addressValue? decoded'
  rw [lower, lower']
  refine ⟨congrArg _, fun same => ?_⟩
  rw [same, read'] at read
  exact (Option.some.inj read).symm

/-- Two addresses have the same bytes, or are the same text if one of them has no bytes. -/
inductive SameAddress (a b : String) : Prop where
  | bytes {bytes : List UInt8} (left : addressBytes? a = some bytes)
      (right : addressBytes? b = some bytes)
  | text (noBytes : addressBytes? a = none ∨ addressBytes? b = none) (same : a = b)

lemma SameAddress.equivalence : Equivalence SameAddress where
  refl a := by
    cases decoded : addressBytes? a with
    | none => exact .text (.inl decoded) rfl
    | some bytes => exact .bytes decoded decoded
  symm
    | .bytes left right => .bytes right left
    | .text noBytes same => .text noBytes.symm same.symm
  trans := by
    rintro a b c (⟨left, right⟩ | ⟨_, rfl⟩) second
    · obtain ⟨left', right'⟩ | ⟨_, rfl⟩ := second
      · exact .bytes left (right'.trans (left'.symm.trans right))
      · exact .bytes left right
    · exact second

lemma SameAddress.iff_text (noBytes : addressBytes? a = none ∨ addressBytes? b = none) :
    SameAddress a b ↔ a = b := by
  refine ⟨fun same => ?_, .text noBytes⟩
  obtain ⟨left, right⟩ | ⟨_, same⟩ := same
  · simp [left, right] at noBytes
  · exact same

lemma SameAddress.iff_bytes (left : addressBytes? a = some bytes)
    (right : addressBytes? b = some bytes') : SameAddress a b ↔ bytes = bytes' := by
  constructor
  · rintro (⟨left', right'⟩ | ⟨noBytes, _⟩)
    · exact Option.some.inj (left.symm.trans (left'.trans (right'.symm.trans right)))
    · simp [left, right] at noBytes
  · rintro rfl
    exact .bytes left right

lemma sameBytesOrText_iff : sameBytesOrText a b = true ↔ SameAddress a b := by
  rw [sameBytesOrText]
  cases value : addressValue? a with
  | none =>
    rw [SameAddress.iff_text (.inl (addressValue?_eq_none_iff.1 value))]
    exact decide_eq_true_iff
  | some values =>
    cases value' : addressValue? b with
    | none =>
      rw [SameAddress.iff_text (.inr (addressValue?_eq_none_iff.1 value'))]
      exact decide_eq_true_iff
    | some values' =>
      have has {address : String} {values : List Nat}
          (value : addressValue? address = some values) :
          ∃ bytes, addressBytes? address = some bytes := by
        rw [← Option.ne_none_iff_exists', Ne, ← addressValue?_eq_none_iff, value]
        nofun
      obtain ⟨bytes, left⟩ := has value
      obtain ⟨bytes', right⟩ := has value'
      rw [SameAddress.iff_bytes left right, hexBytes?_eq_iff left right,
        ← addressValue?_eq_iff value value']
      exact decide_eq_true_iff

/-! ## Digits in either case -/

/-- An address of whole bytes in hexadecimal, with or without `0x` in front of its digits. -/
structure HexAddress (address : String) (digits : List Char) : Prop where
  text : address.toList = digits ∨ address.toList = '0' :: 'x' :: digits
  whole : digits.length % 2 = 0
  hex : ∀ c ∈ digits, HexDigit c

lemma HexAddress.decodes {digits : List Char} (h : HexAddress a digits) :
    ∃ bytes, addressBytes? a = some bytes ∧ hexBytes? digits = some bytes := by
  obtain ⟨bytes, decoded⟩ := Option.isSome_iff_exists.1 (hexBytes?_isSome_iff.2 ⟨h.whole, h.hex⟩)
  refine ⟨bytes, ?_, decoded⟩
  have digits_eq : addressDigits a.toList = digits := by
    rcases h.text with plain | marked
    · rw [plain, addressDigits]
      rintro rest rfl
      have digit := h.hex 'x' (.tail _ List.mem_cons_self)
      exact absurd (hexValue?_isSome_iff.2 digit) (by decide)
    · rw [marked, addressDigits]
  rw [addressBytes?, digits_eq, decoded]

/-- Such addresses are the same just if their digits differ in the case of letters only. -/
lemma HexAddress.same_iff {digits digits' : List Char} (h : HexAddress a digits)
    (h' : HexAddress b digits') :
    SameAddress a b ↔ digits.map Char.toLower = digits'.map Char.toLower := by
  obtain ⟨bytes, left, decoded⟩ := h.decodes
  obtain ⟨bytes', right, decoded'⟩ := h'.decodes
  rw [SameAddress.iff_bytes left right, hexBytes?_eq_iff decoded decoded']

/-! ## Looking up an implementation -/

/-- The implementation is recorded at an address, and none before it in the order of the keys. -/
def FirstAt (data : ManifestData) (address : String) (i : Implementation) : Prop :=
  ∃ key, data.impls.find? key = some (some i) ∧ SameAddress i.deployment.address address ∧
    ∀ other < key, ∀ i', data.impls.find? other = some (some i') →
      ¬ SameAddress i'.deployment.address address

/-- No implementation is recorded at an address. -/
def NoneAt (data : ManifestData) (address : String) : Prop :=
  ∀ key i, data.impls.find? key = some (some i) → ¬ SameAddress i.deployment.address address

variable {data : ManifestData} {address : String} {i : Implementation}

/-- Whether an entry records an implementation at an address. -/
def recordsAt (address : String) (entry : String × Option Implementation) : Bool :=
  entry.2.any fun i => sameBytesOrText i.deployment.address address

lemma recordsAt_iff {entry : String × Option Implementation} : recordsAt address entry = true ↔
    ∃ i, entry.2 = some i ∧ SameAddress i.deployment.address address := by
  simp [recordsAt, Option.any_eq_true, sameBytesOrText_iff]

lemma implementationAt?_eq (data : ManifestData) (address : String) :
    data.implementationAt? address =
      (data.impls.entries.find? (recordsAt address)).bind Prod.snd := by
  rw [ManifestData.implementationAt?, Table.values, List.find?_filterMap, List.find?_map,
    Option.bind_map]
  rfl

lemma implementationAt?_eq_some_iff :
    data.implementationAt? address = some i ↔ FirstAt data address i := by
  rw [implementationAt?_eq, Option.bind_eq_some_iff]
  constructor
  · rintro ⟨⟨key, recorded⟩, first, rfl⟩
    obtain ⟨found, passes, least⟩ := Table.find?_entries_eq_some_iff.1 first
    obtain ⟨_, ⟨⟩, same⟩ := recordsAt_iff.1 passes
    refine ⟨key, found, same, fun other less i' found' same' => ?_⟩
    have fails := least other less _ found'
    rw [recordsAt_iff.2 ⟨i', rfl, same'⟩] at fails
    cases fails
  · rintro ⟨key, found, same, least⟩
    refine ⟨(key, some i), Table.find?_entries_eq_some_iff.2 ⟨found, ?_, ?_⟩, rfl⟩
    · exact recordsAt_iff.2 ⟨i, rfl, same⟩
    · intro other less recorded found'
      rw [← Bool.not_eq_true, recordsAt_iff]
      rintro ⟨i', rfl, same'⟩
      exact least other less i' found' same'

lemma mem_recorded_iff :
    i ∈ data.impls.values.filterMap id ↔ ∃ key, data.impls.find? key = some (some i) := by
  simp only [List.mem_filterMap, id, exists_eq_right]
  constructor
  · intro mem
    obtain ⟨⟨key, _⟩, entered, rfl⟩ := List.mem_map.1 mem
    exact ⟨key, Table.find?_of_mem_entries entered⟩
  · rintro ⟨key, found⟩
    exact Table.mem_values_of_find? found

lemma implementationAt?_eq_none_iff :
    data.implementationAt? address = none ↔ NoneAt data address := by
  simp only [ManifestData.implementationAt?, List.find?_eq_none, mem_recorded_iff,
    sameBytesOrText_iff]
  exact ⟨fun fails key i found => fails i ⟨key, found⟩,
    fun fails i ⟨key, found⟩ => fails key i found⟩

/-- An implementation is looked up by any of the texts for its address. -/
lemma SameAddress.implementationAt?_eq (same : SameAddress a b) :
    data.implementationAt? a = data.implementationAt? b := by
  have alike (other : String) : sameBytesOrText other a = sameBytesOrText other b := by
    rw [Bool.eq_iff_iff, sameBytesOrText_iff, sameBytesOrText_iff]
    exact ⟨fun h => equivalence.trans h same, fun h => equivalence.trans h (equivalence.symm same)⟩
  simp only [ManifestData.implementationAt?, alike]

open Script (implementationIn)

/-- What is found at an address: the first implementation there, or that there is none. -/
structure LooksUp (data : ManifestData) (address : String)
    (result : Except ManifestError Implementation) : Prop where
  found : ∀ i, result = .ok i ↔ FirstAt data address i
  missing : ∀ e, result = .error e ↔ e = .deploymentNotFound address ∧ NoneAt data address

lemma implementationIn_looksUp (data : ManifestData) (address : String) :
    LooksUp data address (implementationIn address data) := by
  refine ⟨fun i => ?_, fun e => ?_⟩
  · rw [← implementationAt?_eq_some_iff, implementationIn]
    cases data.implementationAt? address <;> simp
  · rw [← implementationAt?_eq_none_iff, implementationIn]
    cases data.implementationAt? address <;> simp [eq_comm]

lemma yields_implementationAt_iff {s s' : Session} {trace : List Exchange}
    (reads : (Script.read.plan s).Yields trace (.ok data, s'))
    {out : Except ManifestError Implementation × Session} :
    ((Script.implementationAt address).plan s).Yields trace out ↔
      out = (implementationIn address data, s') := by
  rw [Script.plan_implementationAt, Plan.yields_bind_iff]
  constructor
  · rintro ⟨first, second, read, rfl, reads', ⟨⟩⟩
    rw [List.append_nil] at reads
    rw [reads'.unique reads]
    rfl
  · rintro rfl
    exact ⟨trace, [], _, (List.append_nil _).symm, reads, .done _⟩

/--
Addresses are compared by value. Being the same is an equivalence; texts of whole bytes in
hexadecimal have bytes, and with or without `0x` in front they are the same address exactly if they
differ in the case of letters only. Where the manifest can be read, an address is looked up in what
it records: the first implementation at the address is found, which is the same one for every text
of that address, or the address is reported if there is none.
-/
theorem addresses_compared_by_value :
    Equivalence (fun a b => sameBytesOrText a b = true) ∧
      (∀ a b, sameBytesOrText a b = true ↔ SameAddress a b) ∧
      (∀ text, (hexBytes? text).isSome = true ↔ text.length % 2 = 0 ∧ ∀ c ∈ text, HexDigit c) ∧
      (∀ a b digits digits', HexAddress a digits → HexAddress b digits' →
        (sameBytesOrText a b = true ↔ digits.map Char.toLower = digits'.map Char.toLower)) ∧
      (∀ s s' trace data address, (Script.read.plan s).Yields trace (.ok data, s') →
        ∃ result, LooksUp data address result ∧ ∀ out,
          ((Script.implementationAt address).plan s).Yields trace out ↔ out = (result, s')) ∧
      ∀ (a b : String) (data : ManifestData), sameBytesOrText a b = true →
        data.implementationAt? a = data.implementationAt? b := by
  refine ⟨?_, fun _ _ => sameBytesOrText_iff, fun _ => hexBytes?_isSome_iff, ?_, ?_, ?_⟩
  · simp only [sameBytesOrText_iff]
    exact SameAddress.equivalence
  · intro a b digits digits' h h'
    rw [sameBytesOrText_iff]
    exact h.same_iff h'
  · intro s s' trace data address reads
    exact ⟨_, implementationIn_looksUp data address, fun out => yields_implementationAt_iff reads⟩
  · intro a b data same
    exact (sameBytesOrText_iff.1 same).implementationAt?_eq

/-! ### An address in two spellings -/

/-- Records of four identifiers: two of them belong to the same address. -/
def vaultRecords : ManifestData where
  schemaVersion := currentSchemaVersion
  admin := none
  impls := ⟨[("1c", none), ("4e", some ⟨⟨"0xC0FFEE", none⟩, .empty⟩),
    ("9b", some ⟨⟨"0xC0DE", none⟩, .empty⟩), ("a7", some ⟨⟨"c0dE", some "0x77"⟩, .empty⟩)],
    by decide⟩

def vaultSession : Session := { Session.onChain .default 5 1 with locked := true }

lemma vaultRecords_fits : vaultRecords.Fits := by
  intro i recorded
  have empty : i.layout = .empty := by
    simp only [vaultRecords, Table.values, List.map_cons, List.map_nil, List.mem_cons,
      reduceCtorEq, Option.some.injEq, List.not_mem_nil, false_or, or_false] at recorded
    rcases recorded with rfl | rfl | rfl <;> rfl
  rw [empty]
  exact ⟨List.forall_mem_nil _, List.forall_mem_nil _⟩

lemma vault_reads : (Script.read.plan vaultSession).Yields
    [⟨.readManifest, Reading.text (Session.textOfData vaultRecords)⟩]
    (.ok vaultRecords, vaultSession) := by
  rw [Script.plan_read_locked rfl, Plan.yields_ask_iff]
  refine ⟨_, [], rfl, ?_⟩
  rw [Session.dataOfReading,
    Session.dataOfText_textOfData vaultRecords_fits (.inl rfl) vaultSession.file]
  exact .done _

theorem vault_found_by_value :
    sameBytesOrText "0xC0DE" "c0de" = true ∧
      ((Script.implementationAt "c0de").plan vaultSession).Yields
        [⟨.readManifest, Reading.text (Session.textOfData vaultRecords)⟩]
        (.ok ⟨⟨"0xC0DE", none⟩, .empty⟩, vaultSession) := by
  obtain ⟨-, iff, -, letters, looks, -⟩ := addresses_compared_by_value
  have same : sameBytesOrText "0xC0DE" "c0de" = true := by
    refine (letters _ _ ['C', '0', 'D', 'E'] ['c', '0', 'd', 'e'] ?_ ?_).2 (by decide)
    · exact ⟨.inr (by decide +kernel), rfl, by simp [HexDigit]⟩
    · exact ⟨.inl (by decide +kernel), rfl, by simp [HexDigit]⟩
  obtain ⟨result, looksUp, only⟩ := looks _ _ _ _ "c0de" vault_reads
  have first : FirstAt vaultRecords "c0de" ⟨⟨"0xC0DE", none⟩, .empty⟩ := by
    refine ⟨"9b", rfl, (iff _ _).1 same, fun other less i found => ?_⟩
    have entered := Table.mem_entries_of_find? found
    simp only [vaultRecords, List.mem_cons, Prod.mk.injEq, reduceCtorEq, Option.some.injEq,
      and_false, false_or, List.not_mem_nil, or_false] at entered
    rw [← iff]
    rcases entered with ⟨rfl, rfl⟩ | ⟨rfl, rfl⟩ | ⟨rfl, rfl⟩
    · decide +kernel
    · exact absurd less (String.lt_irrefl _)
    · exact absurd less (by decide)
  rw [← (looksUp.found _).2 first]
  exact ⟨same, (only _).2 rfl⟩

end UpgradeSafety
