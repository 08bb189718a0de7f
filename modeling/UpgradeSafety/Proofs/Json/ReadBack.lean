import Mathlib.Data.List.Forall2
import UpgradeSafety.Proofs.Json.Tokens

/-!
# Reading what was written

A value without decimals is written as a text that is read as the same value, in
every style that puts only space between the tokens, as long as it is not nested
too deeply. Decimals are left out: a number is written with an exponent of its
own, and documents that are written hold none.
-/

namespace UpgradeSafety

namespace Json

/-! ## Plain values -/

mutual

/-- Whether a value holds nothing unreadable, no decimal and no number out of range. -/
def isPlain : Json → Bool
  | .unreadable => false
  | .decimal _ => false
  | .integer n => isInteger n
  | .array items => itemsPlain items
  | .object members => membersPlain members
  | _ => true

def itemsPlain : List Json → Bool
  | [] => true
  | item :: rest => item.isPlain && itemsPlain rest

def membersPlain : List (String × Json) → Bool
  | [] => true
  | (_, value) :: rest => value.isPlain && membersPlain rest

end

@[simp] lemma itemsPlain_iff {items : List Json} :
    itemsPlain items = true ↔ ∀ item ∈ items, item.isPlain = true := by
  induction items with
  | nil => simp [itemsPlain]
  | cons item rest ih => simp [itemsPlain, ih]

@[simp] lemma membersPlain_iff {members : List (String × Json)} :
    membersPlain members = true ↔ ∀ m ∈ members, m.2.isPlain = true := by
  induction members with
  | nil => simp [membersPlain]
  | cons m rest ih =>
    obtain ⟨key, value⟩ := m
    simp [membersPlain, ih]

@[simp] lemma itemsWhole_iff {items : List Json} :
    itemsWhole items = true ↔ ∀ item ∈ items, item.isWhole = true := by
  induction items with
  | nil => simp [itemsWhole]
  | cons item rest ih => simp [itemsWhole, ih]

@[simp] lemma membersWhole_iff {members : List (String × Json)} :
    membersWhole members = true ↔ ∀ m ∈ members, m.2.isWhole = true := by
  induction members with
  | nil => simp [membersWhole]
  | cons m rest ih =>
    obtain ⟨key, value⟩ := m
    simp [membersWhole, ih]

@[simp] lemma depthOfItems_le_iff {items : List Json} {limit : Nat} :
    depthOfItems items ≤ limit ↔ ∀ item ∈ items, item.depth ≤ limit := by
  induction items with
  | nil => simp [depthOfItems]
  | cons item rest ih => simp [depthOfItems, ih]

@[simp] lemma depthOfMembers_le_iff {members : List (String × Json)} {limit : Nat} :
    depthOfMembers members ≤ limit ↔ ∀ m ∈ members, m.2.depth ≤ limit := by
  induction members with
  | nil => simp [depthOfMembers]
  | cons m rest ih =>
    obtain ⟨key, value⟩ := m
    simp [depthOfMembers, ih]

lemma itemsWithin_eq_map (limit : Nat) (items : List Json) :
    itemsWithin limit items = items.map (within limit) := by
  induction items with
  | nil => rfl
  | cons item rest ih => rw [itemsWithin, ih, List.map_cons]

lemma membersWithin_eq_map (limit : Nat) (members : List (String × Json)) :
    membersWithin limit members = members.map fun m => (m.1, within limit m.2) := by
  induction members with
  | nil => rfl
  | cons m rest ih =>
    obtain ⟨key, value⟩ := m
    rw [membersWithin, ih, List.map_cons]

/-- A value that is not nested too deeply stays as it is. -/
lemma within_of_depth {j : Json} {limit : Nat} (shallow : j.depth ≤ limit) :
    j.within limit = j := by
  induction limit generalizing j with
  | zero =>
    cases j with
    | array items => simp [depth] at shallow
    | object members => simp [depth] at shallow
    | _ => rfl
  | succ limit ih =>
    cases j with
    | array items =>
      have inside := depthOfItems_le_iff.1 (Nat.le_of_succ_le_succ shallow)
      have same : items.map (within limit) = items.map id :=
        List.map_congr_left fun item member => ih (inside item member)
      rw [within, itemsWithin_eq_map, same, List.map_id]
    | object members =>
      have inside := depthOfMembers_le_iff.1 (Nat.le_of_succ_le_succ shallow)
      have same : members.map (fun m => (m.1, within limit m.2)) = members.map id :=
        List.map_congr_left fun m member => Prod.ext rfl (ih (inside m member))
      rw [within, membersWithin_eq_map, same, List.map_id]
    | _ => rfl

/-! ## Items between brackets -/

lemma length_lt_flatMap {text : List Char} {texts : List (List Char)} (member : text ∈ texts) :
    text.length < (texts.flatMap (',' :: ·)).length := by
  induction texts with
  | nil => cases member
  | cons first texts ih =>
    rw [List.flatMap_cons, List.length_append, List.length_cons]
    rcases List.mem_cons.1 member with rfl | member
    · omega
    · have := ih member
      omega

lemma length_le_flatMap (texts : List (List Char)) :
    texts.length ≤ (texts.flatMap (',' :: ·)).length := by
  induction texts with
  | nil => exact Nat.le_refl _
  | cons first texts ih =>
    rw [List.flatMap_cons, List.length_append, List.length_cons, List.length_cons]
    omega

/-- Items that are taken one by one are taken together, up to the closing character. -/
lemma items_taken {α : Type} {item : Reader α} (close : Char) (notSpace : isSpace close = false)
    (notComma : close ≠ ',') (ends : ∀ s, EndsNumber (close :: s)) {blank : List Char}
    (spaces : ∀ c ∈ blank, isSpace c = true) (tail : List Char) {texts : List (List Char)}
    {others : List α} (each : List.Forall₂ (Takes item) texts others) {text : List Char} {a : α}
    (taken : Takes item text a) {fuel : Nat} (enough : texts.length < fuel) :
    items item close fuel (text ++ (texts.flatMap (',' :: ·) ++ (blank ++ close :: tail))) =
      some (a :: others, tail) := by
  induction each generalizing text a fuel with
  | nil =>
    obtain ⟨fuel, rfl⟩ := Nat.exists_eq_succ_of_ne_zero (Nat.ne_of_gt enough)
    have first := taken (blank ++ close :: tail) (endsNumber_blank spaces (ends tail))
    have closing : skipSpace (blank ++ close :: tail) = close :: tail := by
      rw [skipSpace_blank spaces, skipSpace_cons notSpace]
    simp_all [items]
  | @cons text' b texts others here _ ih =>
    obtain ⟨fuel, rfl⟩ := Nat.exists_eq_succ_of_ne_zero (Nat.ne_of_gt (Nat.zero_lt_of_lt enough))
    have rest := ih here (Nat.lt_of_succ_lt_succ enough)
    have first := taken (',' :: (text' ++ (texts.flatMap (',' :: ·) ++ (blank ++ close :: tail))))
      (endsNumber_cons rfl (by decide) (by decide) (by decide) _)
    have comma (s : List Char) : skipSpace (',' :: s) = ',' :: s := skipSpace_cons rfl s
    simp [items, first, comma, rest]

lemma itemChars_eq_flatMap (style : Style) (depth : Nat) (xs : List Json) :
    itemChars style depth xs =
      (xs.map fun j => style.lineBreak depth ++ chars style depth j).flatMap (',' :: ·) := by
  induction xs with
  | nil => rfl
  | cons j xs ih => simp [itemChars, ih]

/-- The characters of a member, with the space in front of it. -/
def memberText (style : Style) (depth : Nat) (m : String × Json) : List Char :=
  style.lineBreak depth ++ (quoted m.1 ++ ':' :: (style.afterColon ++ chars style depth m.2))

lemma memberChars_eq_flatMap (style : Style) (depth : Nat) (ms : List (String × Json)) :
    memberChars style depth ms = (ms.map (memberText style depth)).flatMap (',' :: ·) := by
  induction ms with
  | nil => rfl
  | cons m ms ih =>
    obtain ⟨key, j⟩ := m
    simp [memberChars, memberText, ih]

lemma chars_array (style : Style) (depth : Nat) (first : Json) (others : List Json) :
    chars style depth (.array (first :: others)) =
      '[' :: (style.lineBreak (depth + 1) ++ chars style (depth + 1) first ++
        (itemChars style (depth + 1) others ++ (style.lineBreak depth ++ [']']))) := rfl

lemma chars_object (style : Style) (depth : Nat) (first : String × Json)
    (others : List (String × Json)) :
    chars style depth (.object (first :: others)) =
      '\x7b' :: (memberText style (depth + 1) first ++
        (memberChars style (depth + 1) others ++ (style.lineBreak depth ++ ['\x7d']))) := by
  have written : chars style depth (.object (first :: others)) =
      '\x7b' :: (style.lineBreak (depth + 1) ++ quoted first.1 ++ ':' :: style.afterColon ++
        chars style (depth + 1) first.2 ++ (memberChars style (depth + 1) others ++
          (style.lineBreak depth ++ ['\x7d']))) := rfl
  rw [written]
  simp [memberText]

/-! ## Values -/

section

variable {style : Style} {depth fuel : Nat}

lemma value_blank {blank : List Char} (spaces : ∀ c ∈ blank, isSpace c = true) (s : List Char) :
    value fuel (blank ++ s) = value fuel s := by
  cases fuel with
  | zero => rfl
  | succ fuel => rw [value, value, skipSpace_blank spaces]

lemma Takes.afterBlank {text blank : List Char} {j : Json} (taken : Takes (value fuel) text j)
    (spaces : ∀ c ∈ blank, isSpace c = true) : Takes (value fuel) (blank ++ text) j := by
  intro rest ends
  rw [List.append_assoc, value_blank spaces]
  exact taken rest ends

lemma value_scalar {c : Char} (notSpace : isSpace c = false) (notArray : c ≠ '[')
    (notObject : c ≠ '\x7b') (s : List Char) :
    value (fuel + 1) (c :: s) = scalar (fuel + 1) (c :: s) := by
  rw [value, skipSpace_cons notSpace]
  simp_all

lemma length_le_escaped (text : List Char) : text.length ≤ (text.flatMap escape).length := by
  induction text with
  | nil => exact Nat.le_refl _
  | cons c text ih =>
    obtain ⟨first, others, parts, -⟩ := escape_head c
    rw [List.flatMap_cons, List.length_append, parts, List.length_cons, List.length_cons]
    omega

/-- The characters of a string are taken up to the closing quote. -/
lemma stringBody_quoted (text : String) (enough : (quoted text).length ≤ fuel)
    (rest : List Char) :
    stringBody fuel (text.toList.flatMap escape ++ '"' :: rest) =
      some (text.toList.map some, rest) := by
  have longer := length_le_escaped text.toList
  simp only [quoted, List.length_cons, List.length_append, List.length_nil] at enough
  exact stringBody_escaped text.toList (by omega) rest

lemma takes_string (text : String) (enough : (quoted text).length ≤ fuel) :
    Takes (value fuel) (quoted text) (.string text) := by
  intro rest _
  obtain ⟨fuel, rfl⟩ := Nat.exists_eq_succ_of_ne_zero
    (Nat.ne_of_gt (Nat.lt_of_lt_of_le (Nat.zero_lt_succ _) enough))
  have body := stringBody_quoted text enough rest
  rw [quoted, List.cons_append, value_scalar rfl (by decide) (by decide), List.append_assoc]
  simp [scalar, body, stringOf, text?_some]

lemma takes_number {n : Int} (fits : isInteger n = true) :
    Takes (value (fuel + 1)) (integerChars n) (.integer n) := by
  intro rest ends
  have taken := takes_integer fits rest ends
  obtain ⟨c, others, parts, first⟩ := integerChars_cons n
  have other : isSpace c = false ∧ c ≠ '[' ∧ c ≠ '\x7b' ∧ c ≠ '"' ∧ c ≠ 'n' ∧ c ≠ 't' ∧
      c ≠ 'f' := by
    rcases first with rfl | digit
    · decide
    · refine ⟨isSpace_of_isDigit digit, ?_, ?_, ?_, ?_, ?_, ?_⟩ <;> exact ne_of_isDigit digit rfl
  obtain ⟨notSpace, notArray, notObject, others⟩ := other
  rw [parts, List.cons_append] at taken ⊢
  rw [value_scalar notSpace notArray notObject, ← taken, scalar.eq_def]
  simp_all

lemma takes_word (first : Char) (letters : String) {j : Json}
    (scanned : ∀ s, scalar (fuel + 1) (first :: s) = word letters j s)
    (notSpace : isSpace first = false) (notArray : first ≠ '[') (notObject : first ≠ '\x7b') :
    Takes (value (fuel + 1)) (first :: letters.toList) j := by
  intro rest _
  rw [List.cons_append, value_scalar notSpace notArray notObject, scanned, word,
    List.isPrefixOf_iff_prefix.2 (List.prefix_append _ _), if_pos rfl, ← String.length_toList,
    List.drop_left]

/-- A member is taken together with the space in front of it. -/
lemma takes_member (blank : style.Blank) {key : String} {j : Json}
    (long : (quoted key).length ≤ fuel) (taken : Takes (value fuel) (chars style depth j) j) :
    Takes (member (value fuel) fuel) (memberText style depth (key, j)) (some key, j) := by
  intro rest ends
  have body := stringBody_quoted key long (':' :: (style.afterColon ++ chars style depth j ++ rest))
  have inside := taken.afterBlank blank.afterColon rest ends
  rw [List.append_assoc] at body inside
  have start : skipSpace (memberText style depth (key, j) ++ rest) = '"' :: (key.toList.flatMap
      escape ++ '"' :: ':' :: (style.afterColon ++ (chars style depth j ++ rest))) := by
    rw [memberText, List.append_assoc, skipSpace_blank (blank.lineBreak depth)]
    simp [quoted, skipSpace_cons, isSpace]
  have colon (s : List Char) : skipSpace (':' :: s) = ':' :: s := skipSpace_cons rfl s
  simp [member, start, body, colon, inside, text?_some]

/-- A value is not written with space or a closing bracket in front. -/
lemma chars_cons {j : Json} (plain : j.isPlain = true) :
    ∃ c others, chars style depth j = c :: others ∧ isSpace c = false ∧ c ≠ ']' := by
  cases j with
  | unreadable => simp [isPlain] at plain
  | decimal d => simp [isPlain] at plain
  | null => exact ⟨_, _, rfl, rfl, by decide⟩
  | bool value => cases value <;> exact ⟨_, _, rfl, rfl, by decide⟩
  | integer n =>
    obtain ⟨c, others, parts, first⟩ := integerChars_cons n
    refine ⟨c, others, parts, ?_⟩
    rcases first with rfl | digit
    · decide
    · exact ⟨isSpace_of_isDigit digit, ne_of_isDigit digit rfl⟩
  | string text => exact ⟨_, _, rfl, rfl, by decide⟩
  | array items => cases items <;> exact ⟨_, _, rfl, rfl, by decide⟩
  | object members => cases members <;> exact ⟨_, _, rfl, rfl, by decide⟩

lemma objectOf_keyed (members : List (String × Json)) :
    objectOf (members.map fun m => (some m.1, m.2)) = .object members := by
  have all : (members.map fun m => (some m.1, m.2)).mapM keyed? = some members := by
    induction members with
    | nil => rfl
    | cons m members ih => simp [keyed?, ih]
  rw [objectOf, all, Option.elim_some]

/-- The items of an array are taken if each of them is. -/
lemma takes_array (blank : style.Blank) {first : Json} {others : List Json}
    (plain : first.isPlain = true)
    (each : ∀ j ∈ first :: others, Takes (value fuel) (chars style (depth + 1) j) j)
    (enough : others.length < fuel) :
    Takes (value (fuel + 1)) (chars style depth (.array (first :: others)))
      (.array (first :: others)) := by
  intro rest _
  have texts : List.Forall₂ (Takes (value fuel)) (others.map fun j =>
      style.lineBreak (depth + 1) ++ chars style (depth + 1) j) others := by
    rw [List.forall₂_map_left_iff, List.forall₂_same]
    exact fun j member =>
      (each j (List.mem_cons_of_mem _ member)).afterBlank (blank.lineBreak (depth + 1))
  have taken := items_taken ']' rfl (by decide)
    (endsNumber_cons rfl (by decide) (by decide) (by decide)) (blank.lineBreak depth) rest texts
    ((each first List.mem_cons_self).afterBlank (blank.lineBreak (depth + 1)))
    (by rwa [List.length_map])
  rw [← itemChars_eq_flatMap] at taken
  obtain ⟨c, begin, parts, notSpace, notClose⟩ :
      ∃ c others, chars style (depth + 1) first = c :: others ∧ isSpace c = false ∧ c ≠ ']' :=
    chars_cons plain
  have start (s : List Char) :
      skipSpace (style.lineBreak (depth + 1) ++ chars style (depth + 1) first ++ s) =
        c :: (begin ++ s) := by
    rw [List.append_assoc, skipSpace_blank (blank.lineBreak _), parts, List.cons_append,
      skipSpace_cons notSpace]
  have text : chars style depth (.array (first :: others)) ++ rest =
      '[' :: (style.lineBreak (depth + 1) ++ chars style (depth + 1) first ++
        (itemChars style (depth + 1) others ++ (style.lineBreak depth ++ ']' :: rest))) := by
    simp [chars_array]
  rw [text, value, skipSpace_cons rfl]
  simp only [sequence, start, notClose, if_false, taken, Option.map_some]

/-- The members of an object are taken if the value of each of them is. -/
lemma takes_object (blank : style.Blank) {first : String × Json} {others : List (String × Json)}
    (each : ∀ m ∈ first :: others, (quoted m.1).length ≤ fuel ∧
      Takes (value fuel) (chars style (depth + 1) m.2) m.2)
    (enough : others.length < fuel) :
    Takes (value (fuel + 1)) (chars style depth (.object (first :: others)))
      (.object (first :: others)) := by
  intro rest _
  have taken (m) (member : m ∈ first :: others) : Takes (Json.member (value fuel) fuel)
      (memberText style (depth + 1) m) (some m.1, m.2) :=
    takes_member blank (each m member).1 (each m member).2
  have texts : List.Forall₂ (Takes (member (value fuel) fuel))
      (others.map (memberText style (depth + 1))) (others.map fun m => (some m.1, m.2)) := by
    rw [List.forall₂_map_left_iff, List.forall₂_map_right_iff, List.forall₂_same]
    exact fun m member => taken m (List.mem_cons_of_mem _ member)
  have all := items_taken '\x7d' rfl (by decide)
    (endsNumber_cons rfl (by decide) (by decide) (by decide)) (blank.lineBreak depth) rest texts
    (taken first List.mem_cons_self) (by rwa [List.length_map])
  rw [← memberChars_eq_flatMap] at all
  have start (s : List Char) : ∃ s', skipSpace (memberText style (depth + 1) first ++ s) =
      '"' :: s' := by
    rw [memberText, List.append_assoc, skipSpace_blank (blank.lineBreak _), quoted]
    exact ⟨_, skipSpace_cons rfl _⟩
  have text : chars style depth (.object (first :: others)) ++ rest =
      '\x7b' :: (memberText style (depth + 1) first ++
        (memberChars style (depth + 1) others ++ (style.lineBreak depth ++ '\x7d' :: rest))) := by
    simp [chars_object]
  obtain ⟨s', start⟩ := start
    (memberChars style (depth + 1) others ++ (style.lineBreak depth ++ '\x7d' :: rest))
  have keyed : objectOf ((some first.1, first.2) :: others.map fun m => (some m.1, m.2)) =
      .object (first :: others) := objectOf_keyed (first :: others)
  rw [text, value, skipSpace_cons rfl]
  have notClose : '"' ≠ '\x7d' := by decide
  simp only [sequence, start, notClose, if_false, all, Option.map_some, keyed]

/-- What was written is taken as the value it was written for. -/
lemma takes_chars (blank : style.Blank) {j : Json} (plain : j.isPlain = true)
    (enough : (chars style depth j).length < fuel) :
    Takes (value fuel) (chars style depth j) j := by
  induction fuel generalizing j depth with
  | zero => exact absurd enough (Nat.not_lt_zero _)
  | succ fuel ih =>
    have long := Nat.le_of_lt_succ enough
    cases j with
    | unreadable => simp [isPlain] at plain
    | decimal d => simp [isPlain] at plain
    | null => exact takes_word 'n' "ull" (fun _ => rfl) rfl (by decide) (by decide)
    | bool value =>
      cases value with
      | true => exact takes_word 't' "rue" (fun _ => rfl) rfl (by decide) (by decide)
      | false => exact takes_word 'f' "alse" (fun _ => rfl) rfl (by decide) (by decide)
    | integer n => exact takes_number plain
    | string text => exact takes_string text (Nat.le_of_lt enough)
    | array items =>
      cases items with
      | nil => exact fun _ _ => rfl
      | cons first others =>
        have parts := itemsPlain_iff.1 plain
        have texts := length_le_flatMap (others.map fun j =>
          style.lineBreak (depth + 1) ++ chars style (depth + 1) j)
        rw [← itemChars_eq_flatMap, List.length_map] at texts
        simp only [chars_array, List.length_cons, List.length_append] at long
        refine takes_array blank (parts first List.mem_cons_self) (fun j member => ?_) (by omega)
        refine ih (parts j member) ?_
        rcases List.mem_cons.1 member with rfl | member
        · omega
        · have shorter := length_lt_flatMap (List.mem_map_of_mem member (f := fun j =>
            style.lineBreak (depth + 1) ++ chars style (depth + 1) j))
          rw [← itemChars_eq_flatMap, List.length_append] at shorter
          omega
    | object members =>
      cases members with
      | nil => exact fun _ _ => rfl
      | cons first others =>
        have parts := membersPlain_iff.1 plain
        have texts := length_le_flatMap (others.map (memberText style (depth + 1)))
        rw [← memberChars_eq_flatMap, List.length_map] at texts
        simp only [chars_object, memberText, List.length_cons, List.length_append] at long
        refine takes_object blank (fun m member => ?_) (by omega)
        have short : (quoted m.1).length ≤ fuel ∧
            (chars style (depth + 1) m.2).length < fuel := by
          rcases List.mem_cons.1 member with rfl | member
          · constructor <;> omega
          · have shorter := length_lt_flatMap
              (List.mem_map_of_mem member (f := memberText style (depth + 1)))
            rw [← memberChars_eq_flatMap] at shorter
            simp only [memberText, List.length_append, List.length_cons] at shorter
            constructor <;> omega
        exact ⟨short.1, ih (parts m member) short.2⟩

end

/-! ## Documents -/

/--
A written document is read as the value that it was written for, up to what is
nested too deeply.
-/
lemma parse_chars {style : Style} (blank : style.Blank) {j : Json} (plain : j.isPlain = true)
    {behind : List Char} (spaces : ∀ c ∈ behind, isSpace c = true) :
    parse (String.ofList (chars style 0 j ++ behind)) = some (j.within maxDepth) := by
  have enough : (chars style 0 j).length < (chars style 0 j ++ behind).length + 1 := by
    rw [List.length_append]
    omega
  have ends : EndsNumber behind := by
    have blank := endsNumber_blank spaces endsNumber_nil
    rwa [List.append_nil] at blank
  have left : skipSpace behind = [] := by
    have skipped := skipSpace_blank spaces []
    rwa [List.append_nil] at skipped
  have taken := takes_chars blank plain enough behind ends
  simp only [parse, String.toList_ofList, taken, left]
  rfl

theorem parse_render {style : Style} (blank : style.Blank) {j : Json} (plain : j.isPlain = true) :
    parse (render style j) = some (j.within maxDepth) := by
  have written := parse_chars blank plain (fun c (none : c ∈ []) => nomatch none)
  rwa [List.append_nil] at written

/-- A plain value is whole: nothing in it was written to be unreadable. -/
lemma isWhole_of_isPlain {j : Json} (plain : j.isPlain = true) : j.isWhole = true := by
  induction depth : j.depth using Nat.strongRecOn generalizing j with
  | _ n ih =>
    subst depth
    cases j with
    | unreadable => simp [isPlain] at plain
    | array items =>
      have inside := depthOfItems_le_iff.1 (Nat.le_refl (depthOfItems items))
      exact itemsWhole_iff.2 fun item member => ih _ (Nat.lt_succ_of_le (inside item member))
        (itemsPlain_iff.1 plain item member) rfl
    | object members =>
      have inside := depthOfMembers_le_iff.1 (Nat.le_refl (depthOfMembers members))
      exact membersWhole_iff.2 fun m member => ih _ (Nat.lt_succ_of_le (inside m member))
        (membersPlain_iff.1 plain m member) rfl
    | _ => rfl

lemma whole?_of_isPlain {j : Json} (plain : j.isPlain = true) : whole? j = some j :=
  if_pos (isWhole_of_isPlain plain)

end Json

end UpgradeSafety
