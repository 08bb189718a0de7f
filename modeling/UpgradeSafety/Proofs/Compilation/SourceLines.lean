import UpgradeSafety.Compilation.SourceLocations
import UpgradeSafety.Proofs.Texts
import UpgradeSafety.Proofs.TypeId.Bytes

/-!
# Lines of locations

The line that is found for a byte is one more than the line breaks among the bytes before it.
Locations are decoded to it, in the file that was added last with their number, and every other
location stays as it is.
-/

namespace UpgradeSafety

/-! ## Searching by halves -/

section PartitionPoint

variable {α : Type} {passes : α → Bool} {xs : Array α}

/-- The entries that pass are in front. -/
def Partitioned (passes : α → Bool) (xs : Array α) : Prop :=
  xs.toList.Pairwise fun a b => passes b = true → passes a = true

lemma Partitioned.passes_of_lt (parts : Partitioned passes xs) {i j : Nat} (hj : j < xs.size)
    (hij : i < j) (pass : passes xs[j] = true) : passes xs[i] = true := by
  have size : xs.toList.length = xs.size := Array.length_toList
  have front := List.pairwise_iff_getElem.1 parts i j (by omega) (by omega) hij
  simp only [Array.getElem_toList] at front
  exact front pass

/-- Where the first entries pass and the others fail, the first ones are counted. -/
lemma countP_eq_of_bounds {n : Nat} (inside : n ≤ xs.size)
    (front : ∀ i (h : i < xs.size), i < n → passes xs[i] = true)
    (behind : ∀ i (h : i < xs.size), n ≤ i → passes xs[i] = false) :
    xs.toList.countP passes = n := by
  have size : xs.toList.length = xs.size := Array.length_toList
  have all : (xs.toList.take n).countP passes = (xs.toList.take n).length := by
    refine List.countP_eq_length.2 fun x mem => ?_
    obtain ⟨i, hi, rfl⟩ := List.getElem_of_mem mem
    rw [List.length_take] at hi
    rw [List.getElem_take, Array.getElem_toList]
    exact front i (by omega) (by omega)
  have none : (xs.toList.drop n).countP passes = 0 := by
    refine List.countP_eq_zero.2 fun x mem => ?_
    obtain ⟨i, hi, rfl⟩ := List.getElem_of_mem mem
    rw [List.length_drop] at hi
    rw [List.getElem_drop, Array.getElem_toList, behind (n + i) (by omega) (by omega)]
    exact Bool.false_ne_true
  rw [← List.take_append_drop n xs.toList, List.countP_append, all, none, List.length_take]
  omega

/-- The window always holds the first entry that fails, or ends where it would be. -/
lemma partitionPointIn_eq (parts : Partitioned passes xs) {low high : Nat} {inside : high ≤ xs.size}
    (ordered : low ≤ high) (front : ∀ i (h : i < xs.size), i < low → passes xs[i] = true)
    (behind : ∀ i (h : i < xs.size), high ≤ i → passes xs[i] = false) :
    partitionPointIn passes xs low high inside = xs.toList.countP passes := by
  fun_induction partitionPointIn passes xs low high inside with
  | case1 low high inside wide middle pass ih =>
    have halved : middle = low + (high - low) / 2 := rfl
    refine ih (by omega) (fun i h before => ?_) behind
    rcases Nat.lt_or_eq_of_le (Nat.le_of_lt_succ before) with earlier | rfl
    · exact parts.passes_of_lt (by omega) earlier pass
    · exact pass
  | case2 low high inside wide middle fails ih =>
    have halved : middle = low + (high - low) / 2 := rfl
    refine ih (by omega) front fun i h after => ?_
    rw [← Bool.not_eq_true]
    intro pass
    rcases Nat.lt_or_eq_of_le after with later | rfl
    · exact fails (parts.passes_of_lt h later pass)
    · exact fails pass
  | case3 low high inside narrow =>
    have closed : low = high := by omega
    subst closed
    exact (countP_eq_of_bounds inside front behind).symm

/-- The entries before the partition point are the ones that pass. -/
lemma partitionPoint_eq (parts : Partitioned passes xs) :
    partitionPoint passes xs = xs.toList.countP passes := by
  refine partitionPointIn_eq parts (Nat.zero_le _) (fun i _ before => ?_) fun i h after => ?_
  · omega
  · omega

end PartitionPoint

/-! ## Line breaks among bytes -/

open TypeId (utf8 utf8_cons utf8_append utf8EncodeChar_cases byte_eq toUTF8_eq)

/-- The line breaks among the bytes of a text before an offset. -/
def newlinesBefore (content : String) (offset : Nat) : Nat :=
  (content.toUTF8.data.toList.take offset).count 0x0A

/-- No other character has the byte of a line break among its own. -/
lemma newline_not_mem {c : Char} (other : c ≠ '\n') : 0x0A ∉ String.utf8EncodeChar c := by
  intro mem
  rcases utf8EncodeChar_cases c with ⟨ascii, single⟩ | ⟨_, high⟩
  · rw [single, List.mem_singleton] at mem
    have newline : '\n'.toNat < 128 := by decide
    exact other (byte_eq ascii newline mem.symm)
  · exact absurd (high _ mem) (by decide)

lemma utf8EncodeChar_newline : String.utf8EncodeChar '\n' = [0x0A] := by decide

/-- The line breaks before an offset, by their offsets and by their bytes. -/
lemma countP_lineBreaks (text : List Char) (offset start : Nat) :
    (lineBreaks offset text).countP (· < start) =
      ((utf8 text).take (start - offset)).count 0x0A := by
  induction text generalizing offset with
  | nil => simp [lineBreaks]
  | cons c rest ih =>
    rw [lineBreaks, utf8_cons, List.take_append, List.count_append, String.length_utf8EncodeChar,
      Nat.sub_sub, ← ih]
    split
    · next newline =>
      subst newline
      rw [List.countP_cons, utf8EncodeChar_newline, Nat.add_comm]
      by_cases before : offset < start
      · have reached : start - offset = (start - offset - 1) + 1 := by omega
        rw [reached]
        simp [before]
      · have behind : start - offset = 0 := by omega
        rw [behind]
        simp [before]
    · next other =>
      have plain : 0x0A ∉ (String.utf8EncodeChar c).take (start - offset) :=
        fun mem => newline_not_mem other (List.mem_of_mem_take mem)
      rw [List.count_eq_zero.2 plain, Nat.zero_add]

lemma count_utf8 (text : List Char) : (utf8 text).count 0x0A = text.count '\n' := by
  induction text with
  | nil => rfl
  | cons c rest ih =>
    rw [utf8_cons, List.count_append, List.count_cons, ih]
    by_cases newline : c = '\n'
    · subst newline
      rw [utf8EncodeChar_newline, Nat.add_comm]
      rfl
    · rw [List.count_eq_zero.2 (newline_not_mem newline), if_neg (by simpa using newline)]
      omega

lemma length_utf8 (text : String) : (utf8 text.toList).length = text.utf8ByteSize := by
  rw [← toUTF8_eq]
  rfl

lemma LineTable.partitioned (table : LineTable) (start : Nat) :
    Partitioned (· ≤ start) table.starts := by
  refine table.increasing.imp fun {a b} less => ?_
  simp only [decide_eq_true_eq]
  omega

namespace SourceFile

/-- A byte is on the line after those that the line breaks before it end. -/
theorem line_eq (file : SourceFile) (start : Nat) :
    file.lineTable.line start = 1 + newlinesBefore file.content start := by
  have kept : file.lineTable.starts.toList =
      0 :: (lineBreaks 0 file.content.toList).map (· + 1) := rfl
  -- a line begins up to a byte if its line break is strictly before it
  have shifted : ((fun n => decide (n ≤ start)) ∘ fun n => n + 1) = fun n => decide (n < start) :=
    rfl
  rw [LineTable.line, partitionPoint_eq (LineTable.partitioned _ _), kept, List.countP_cons,
    List.countP_map, shifted, countP_lineBreaks, if_pos (by simp), Nat.sub_zero, Nat.add_comm,
    newlinesBefore, toUTF8_eq]

/-- The byte behind the front of a text is on the line behind the front's line breaks. -/
theorem line_behind (path front back : String) :
    (SourceFile.mk path (front ++ back)).lineTable.line front.utf8ByteSize =
      1 + front.toList.count '\n' := by
  rw [line_eq, newlinesBefore, toUTF8_eq, String.toList_append, utf8_append,
    List.take_left' (length_utf8 front), count_utf8]

/-- What is past the end of a text is on its last line. -/
theorem line_past_end {file : SourceFile} {start : Nat} (past : file.content.utf8ByteSize ≤ start) :
    file.lineTable.line start = 1 + file.content.toList.count '\n' := by
  rw [← length_utf8] at past
  rw [line_eq, newlinesBefore, toUTF8_eq, List.take_of_length_le past, count_utf8]

end SourceFile

namespace SourceFiles

open Numeral (Spells bound32 bound64)
open Text (Cuts splitOn cuts_splitOn)

/-! ## The latest files -/

variable {files : List (Nat × SourceFile)} {src : String} {start index : Nat} {table : LineTable}

/-- The file that was added last with a number. -/
def Latest (files : List (Nat × SourceFile)) (index : Nat) (file : SourceFile) : Prop :=
  ∃ earlier later, files = earlier ++ (index, file) :: later ∧ ∀ other ∈ later, other.1 ≠ index

lemma foldl_add (s : SourceFiles) (files : List (Nat × SourceFile)) :
    (files.foldl (fun s file => s.add file.1 file.2) s).tables =
      (files.map fun file => (file.1, file.2.lineTable)).reverse ++ s.tables := by
  induction files generalizing s with
  | nil => rfl
  | cons file files ih =>
    rw [List.foldl_cons, ih, add, List.map_cons, List.reverse_cons, List.append_assoc,
      List.singleton_append]

lemma tables_ofList (files : List (Nat × SourceFile)) :
    (ofList files).tables = (files.map fun file => (file.1, file.2.lineTable)).reverse := by
  rw [ofList, foldl_add, empty, List.append_nil]

/-- Under a number there is the table of the file that was added last with it. -/
lemma find?_eq_some_iff : (ofList files).find? index = some table ↔
    ∃ file, Latest files index file ∧ file.lineTable = table := by
  rw [find?, tables_ofList, List.lookup_eq_some_iff]
  constructor
  · rintro ⟨later, earlier, same, others⟩
    have ordered := List.reverse_eq_iff.1 same
    rw [List.reverse_append, List.reverse_cons, List.append_assoc, List.singleton_append,
      List.map_eq_append_iff] at ordered
    obtain ⟨front, back, rfl, _, mapped⟩ := ordered
    obtain ⟨⟨number, file⟩, last, rfl, entry, tables⟩ := List.map_eq_cons_iff.1 mapped
    obtain ⟨rfl, rfl⟩ := Prod.mk.inj entry
    refine ⟨file, ⟨front, last, rfl, fun other mem => ?_⟩, rfl⟩
    have tabled : (other.1, other.2.lineTable) ∈ later := by
      rw [← List.mem_reverse, ← tables]
      exact List.mem_map_of_mem mem
    exact Ne.symm (by simpa using others _ tabled)
  · rintro ⟨file, ⟨earlier, later, rfl, others⟩, rfl⟩
    refine ⟨(later.map fun file => (file.1, file.2.lineTable)).reverse,
      (earlier.map fun file => (file.1, file.2.lineTable)).reverse, by simp, fun entry mem => ?_⟩
    obtain ⟨other, behind, rfl⟩ := List.mem_map.1 (List.mem_reverse.1 mem)
    simpa using Ne.symm (others other behind)

/-! ## Locations -/

/--
A location with its start and its file number. The length between them is not looked at, nor is
what follows a further colon.
-/
inductive Locates : List Char → Nat → Nat → Prop where
  | plain {first length last : List Char} {start index : Nat} (starts : Spells bound64 first start)
      (unbroken : ':' ∉ length) (numbered : Spells bound32 last index) :
      Locates (first ++ ':' :: length ++ ':' :: last) start index
  | further {first length last more : List Char} {start index : Nat}
      (starts : Spells bound64 first start) (unbroken : ':' ∉ length)
      (numbered : Spells bound32 last index) :
      Locates (first ++ ':' :: length ++ ':' :: last ++ ':' :: more) start index

/-- A location has its start first and its file number third among the pieces. -/
lemma locates_iff_cuts {text : List Char} : Locates text start index ↔
    ∃ first length last more, Cuts ':' text (first :: length :: last :: more) ∧
      Spells bound64 first start ∧ Spells bound32 last index := by
  have colonless {bound n : Nat} {text : List Char} (h : Spells bound text n) : ':' ∉ text :=
    h.not_mem rfl (by decide)
  constructor
  · intro located
    cases located with
    | @plain first length last _ _ starts unbroken numbered =>
      refine ⟨first, length, last, [], ?_, starts, numbered⟩
      rw [List.append_assoc, List.cons_append]
      exact .next (colonless starts) (.next unbroken (.last (colonless numbered)))
    | @further first length last more _ _ starts unbroken numbered =>
      refine ⟨first, length, last, splitOn ':' more, ?_, starts, numbered⟩
      simp only [List.append_assoc, List.cons_append]
      exact .next (colonless starts)
        (.next unbroken (.next (colonless numbered) (cuts_splitOn ':' more)))
  · rintro ⟨first, length, last, more, cuts, starts, numbered⟩
    obtain _ | ⟨_, _ | ⟨unbroken, _ | ⟨_, _⟩⟩⟩ := cuts
    · simpa using Locates.plain starts unbroken numbered
    · simpa using Locates.further starts unbroken numbered

lemma parts?_eq_some_iff : parts? src = some (start, index) ↔ Locates src.toList start index := by
  rw [parts?, locates_iff_cuts]
  constructor
  · intro parts
    have cuts := cuts_splitOn ':' src.toList
    split at parts
    · next first length last more pieces =>
      simp only [Option.bind_eq_bind, Option.bind_eq_some_iff, Option.pure_def, Option.some.injEq,
        Prod.mk.injEq, Numeral.read?_eq_some_iff] at parts
      obtain ⟨_, starts, _, numbered, rfl, rfl⟩ := parts
      rw [pieces] at cuts
      exact ⟨first, length, last, more, cuts, starts, numbered⟩
    · cases parts
  · rintro ⟨first, length, last, more, cuts, starts, numbered⟩
    rw [cuts.splitOn_eq]
    simp [Numeral.read?_eq_some_iff.2 starts, Numeral.read?_eq_some_iff.2 numbered]

lemma located?_eq_some_iff : (ofList files).located? src = some (table, start) ↔
    ∃ index file, Locates src.toList start index ∧ Latest files index file ∧
      file.lineTable = table := by
  simp only [located?, Option.bind_eq_bind, Option.bind_eq_some_iff, Option.pure_def,
    Option.some.injEq, Prod.exists, Prod.mk.injEq, parts?_eq_some_iff, find?_eq_some_iff]
  constructor
  · rintro ⟨_, index, located, _, ⟨file, latest, tabled⟩, rfl, rfl⟩
    exact ⟨index, file, located, latest, tabled⟩
  · rintro ⟨index, file, located, latest, tabled⟩
    exact ⟨start, index, located, table, ⟨file, latest, tabled⟩, rfl, rfl⟩

/-- What a location is decoded to, with files added one after the other. -/
inductive Decodes (files : List (Nat × SourceFile)) (src : String) : String → Prop where
  | line {start index : Nat} {file : SourceFile} (located : Locates src.toList start index)
      (latest : Latest files index file) :
      Decodes files src (file.path ++ ":" ++ toString (1 + newlinesBefore file.content start))
  | unchanged (unknown : ∀ start index file, Locates src.toList start index →
      ¬ Latest files index file) : Decodes files src src

/--
A location is decoded to the path of the file that was added last with its number, and to one more
than the line breaks among the bytes before its start. It stays as it is if its start or its number
cannot be read, or if there is no file with its number.
-/
theorem locations_carry_lines (files : List (Nat × SourceFile)) (src out : String) :
    (ofList files).decode src = out ↔ Decodes files src out := by
  rw [decode]
  constructor
  · rintro rfl
    split
    · next table start found =>
      obtain ⟨index, file, located, latest, rfl⟩ := located?_eq_some_iff.1 found
      rw [file.line_eq]
      exact .line located latest
    · next missing =>
      refine .unchanged fun start index file located latest => ?_
      have found := located?_eq_some_iff.2 ⟨index, file, located, latest, rfl⟩
      rw [missing] at found
      cases found
  · intro decodes
    cases decodes with
    | @line start index file located latest =>
      rw [located?_eq_some_iff.2 ⟨index, file, located, latest, rfl⟩]
      simp only [file.line_eq]
      rfl
    | unchanged unknown =>
      split
      · next table start found =>
        obtain ⟨index, file, located, latest, -⟩ := located?_eq_some_iff.1 found
        exact absurd latest (unknown start index file located)
      · rfl

/-- In the later file, a letter of two bytes and a line break come before byte 3. -/
example : (ofList [(8, ⟨"a.sol", "a\n"⟩), (8, ⟨"ü.sol", "é\né\n"⟩)]).decode "3:1:8" =
    "ü.sol:2" := by
  decide +kernel

end SourceFiles

end UpgradeSafety
