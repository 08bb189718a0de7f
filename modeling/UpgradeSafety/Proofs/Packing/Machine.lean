import UpgradeSafety.Proofs.Packing.Placing

/-!
# Packing on a machine

The packing rules as a machine computes them, whose numbers end somewhere. Its divisions, its
differences, its sums and the cutting of a word to 64 bits are all watched, also where nothing
looks at their results. Footprints of the shapes that types have keep every step within
bounds, and what the machine computes then are the numbers of the packing rules.
-/

namespace UpgradeSafety

/-- What goes wrong in a step of arithmetic whose outcome is not looked at. -/
inductive Fault where
  | divisionByZero
  | underflow
  | overflow
  /-- A word is cut to its last 64 bits and loses others. -/
  | truncation
  /-- A footprint is computed that is neither whole slots nor a part of one. -/
  | misshapen
  deriving DecidableEq, Repr

namespace Machine

/-! ## Steps of arithmetic -/

def divide (n d : Nat) : Except Fault Nat := if d = 0 then .error .divisionByZero else .ok (n / d)

def remainder (n d : Nat) : Except Fault Nat :=
  if d = 0 then .error .divisionByZero else .ok (n % d)

def subtract (n m : Nat) : Except Fault Nat := if n < m then .error .underflow else .ok (n - m)

/-- A sum of numbers of a type whose numbers are below `bound`. -/
def add (bound n m : Nat) : Except Fault Nat :=
  if n + m < bound then .ok (n + m) else .error .overflow

/-- A storage word as a number of 64 bits. -/
def narrow (n : Nat) : Except Fault Nat :=
  if n < Numeral.bound64 then .ok n else .error .truncation

/-- The quotient of two words rounded up. -/
def ceilDiv (n d : Nat) : Except Fault Nat := do
  let quotient ← divide n d
  let rest ← remainder n d
  if rest = 0 then return quotient else add Numeral.bound256 quotient 1

/-- A footprint that has been computed. -/
def shaped (f : Footprint) : Except Fault Footprint :=
  if f.ownSlot ∧ slotBytes ∣ f.bytes ∨ ¬ f.ownSlot ∧ 1 ≤ f.bytes ∧ f.bytes ≤ slotBytes then .ok f
  else .error .misshapen

/-! ## Packing -/

def aligned? (p : Position) (f : Footprint) : Except Fault (Option Position) := do
  let left ← subtract slotBytes p.offset
  if 0 < p.offset ∧ (f.ownSlot ∨ left < f.bytes) then
    return (word? (p.slot + 1)).map fun slot => ⟨slot, 0⟩
  else return some p

def beyond? (p : Position) (f : Footprint) : Except Fault (Option Position) := do
  if f.ownSlot then
    let count ← ceilDiv f.bytes slotBytes
    return (word? (p.slot + count)).map fun slot => ⟨slot, p.offset⟩
  else
    let bytes ← narrow f.bytes
    let offset ← add Numeral.bound64 p.offset bytes
    return some ⟨p.slot, offset⟩

def place (p : Position) (f : Footprint) : Except Fault (Option Position × Position) := do
  match ← aligned? p f with
  | none => return (none, p)
  | some start =>
    match ← beyond? start f with
    | none => return (none, start)
    | some next => return (some start, next)

def placeAll (p : Position) : List Footprint → Except Fault (Option Position)
  | [] => return some p
  | f :: rest => do
    match ← place p f with
    | (some _, next) => placeAll next rest
    | (none, _) => return none

def struct? (members : List Footprint) : Except Fault (Option Footprint) := do
  let free ← placeAll .origin members
  return free.bind fun free => free.slotsBefore?.bind Footprint.slots

def fixedArray? (element : Footprint) (length : Nat) : Except Fault (Option Footprint) := do
  if element.ownSlot then
    let count ← ceilDiv element.bytes slotBytes
    return (word? (length * count)).bind Footprint.slots
  else
    let perSlot ← divide slotBytes element.bytes
    let count ← ceilDiv length perSlot
    return Footprint.slots count

def enumBytes (count : Nat) : Except Fault Nat := do
  let last ← subtract (max count 2) 1
  ceilDiv (Nat.log2 last + 1) 8

/-! ## No step goes wrong -/

variable {n m d bound : Nat} {p : Position} {f : Footprint}

lemma divide_eq (positive : 0 < d) (n : Nat) : divide n d = .ok (n / d) :=
  if_neg (Nat.ne_of_gt positive)

lemma remainder_eq (positive : 0 < d) (n : Nat) : remainder n d = .ok (n % d) :=
  if_neg (Nat.ne_of_gt positive)

lemma subtract_eq (atMost : m ≤ n) : subtract n m = .ok (n - m) := if_neg (Nat.not_lt.2 atMost)

lemma add_eq (within : n + m < bound) : add bound n m = .ok (n + m) := if_pos within

lemma narrow_eq (within : n < Numeral.bound64) : narrow n = .ok n := if_pos within

/-- Only a quotient that is not exact is one less than what is returned. -/
lemma ceilDiv_eq (positive : 0 < d) (room : d ∣ n ∨ n / d + 1 < Numeral.bound256) :
    ceilDiv n d = .ok (UpgradeSafety.ceilDiv n d) := by
  rw [ceilDiv, divide_eq positive, remainder_eq positive, UpgradeSafety.ceilDiv]
  change (if n % d = 0 then _ else _) = _
  split
  · rfl
  · next inexact =>
    exact add_eq (room.resolve_left fun whole => inexact (Nat.mod_eq_zero_of_dvd whole))

lemma shaped_eq (shape : f.Admissible) : shaped f = .ok f := by
  cases shape with
  | slots count => exact if_pos (.inl ⟨rfl, Nat.dvd_mul_left _ _⟩)
  | packed positive fits => exact if_pos (.inr ⟨Bool.false_ne_true, positive, fits⟩)

lemma aligned?_eq (inside : p.offset ≤ slotBytes) (f : Footprint) :
    aligned? p f = .ok (p.aligned? f) := by
  rw [aligned?, subtract_eq inside, Position.aligned?]
  change (if _ then _ else _) = _
  split <;> rfl

lemma slotCount_eq (shape : f.Admissible) (own : f.ownSlot = true) :
    ceilDiv f.bytes slotBytes = .ok f.slotCount := by
  cases shape with
  | slots count => exact ceilDiv_eq (by decide) (.inl (Nat.dvd_mul_left _ _))
  | packed => cases own

/-- Neither the offset nor the bytes behind it come near the end of the numbers of 64 bits. -/
lemma beyond?_eq (inside : p.offset ≤ slotBytes) (shape : f.Admissible) :
    beyond? p f = .ok (p.beyond? f) := by
  rw [beyond?, Position.beyond?]
  cases own : f.ownSlot with
  | true =>
    rw [if_pos rfl, if_pos rfl, slotCount_eq shape own]
    rfl
  | false =>
    rw [if_neg Bool.false_ne_true, if_neg Bool.false_ne_true]
    cases shape with
    | slots => cases own
    | @packed bytes positive fits =>
      have small : slotBytes + slotBytes < Numeral.bound64 := by decide
      have narrowed : narrow (Footprint.packed bytes).bytes = .ok bytes :=
        narrow_eq (by simp only [Footprint.packed]; omega)
      have sum : add Numeral.bound64 p.offset bytes = .ok (p.offset + bytes) :=
        add_eq (by omega)
      rw [narrowed]
      change (add Numeral.bound64 p.offset bytes >>= _) = _
      rw [sum]
      rfl

/-- From a position inside a slot or right behind it, placing goes through every step. -/
lemma place_eq (inside : p.offset ≤ slotBytes) (shape : f.Admissible) :
    place p f = .ok (p.place f) := by
  rw [place, aligned?_eq inside, Position.place]
  cases aligned : p.aligned? f with
  | none => rfl
  | some start =>
    have within : start.offset ≤ slotBytes := by
      rcases Position.aligned?_eq_some aligned with ⟨_, rfl⟩ | ⟨rfl, _⟩
      · exact Nat.zero_le _
      · exact inside
    change (beyond? start f >>= _) = _
    rw [beyond?_eq within shape]
    cases beyond : start.beyond? f <;> simp only [beyond] <;> rfl

lemma placeAll_eq {fs : List Footprint} (inside : p.offset ≤ slotBytes)
    (shapes : ∀ f ∈ fs, f.Admissible) : placeAll p fs = .ok (p.placeAll fs) := by
  induction fs generalizing p with
  | nil => rfl
  | cons f fs ih =>
    have shape := shapes f List.mem_cons_self
    rw [placeAll, place_eq inside shape, Position.placeAll]
    rcases placed : p.place f with ⟨start | start, next⟩
    · rfl
    · exact ih (Position.places inside shape placed).inside
        fun g hg => shapes g (List.mem_cons_of_mem f hg)

lemma struct?_eq {members : List Footprint} (shapes : ∀ f ∈ members, f.Admissible) :
    struct? members = .ok (Footprint.struct? members) := by
  rw [struct?, placeAll_eq (Nat.zero_le _) shapes]
  rfl

/-- An array has as many elements as a word counts, and is divided among at least two of them
where it does not come out even. -/
lemma fixedArray?_eq (shape : f.Admissible) (inWord : n < Numeral.bound256) :
    fixedArray? f n = .ok (f.fixedArray? n) := by
  rw [fixedArray?, Footprint.fixedArray?]
  cases own : f.ownSlot with
  | true =>
    rw [if_pos rfl, if_pos rfl, slotCount_eq shape own]
    rfl
  | false =>
    rw [if_neg Bool.false_ne_true, if_neg Bool.false_ne_true]
    cases shape with
    | slots => cases own
    | @packed bytes positive fits =>
      have perSlot : 0 < slotBytes / bytes := Nat.div_pos fits positive
      have room : slotBytes / bytes ∣ n ∨ n / (slotBytes / bytes) + 1 < Numeral.bound256 := by
        rcases Nat.lt_or_ge 1 (slotBytes / bytes) with several | one
        · right
          have half : n / (slotBytes / bytes) ≤ n / 2 := Nat.div_le_div_left several (by decide)
          have large : 2 < Numeral.bound256 := by decide
          omega
        · left
          rw [Nat.le_antisymm one perSlot]
          exact Nat.one_dvd n
      have divided : divide slotBytes (Footprint.packed bytes).bytes = .ok (slotBytes / bytes) :=
        divide_eq positive slotBytes
      rw [divided]
      change (ceilDiv n (slotBytes / bytes) >>= _) = _
      rw [ceilDiv_eq perSlot room]
      rfl

/-- The last member of an enum that can be counted by a word of 64 bits has a number in it. -/
lemma log2_lastMember_lt (counted : n < Numeral.bound64) : Nat.log2 (max n 2 - 1) < 64 := by
  apply Nat.log2_lt (by omega) |>.2
  change n < 2 ^ 64 at counted
  omega

lemma enumBytes_eq (counted : n < Numeral.bound64) :
    enumBytes n = .ok (Footprint.enumBytes n) := by
  have two : 1 ≤ max n 2 := by omega
  have room : (Nat.log2 (max n 2 - 1) + 1) / 8 + 1 < Numeral.bound256 := by
    have bits := log2_lastMember_lt counted
    have large : 64 < Numeral.bound256 := by decide
    omega
  rw [enumBytes, subtract_eq two]
  exact ceilDiv_eq (by decide) (.inr room)

end Machine

end UpgradeSafety
