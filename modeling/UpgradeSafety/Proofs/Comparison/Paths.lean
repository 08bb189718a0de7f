import Mathlib.Logic.Relation
import UpgradeSafety.Proofs.Comparison.Plain
import UpgradeSafety.Proofs.Comparison.References

/-!
# Paths through pairs of types

The pairs that are compared make up a graph. A comparison that comes to an end
meets no pair twice on the way in, so its result is the same on every path that
does not cross what it reaches. An error names a pair that was met twice, and so
a cycle of the graph, unless the pair was open from the start.
-/

namespace UpgradeSafety

/--
Types of two kinds are compared by pairs of types inside them: structs with known
members by the members in the same position, mappings by their keys and, if these
are compatible, by their values, arrays of one length by their elements.
-/
inductive Inside (compatible : TypeId → TypeId → Prop) :
    Option TypeKind → Option TypeKind → TypeId → TypeId → Prop where
  | member {os ns : List StructMember} {a b : StructMember} (place : (a, b) ∈ os.zip ns) :
      Inside compatible (some (.struct (some os))) (some (.struct (some ns))) a.type b.type
  | key {ok nk ov nv : TypeId} :
      Inside compatible (some (.mapping ok ov)) (some (.mapping nk nv)) ok nk
  | value {ok nk ov nv : TypeId} (keys : compatible ok nk) :
      Inside compatible (some (.mapping ok ov)) (some (.mapping nk nv)) ov nv
  | element {oe ne : TypeId} {length : ArrayLength} :
      Inside compatible (some (.array oe length)) (some (.array ne length)) oe ne

lemma Inside.references {compatible : TypeId → TypeId → Prop} {a b : Option TypeKind}
    {k k' : TypeId} (inside : Inside compatible a b k k') :
    ∃ kind kind', a = some kind ∧ b = some kind' ∧ k ∈ kind.references ∧
      k' ∈ kind'.references := by
  cases inside with
  | member place =>
    have members := List.of_mem_zip place
    exact ⟨_, _, rfl, rfl, List.mem_map_of_mem members.1, List.mem_map_of_mem members.2⟩
  | key => exact ⟨_, _, rfl, rfl, List.mem_cons_self, List.mem_cons_self⟩
  | value _ => exact ⟨_, _, rfl, rfl, .tail _ List.mem_cons_self, .tail _ List.mem_cons_self⟩
  | element => exact ⟨_, _, rfl, rfl, List.mem_cons_self, List.mem_cons_self⟩

namespace Rule

variable {compatible : TypeId → TypeId → Prop} {o n k k' : TypeId}

lemma not_asks_enums {os ns : List String} : ¬ (enums os ns).Asks compatible k k' := by
  intro asks
  rw [enums] at asks
  by_cases width : Footprint.enumBytes os.length = Footprint.enumBytes ns.length
  · rw [if_pos width] at asks
    cases edits : enumEdits os ns with
    | nil => rw [edits] at asks; cases asks
    | cons _ _ => rw [edits] at asks; cases asks
  · rw [if_neg width] at asks
    cases asks

lemma arrays_asks {oe ne : TypeId} {ol nl : ArrayLength}
    (asks : (arrays oe ne ol nl).Asks compatible k k') : ol = nl ∧ k = oe ∧ k' = ne := by
  unfold arrays at asks
  split at asks
  · cases asks
  · cases asks
  · next l m =>
    split at asks
    · cases asks
    · split at asks
      · cases asks
      · cases asks
        have same : l = m := by omega
        exact ⟨by rw [same], rfl, rfl⟩
  · cases asks
    exact ⟨rfl, rfl, rfl⟩

lemma ofKinds_asks {a b : Option TypeKind} :
    (ofKinds o n a b).Asks compatible k k' ↔ Inside compatible a b k k' := by
  constructor
  · intro asks
    unfold ofKinds at asks
    split at asks
    case h_2 | h_3 | h_4 | h_12 => split at asks <;> cases asks
    case h_5 =>
      cases asks with
      | member place => exact .member place
    case h_7 => exact (not_asks_enums asks).elim
    case h_9 =>
      cases asks with
      | key => exact .key
      | value keys => exact .value keys
    case h_10 =>
      obtain ⟨rfl, rfl, rfl⟩ := arrays_asks asks
      exact .element
    all_goals cases asks
  · intro inside
    cases inside with
    | member place => exact .member place
    | key => exact .key
    | value keys => exact .value keys
    | @element _ _ length =>
      cases length with
      | dynamic => exact .element
      | fixed l =>
        simp only [ofKinds, arrays, Nat.lt_irrefl, if_false]
        exact .element

end Rule

namespace Comparison

section Paths

variable {old new : Layout} {allow : Bool} {path path' : List TypePair} {label label' : String}
  {o n k k' : TypeId} {change : Option Change} {compatible : TypeId → TypeId → Prop}

/-- The types that a rule asks for are types that its pair is made of. -/
lemma refers_of_asks (asks : (Rule.ofTypes old new o n).Asks compatible k k') :
    old.Refers o k ∧ new.Refers n k' := by
  obtain ⟨_, _, oldKind, newKind, left, right⟩ := (Rule.ofKinds_asks.1 asks).references
  exact ⟨Layout.refers_of_kind? oldKind left, Layout.refers_of_kind? newKind right⟩

lemma registered_of_asks (asks : (Rule.ofTypes old new o n).Asks compatible k k') :
    (o, n) ∈ registeredPairs old new := by
  obtain ⟨left, right⟩ := refers_of_asks asks
  rw [registeredPairs, Finset.mem_product, List.mem_toFinset, List.mem_toFinset]
  exact ⟨left.registered, right.registered⟩

lemma plainTypes_met (met : (o, n) ∈ path) :
    plainTypes old new allow path label o n = .error ⟨o, n, label⟩ := by
  rw [plainTypes, dif_pos met]

lemma plainTypes_fresh (fresh : (o, n) ∉ path) :
    plainTypes old new allow path label o n =
      plainRule allow (plainTypes old new allow ((o, n) :: path)) label o n
        (Rule.ofTypes old new o n) := by
  rw [plainTypes, dif_neg fresh]
  by_cases registered : (o, n) ∈ registeredPairs old new
  · rw [dif_pos registered]
  · rw [dif_neg registered]
    exact plainRule_congr fun _ _ _ asks => absurd (registered_of_asks asks) registered

lemma not_met_of_ends (ended : plainTypes old new allow path label o n = .ok change) :
    (o, n) ∉ path := by
  intro met
  rw [plainTypes_met met] at ended
  cases ended

/-- Paths hold registered pairs at most once, so they can be gone through from the longest ones. -/
lemma path_induction (old new : Layout) {motive : List TypePair → Prop}
    (step : ∀ path, (∀ pair ∈ registeredPairs old new, pair ∉ path → motive (pair :: path)) →
      motive path) (path : List TypePair) : motive path := by
  induction left : (registeredPairs old new \ path.toFinset).card using Nat.strongRecOn
    generalizing path with
  | _ count ih =>
    refine step path fun pair registered fresh => ih _ ?_ (pair :: path) rfl
    exact left ▸ fewer_left registered fresh

/-- A comparison that comes to an end has the same result inside every part of its path. -/
lemma plainTypes_anyPath (ended : plainTypes old new allow path label o n = .ok change)
    (part : path' ⊆ path) : plainTypes old new allow path' label' o n = .ok change := by
  induction path using path_induction old new generalizing path' label label' o n change with
  | step path ih =>
    have fresh := not_met_of_ends ended
    rw [plainTypes_fresh fresh] at ended
    rw [plainTypes_fresh fun met => fresh (part met)]
    refine plainRule_refines (fun _ _ _ _ _ asks inside => ?_) ended
    exact ih (o, n) (registered_of_asks asks) fresh inside (List.cons_subset_cons _ part)

/-- Two types may be exchanged: to compare them alone finds no change. -/
def Compatible (old new : Layout) (allow : Bool) (o n : TypeId) : Prop :=
  ∀ label, plainTypes old new allow [] label o n = .ok none

lemma compatible_of_ends (ended : plainTypes old new allow path label o n = .ok none) :
    Compatible old new allow o n :=
  fun _ => plainTypes_anyPath ended (List.nil_subset _)

lemma Compatible.no_change (compatible : Compatible old new allow o n)
    (ended : plainTypes old new allow path label o n = .ok change) : change = none := by
  have alone : plainTypes old new allow [] label o n = .ok change :=
    plainTypes_anyPath ended (List.nil_subset _)
  rw [compatible label] at alone
  exact (Except.ok.inj alone).symm

/-- A pair of types leads to the pairs that it is compared by. -/
def LeadsTo (old new : Layout) (allow : Bool) (p q : TypePair) : Prop :=
  Inside (Compatible old new allow) (old.kind? p.1) (new.kind? p.2) q.1 q.2

open Relation (ReflTransGen TransGen)

lemma leadsTo_iff_asks {p q : TypePair} : LeadsTo old new allow p q ↔
    (Rule.ofTypes old new p.1 p.2).Asks (Compatible old new allow) q.1 q.2 :=
  Rule.ofKinds_asks.symm

/-- What a comparison asks for are the pairs that its own pair leads to. -/
lemma leadsTo_of_asks {path : List TypePair} (asks : (Rule.ofTypes old new o n).Asks
      (fun x y => ∃ label, plainTypes old new allow path label x y = .ok none) k k') :
    LeadsTo old new allow (o, n) (k, k') :=
  leadsTo_iff_asks.2 (asks.mono fun _ _ ⟨_, ended⟩ => compatible_of_ends ended)

/-- Where a comparison comes to an end, so do those of the pairs that its pair leads to. -/
lemma LeadsTo.ends {p q : TypePair} (leads : LeadsTo old new allow p q)
    (ended : plainTypes old new allow path label p.1 p.2 = .ok change) :
    ∃ label change, plainTypes old new allow (p :: path) label q.1 q.2 = .ok change := by
  rw [plainTypes_fresh (not_met_of_ends ended)] at ended
  exact plainRule_asked ended (leadsTo_iff_asks.1 leads) fun _ _ _ _ keys => keys.no_change

/--
Where a comparison comes to an end, so do those of all pairs that are reached from
its pair, inside paths that hold the pairs passed on the way.
-/
lemma reached_ends {p q : TypePair}
    (ended : plainTypes old new allow path label p.1 p.2 = .ok change)
    (reached : ReflTransGen (LeadsTo old new allow) p q) :
    ∃ path' label change, plainTypes old new allow path' label q.1 q.2 = .ok change ∧
      path ⊆ path' ∧ (q = p ∨ p ∈ path') := by
  induction reached with
  | refl => exact ⟨path, label, change, ended, List.Subset.refl _, .inl rfl⟩
  | @tail r q _ leads ih =>
    obtain ⟨before, _, _, ended, within, start⟩ := ih
    obtain ⟨label, change, ended⟩ := leads.ends ended
    refine ⟨r :: before, label, change, ended, fun _ h => .tail _ (within h), .inr ?_⟩
    rcases start with rfl | start
    · exact List.mem_cons_self
    · exact .tail _ start

lemma not_reached_of_ends {p q : TypePair}
    (ended : plainTypes old new allow path label p.1 p.2 = .ok change) (passed : q ∈ path) :
    ¬ ReflTransGen (LeadsTo old new allow) p q := by
  intro reached
  obtain ⟨path', _, _, ended, within, -⟩ := reached_ends ended reached
  exact not_met_of_ends ended (within passed)

/-- A pair whose comparison comes to an end lies on no cycle. -/
lemma not_cyclic_of_ends {p : TypePair}
    (ended : plainTypes old new allow path label p.1 p.2 = .ok change) :
    ¬ TransGen (LeadsTo old new allow) p p := by
  intro cycle
  obtain ⟨q, leads, back⟩ := Relation.TransGen.head'_iff.1 cycle
  obtain ⟨_, _, ended⟩ := leads.ends ended
  exact not_reached_of_ends ended List.mem_cons_self back

/-- A comparison that comes to an end does so inside every path of which it meets no pair. -/
lemma plainTypes_deeper (ended : plainTypes old new allow path label o n = .ok change)
    (apart : ∀ q ∈ path', ¬ ReflTransGen (LeadsTo old new allow) (o, n) q) :
    plainTypes old new allow path' label' o n = .ok change := by
  induction path using path_induction old new generalizing path' label label' o n change with
  | step path ih =>
    have fresh := not_met_of_ends ended
    have acyclic := not_cyclic_of_ends (p := (o, n)) ended
    have fresh' : (o, n) ∉ path' := fun met => apart _ met .refl
    rw [plainTypes_fresh fresh] at ended
    rw [plainTypes_fresh fresh']
    refine plainRule_refines (fun _ _ k k' _ asks inside => ?_) ended
    have leads := leadsTo_of_asks asks
    refine ih (o, n) (registered_of_asks asks) fresh inside fun q passed reached => ?_
    rcases List.mem_cons.1 passed with rfl | passed
    · exact acyclic (.head' leads reached)
    · exact apart q passed (.head leads reached)

/-- The pair that an error names was reached, and it is open or lies on a cycle. -/
lemma plainTypes_error {cause : Recursion}
    (failed : plainTypes old new allow path label o n = .error cause) :
    ReflTransGen (LeadsTo old new allow) (o, n) (cause.old, cause.new) ∧
      ((cause.old, cause.new) ∈ path ∨
        TransGen (LeadsTo old new allow) (cause.old, cause.new) (cause.old, cause.new)) := by
  induction path using path_induction old new generalizing label o n with
  | step path ih =>
    by_cases met : (o, n) ∈ path
    · rw [plainTypes_met met] at failed
      obtain rfl := Except.error.inj failed
      exact ⟨.refl, .inl met⟩
    · rw [plainTypes_fresh met] at failed
      obtain ⟨_, _, _, asks, inside⟩ := plainRule_error failed
      have leads := leadsTo_of_asks asks
      obtain ⟨reached, found⟩ := ih (o, n) (registered_of_asks asks) met inside
      refine ⟨.head leads reached, ?_⟩
      rcases found with passed | cycle
      · rcases List.mem_cons.1 passed with here | passed
        · rw [here] at reached ⊢
          exact .inr (.head' leads reached)
        · exact .inl passed
      · exact .inr cycle

end Paths

end Comparison

end UpgradeSafety
