import UpgradeSafety.Proofs.TypeId.CanonicalTrees
import UpgradeSafety.Proofs.TypeId.ArrayLengths

/-!
# Canonical ids as renderings of trees

The canonical id of a type is its tree written out without node ids, with every
storage pointer as a storage reference and with the chosen names. A naming is
asked once for each declared type, from left to right. Names that begin with an
underscore or spell out a storage pointer are left out here.
-/

namespace UpgradeSafety

namespace TypeTree

/-- The node ids of the declared types in a tree, from left to right. -/
def nodes : TypeTree → List Nat
  | elementary _ => []
  | declared _ _ node _ => [node]
  | mapping key value => key.nodes ++ value.nodes
  | array element _ _ => element.nodes

/-- A tree in plain text, where `q` may choose the name of a declared type. -/
def render (q : NodeId → Option String) : TypeTree → List Char
  | elementary id => TypeId.unifyLocations id.letters
  | declared kind name node _ =>
    kind.head ++ '(' :: ((q node).map String.toList).getD name.letters ++
      ')' :: if kind = .struct then "storage".toList else []
  | mapping key value => mappingWord ++ '(' :: key.render q ++ ',' :: value.render q ++ [')']
  | array element length _ =>
    arrayWord ++ '(' :: element.render q ++ ')' :: length.text ++ "_storage".toList

/-- All names in a tree begin with a letter. -/
def Lettered (t : TypeTree) : Prop := ∀ name ∈ t.names, name.isHidden = false

/-- All node ids in a tree are numbers that a node can have. -/
def Numbered (t : TypeTree) : Prop := ∀ node ∈ t.nodes, node < Numeral.bound63

/-- No name in a tree spells out a storage pointer. -/
def Unlocated (t : TypeTree) : Prop := ∀ name ∈ t.names, ¬ "_storage_ptr".toList <:+: name.letters

instance (t : TypeTree) : Decidable t.Lettered :=
  inferInstanceAs (Decidable (∀ name ∈ t.names, name.isHidden = false))

instance (t : TypeTree) : Decidable t.Numbered :=
  inferInstanceAs (Decidable (∀ node ∈ t.nodes, node < Numeral.bound63))

instance (t : TypeTree) : Decidable t.Unlocated :=
  inferInstanceAs (Decidable (∀ name ∈ t.names, ¬ "_storage_ptr".toList <:+: name.letters))

/-- A tree with keys, names and node ids as the compiler writes them. -/
structure Regular (t : TypeTree) : Prop where
  keys : t.KeysPlain
  lettered : t.Lettered
  numbered : t.Numbered
  unlocated : t.Unlocated

namespace Regular

lemma key {k v : TypeTree} (h : (mapping k v).Regular) : k.Regular where
  keys := h.keys.2.1
  lettered name member := h.lettered name (List.mem_append_left _ member)
  numbered node member := h.numbered node (List.mem_append_left _ member)
  unlocated name member := h.unlocated name (List.mem_append_left _ member)

lemma value {k v : TypeTree} (h : (mapping k v).Regular) : v.Regular where
  keys := h.keys.2.2
  lettered name member := h.lettered name (List.mem_append_right _ member)
  numbered node member := h.numbered node (List.mem_append_right _ member)
  unlocated name member := h.unlocated name (List.mem_append_right _ member)

lemma element {e : TypeTree} {length : ArrayLength} {pointer : Bool}
    (h : (array e length pointer).Regular) : e.Regular :=
  ⟨h.keys, h.lettered, h.numbered, h.unlocated⟩

end Regular

end TypeTree

namespace TypeId

lemma replaceFrom_of_absent {pattern replacement w : List Char} (absent : ¬ pattern <:+: w) :
    replaceFrom pattern replacement 0 w = w := by
  induction w with
  | nil => rfl
  | cons c w ih =>
    have before : ¬ pattern <+: c :: w := fun h => absent h.isInfix
    have behind : ¬ pattern <:+: w := fun h => absent (h.trans (List.suffix_cons c w).isInfix)
    rw [replaceFrom_miss before, ih behind]

lemma locationText_behind (kind : DeclarationKind) :
    (kind.locationText false).drop 1 = if kind = .struct then "storage".toList else [] := by
  cases kind <;> rfl

/-- In a regular tree the chosen names are the only ones that are not as declared. -/
lemma write_canonical (q : NodeId → Option String) {t : TypeTree} (regular : t.Regular) :
    t.write (.canonical q) = t.render q := by
  induction t with
  | elementary id => rfl
  | declared kind name node pointer =>
    have shown : name.isHidden = false := regular.lettered name List.mem_cons_self
    have small : node < Numeral.bound63 := regular.numbered node List.mem_cons_self
    have kept : unifyLocations name.letters = name.letters :=
      replaceFrom_of_absent (regular.unlocated name List.mem_cons_self)
    have chosen : chosenName q node = q node := if_pos small
    rw [TypeTree.write, Spelling.canonical_declared, shown, chosen, kept, locationText_behind]
    rfl
  | mapping key value ihk ihv =>
    simp only [TypeTree.write, TypeTree.render, Spelling.canonical_opening,
      Spelling.canonical_comma, Spelling.canonical_closing, ihk regular.key, ihv regular.value,
      List.append_assoc, List.cons_append, List.nil_append]
  | array element length pointer ih =>
    simp only [TypeTree.write, TypeTree.render, Spelling.canonical_opening,
      Spelling.canonical_closing, Spelling.canonical_location, ih regular.element,
      List.append_assoc, List.cons_append, List.nil_append]
    rfl

lemma copied_nodes (text : List Char) : (copied text).filterMap Segment.node? = [] := by
  rw [List.filterMap_eq_nil_iff]
  intro segment member
  obtain ⟨c, -, rfl⟩ := List.mem_map.1 member
  rfl

/-- The node ids that are read in a tree are its own, in order. -/
lemma pieces_nodes {t : TypeTree} (lettered : t.Lettered) (numbered : t.Numbered) :
    t.pieces.filterMap Segment.node? = t.nodes.map Int.ofNat := by
  induction t with
  | elementary id => exact copied_nodes _
  | declared kind name node pointer =>
    have shown : name.isHidden = false := lettered name List.mem_cons_self
    have small : node < Numeral.bound63 := numbered node List.mem_cons_self
    have read : readNode? node = some (node : NodeId) := if_pos small
    simp only [TypeTree.pieces, shown, Bool.false_eq_true, if_false, List.filterMap_cons,
      Segment.node?, read, copied_nodes]
    rfl
  | mapping key value ihk ihv =>
    have inKey := ihk (fun name member => lettered name (List.mem_append_left _ member))
      fun node member => numbered node (List.mem_append_left _ member)
    have inValue := ihv (fun name member => lettered name (List.mem_append_right _ member))
      fun node member => numbered node (List.mem_append_right _ member)
    simp only [TypeTree.pieces, TypeTree.nodes, List.filterMap_append, List.filterMap_cons,
      List.filterMap_nil, copied_nodes, Segment.node?, inKey, inValue, List.map_append,
      List.nil_append, List.append_nil]
  | array element length pointer ih =>
    simp only [TypeTree.pieces, TypeTree.nodes, List.filterMap_append, List.filterMap_cons,
      copied_nodes, Segment.node?, ih lettered numbered, List.nil_append, List.append_nil]

/--
The canonical id of an encoded tree is its plain text, under the names that `q` chooses,
and `q` is asked for the nodes of its declared types, once for each and from left to right.
-/
theorem canonicalWith_eq_render (q : NodeId → Option String) (t : TypeTree)
    (regular : t.Regular) :
    canonicalWith q t.encode = String.ofList (t.render q) ∧
      nodes t.encode = t.nodes.map Int.ofNat := by
  constructor
  · rw [canonicalWith_encode q t regular.keys, write_canonical q regular]
  · rw [nodes, segments_encode t regular.keys, pieces_nodes regular.lettered regular.numbered]

def modeName : DeclaredName :=
  ⟨"Mode".toList, by decide, word_of_all (by decide), undigited_of_all (by decide)⟩

def pairName : DeclaredName :=
  ⟨"Pair__".toList, by decide, word_of_all (by decide), undigited_of_all (by decide)⟩

/-- A mapping from modes to pairs of structs whose name ends with two underscores. -/
def pairsByMode : TypeTree :=
  .mapping (.declared .enum modeName 4 false)
    (.array (.declared .struct pairName 12 true) (.fixed 2) true)

theorem pairsByMode_rendered :
    pairsByMode.encode =
        "t_mapping$_t_enum$_Mode_$4_$_t_array$_t_struct$_Pair___$12_storage_ptr_$2_storage_ptr_$" ∧
      canonicalWith (fun node => if node = 12 then some "Lib.Pair__" else none)
          pairsByMode.encode =
        "t_mapping(t_enum(Mode),t_array(t_struct(Lib.Pair__)storage)2_storage)" ∧
      nodes pairsByMode.encode = [4, 12] := by
  have regular : pairsByMode.Regular :=
    ⟨⟨rfl, trivial, trivial⟩, by decide, by decide, by decide +kernel⟩
  obtain ⟨rendered, asked⟩ := canonicalWith_eq_render
    (fun node => if node = 12 then some "Lib.Pair__" else none) pairsByMode regular
  refine ⟨by decide +kernel, ?_, asked⟩
  rw [rendered]
  decide +kernel

end TypeId

end UpgradeSafety
