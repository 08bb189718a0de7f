import UpgradeSafety.Proofs.Comparison.Cycles
import UpgradeSafety.Proofs.Comparison.Unchanged

/-!
# Upgrades that append variables

A layout with more variables behind the old ones, and types of the old ones that are
described as before, may replace the old layout without a report, and to go back is
to delete these variables. This takes types that are not made of themselves and no
missed members. A type that is made of itself is an error if the comparison gets to
it, which a mapping with unknown members in its key may prevent.
-/

namespace UpgradeSafety

open Relation (ReflTransGen TransGen)

namespace Layout

variable {l : Layout} {allow : Bool} {t u : TypeId}

lemma Holds.transparent (known : allow = true ∨ ∀ t, l.Holds t → l.Known t) (held : l.Holds t) :
    l.Transparent allow t :=
  known.imp_right fun known u inside => known u (held.trans inside)

lemma Holds.follows (known : allow = true ∨ ∀ t, l.Holds t → l.Known t) (held : l.Holds t)
    (refers : l.Refers t u) : l.Follows allow t u := by
  refine ⟨refers, fun key value mapping => .inr ?_⟩
  have inside : l.Refers t key := refers_of_kind? mapping List.mem_cons_self
  exact (held.trans (.single inside)).transparent known

/-- Where no members are missed, a comparison of types with themselves follows every reference. -/
lemma Holds.followed (known : allow = true ∨ ∀ t, l.Holds t → l.Known t) (held : l.Holds t)
    (inside : ReflTransGen l.Refers t u) : ReflTransGen (l.Follows allow) t u := by
  induction inside with
  | refl => exact .refl
  | tail before refers ih => exact ih.tail ((held.trans before).follows known refers)

lemma Holds.followed_cycle (known : allow = true ∨ ∀ t, l.Holds t → l.Known t) (held : l.Holds t)
    (cycle : TransGen l.Refers t t) : TransGen (l.Follows allow) t t := by
  obtain ⟨u, inside, refers⟩ := TransGen.tail'_iff.1 cycle
  exact .tail' (held.followed known inside) ((held.trans inside).follows known refers)

end Layout

namespace Comparison

variable {l new : Layout} {allow : Bool} {extra : List StorageItem}

/-- Where no type is made of itself, every one may take its own place. -/
lemma compatible_of_acyclic {old : Layout} (inOld : old.AgreesWith l) (inNew : new.AgreesWith l)
    (known : allow = true ∨ ∀ t, l.Holds t → l.Known t)
    (acyclic : ∀ t, l.Holds t → ¬ TransGen l.Refers t t) {t : TypeId} (held : l.Holds t) :
    Compatible old new allow t t := by
  apply compatible_self inOld inNew held (held.transparent known)
  intro u followed cycle
  have inside := Layout.Follows.inside followed
  have looped : TransGen l.Refers u u :=
    TransGen.mono (fun _ _ (step : l.Follows allow _ _) => step.1) _ _ cycle
  exact acyclic u (held.trans inside) looped

lemma storage_compatible_self {old : Layout} (inOld : old.AgreesWith l) (inNew : new.AgreesWith l)
    (known : allow = true ∨ ∀ t, l.Holds t → l.Known t)
    (acyclic : ∀ t, l.Holds t → ¬ TransGen l.Refers t t) :
    FieldsMatch (Compatible old new allow) l.storage l.storage := by
  refine List.forall₂_same.2 fun item member => ⟨by simp [sameLabel], ?_⟩
  exact compatible_of_acyclic inOld inNew known acyclic (Layout.Holds.of_mem member)

variable (inNew : new.AgreesWith l)

include inNew

/-- What a comparison follows from a pair of equal types is what its pair leads to. -/
lemma leadsTo_of_follows {ops : List ItemOperation} {t u : TypeId}
    (ended : plainDifferences l new allow = .ok ops) (reached : Reached l new allow (t, t))
    (held : l.Holds t) (follows : l.Follows allow t u) : LeadsTo l new allow (t, t) (u, u) := by
  have inOld : l.AgreesWith l := fun _ _ => rfl
  refine (leadsTo_self_iff inOld inNew held).2 ⟨rfl, follows.1, fun key value mapping => ?_⟩
  refine (follows.2 key value mapping).imp_right fun transparent => ?_
  have refers : l.Refers t key := Layout.refers_of_kind? mapping List.mem_cons_self
  have leads : LeadsTo l new allow (t, t) (key, key) :=
    (leadsTo_self_iff inOld inNew held).2 ⟨rfl, refers, fun key' value' mapping' =>
      .inl (TypeKind.mapping.inj (Option.some.inj (mapping.symm.trans mapping'))).1⟩
  obtain ⟨_, _, _, keys⟩ := (reached.trans (.single leads)).ends ended
  have silent := no_change_of_transparent inOld inNew (held.trans (.single refers)) transparent keys
  exact compatible_of_ends (silent ▸ keys)

lemma reached_of_followed {ops : List ItemOperation} {t u : TypeId}
    (ended : plainDifferences l new allow = .ok ops) (reached : Reached l new allow (t, t))
    (held : l.Holds t) (followed : ReflTransGen (l.Follows allow) t u) :
    ReflTransGen (LeadsTo l new allow) (t, t) (u, u) := by
  induction followed with
  | refl => exact .refl
  | tail before follows ih =>
    have here := held.trans (Layout.Follows.inside before)
    exact ih.tail (leadsTo_of_follows inNew ended (reached.trans ih) here follows)

/-- A comparison with a layout that describes the same types as before fails exactly if it gets
to a type that is made of itself. -/
lemma fails_iff_followed_cycle (allow : Bool) (parts : new.storage = l.storage ++ extra) :
    (∃ cause, compareLayouts l new allow = .error cause) ↔
      ∃ item ∈ l.storage, ∃ t, ReflTransGen (l.Follows allow) item.type t ∧
        TransGen (l.Follows allow) t t := by
  have inOld : l.AgreesWith l := fun _ _ => rfl
  have places : l.storage.zip new.storage = l.storage.zip l.storage := by
    have split : (l.storage ++ []).zip (l.storage ++ extra) = _ := List.zip_append rfl
    rw [parts]
    simpa only [List.append_nil, List.zip_nil_left] using split
  rw [compareLayouts_eq_plain]
  constructor
  · rintro ⟨cause, failed⟩
    obtain ⟨⟨a, b, place, reached⟩, cycle⟩ := cycle_of_error failed
    rw [places] at place
    obtain ⟨rfl, member⟩ := mem_zip_self.1 place
    have held := Layout.Holds.of_mem member
    obtain ⟨same, followed⟩ := reached_self inOld inNew held reached
    rw [← same] at cycle
    have inside := Layout.Follows.inside followed
    exact ⟨a, member, _, followed, cycle_self inOld inNew (held.trans inside) cycle⟩
  · rintro ⟨item, member, t, followed, cycle⟩
    cases outcome : plainDifferences l new allow with
    | error cause => exact ⟨cause, rfl⟩
    | ok ops =>
      -- without an error the pairs of equal types lead on just as the types do, so there would be
      -- a cycle of pairs as well
      have held := Layout.Holds.of_mem member
      have start : Reached l new allow (item.type, item.type) :=
        ⟨item, item, places ▸ mem_zip_self.2 ⟨rfl, member⟩, .refl⟩
      have reached := start.trans (reached_of_followed inNew outcome start held followed)
      have here := held.trans (Layout.Follows.inside followed)
      obtain ⟨u, before, follows⟩ := TransGen.tail'_iff.1 cycle
      have back := reached_of_followed inNew outcome reached here before
      have there := here.trans (Layout.Follows.inside before)
      have leads := leadsTo_of_follows inNew outcome (reached.trans back) there follows
      exact absurd (TransGen.tail' back leads) (reached.not_cyclic outcome)

end Comparison

/--
Variables appended to a layout, with types that are described as before, are not
reported, and undoing this is to delete them, unless members are unknown or a type is
made of itself. A comparison fails exactly if it gets to a type that is made of itself
by references that it follows, and these are all references where no members are missed.
-/
theorem appending_is_silent_or_fails (l : Layout) (extra : List StorageItem)
    (types : Table TypeItem) (allow : Bool)
    (agrees : Layout.AgreesWith ⟨l.storage ++ extra, types⟩ l) :
    ((∀ t, l.Holds t → l.Known t) → (∀ t, l.Holds t → ¬ TransGen l.Refers t t) →
      compareLayouts l ⟨l.storage ++ extra, types⟩ allow = .ok [] ∧
        compareLayouts l l allow = .ok [] ∧
        compareLayouts ⟨l.storage ++ extra, types⟩ l allow = .ok (extra.map .delete)) ∧
      ((∃ cause, compareLayouts l ⟨l.storage ++ extra, types⟩ allow = .error cause) ↔
        ∃ item ∈ l.storage, ∃ t, ReflTransGen (l.Follows allow) item.type t ∧
          TransGen (l.Follows allow) t t) ∧
      ((allow = true ∨ ∀ t, l.Holds t → l.Known t) →
        ∀ t, l.Holds t → TransGen l.Refers t t →
          ∃ cause, compareLayouts l ⟨l.storage ++ extra, types⟩ allow = .error cause) := by
  have unchanged : l.AgreesWith l := fun _ _ => rfl
  have fails := Comparison.fails_iff_followed_cycle agrees allow rfl
  refine ⟨fun known acyclic => ⟨?_, ?_, ?_⟩, fails, fun known t held cycle => fails.2 ?_⟩
  · exact Comparison.compareLayouts_of_appends rfl
      (Comparison.storage_compatible_self unchanged agrees (.inr known) acyclic)
  · exact Comparison.compareLayouts_of_appends (List.append_nil _).symm
      (Comparison.storage_compatible_self unchanged unchanged (.inr known) acyclic)
  · exact Comparison.compareLayouts_of_deletes rfl
      (Comparison.storage_compatible_self agrees unchanged (.inr known) acyclic)
  · obtain ⟨item, member, inside⟩ := held
    have start := Layout.Holds.of_mem member
    exact ⟨item, member, t, start.followed known inside,
      (start.trans inside).followed_cycle known cycle⟩

/-! ## An auction with a fee -/

namespace Layout

variable {l : Layout} {t : TypeId}

/-- Types held by a layout that describes all it refers to are described by it. -/
lemma Holds.registered (items : ∀ item ∈ l.storage, l.types.contains item.type = true)
    (references : ∀ item ∈ l.types.values, ∀ u ∈ item.kind.references, l.types.contains u = true)
    (held : l.Holds t) : l.types.contains t = true := by
  refine Table.contains_iff.2 (held.entered (fun item member => ?_) fun found u member => ?_)
  · exact Table.contains_iff.1 (items item member)
  · exact Table.contains_iff.1 (references _ (Table.mem_values_of_find? found) u member)

lemma known_of_registered (closed : ∀ item ∈ l.types.values, item.kind.isOpen = false)
    (registered : l.types.contains t = true) : l.Known t := by
  obtain ⟨item, found⟩ := Table.contains_iff.1 registered
  intro kind here
  rw [kind?_of_type? found] at here
  exact Option.some.inj here ▸ closed item (Table.mem_values_of_find? found)

/-- Types whose ids are longer than those of the types inside are not made of themselves. -/
lemma not_cyclic_of_lengths (falls : ∀ entry ∈ l.types.entries, ∀ u ∈ entry.2.kind.references,
    u.length < entry.1.length) : ¬ TransGen l.Refers t t := by
  have step : ∀ {u v : TypeId}, l.Refers u v → v.length < u.length := by
    rintro u v ⟨item, found, member⟩
    exact falls (u, item) (Table.mem_entries_of_find? found) v member
  have path : ∀ {u}, TransGen l.Refers t u → u.length < t.length := by
    intro u inside
    induction inside with
    | single refers => exact step refers
    | tail _ refers ih => exact Nat.lt_trans (step refers) ih
  exact fun cycle => Nat.lt_irrefl _ (path cycle)

end Layout

/-- An auction with a state, of which two members have one name, and the bids of accounts. -/
def auction : Layout :=
  ⟨[⟨"Auction", "state", "t_enum(State)", 0, 0, none, none⟩,
    ⟨"Auction", "bids", "t_mapping(t_address,t_array(t_struct(Bid)storage)dyn_storage)", 1, 0,
      none, none⟩],
   Table.ofList [("t_address", ⟨"address", 20, .value⟩), ("t_uint256", ⟨"uint256", 32, .value⟩),
    ("t_enum(State)", ⟨"enum State", 1, .enum (some ["Open", "Closed", "Open"])⟩),
    ("t_struct(Bid)storage", ⟨"struct Bid", 64,
      .struct (some [⟨"bidder", "t_address"⟩, ⟨"amount", "t_uint256"⟩])⟩),
    ("t_array(t_struct(Bid)storage)dyn_storage", ⟨"struct Bid[]", 32,
      .array "t_struct(Bid)storage" .dynamic⟩),
    ("t_mapping(t_address,t_array(t_struct(Bid)storage)dyn_storage)",
      ⟨"mapping(address => struct Bid[])", 32,
        .mapping "t_address" "t_array(t_struct(Bid)storage)dyn_storage"⟩)]⟩

def auctionFee : StorageItem := ⟨"Auction", "fee", "t_uint64", 2, 0, none, none⟩

/-- The auction with a fee behind its variables. -/
def auctionWithFee : Layout :=
  ⟨auction.storage ++ [auctionFee], auction.types.insert "t_uint64" ⟨"uint64", 8, .value⟩⟩

theorem auction_gains_fee :
    compareLayouts auction auctionWithFee false = .ok [] ∧
      compareLayouts auction auction false = .ok [] ∧
      compareLayouts auctionWithFee auction false = .ok [.delete auctionFee] ∧
      ∃ cause, compareLayouts Comparison.linkedNodes
        ⟨Comparison.linkedNodes.storage ++ [auctionFee], Comparison.linkedNodes.types⟩ false =
          .error cause := by
  have registered : ∀ t, auction.Holds t → auction.types.contains t = true := fun t held =>
    held.registered (by decide +kernel) (by decide +kernel)
  have agrees : auctionWithFee.AgreesWith auction := by
    intro t held
    obtain ⟨item, found⟩ := Table.contains_iff.1 (registered t held)
    have other : t ≠ "t_uint64" := Table.ne_of_find? (by decide +kernel) found
    exact Table.find?_insert_of_ne _ other _
  have silent := (appending_is_silent_or_fails auction [auctionFee] _ false agrees).1
    (fun t held => Layout.known_of_registered (by decide +kernel) (registered t held))
    fun t _ => Layout.not_cyclic_of_lengths (by decide +kernel)
  refine ⟨silent.1, silent.2.1, silent.2.2, ?_⟩
  have known : ∀ t, Comparison.linkedNodes.Holds t → Comparison.linkedNodes.Known t :=
    fun t held => Layout.known_of_registered (by decide +kernel)
      (held.registered (by decide +kernel) (by decide +kernel))
  have into : Comparison.linkedNodes.Refers "t_struct(Node)storage"
      "t_mapping(t_uint256,t_struct(Node)storage)" := ⟨_, rfl, List.mem_cons_self⟩
  have back : Comparison.linkedNodes.Refers "t_mapping(t_uint256,t_struct(Node)storage)"
      "t_struct(Node)storage" := ⟨_, rfl, .tail _ List.mem_cons_self⟩
  exact (appending_is_silent_or_fails Comparison.linkedNodes [auctionFee] _ false
    fun _ _ => rfl).2.2 (.inr known) "t_struct(Node)storage"
      ⟨_, List.mem_cons_self, .refl⟩ (.tail (.single into) back)

/-- A variable whose type has a mapping to that type, by a key of which the members are unknown. -/
def lockedNodes : Layout :=
  ⟨[⟨"List", "root", "t_struct(Node)storage", 0, 0, none, none⟩],
   Table.ofList [("t_enum(State)", ⟨"enum State", 1, .enum none⟩),
    ("t_struct(Node)storage", ⟨"struct Node", 32,
      .struct (some [⟨"next", "t_mapping(t_enum(State),t_struct(Node)storage)"⟩])⟩),
    ("t_mapping(t_enum(State),t_struct(Node)storage)", ⟨"mapping(enum State => struct Node)", 32,
      .mapping "t_enum(State)" "t_struct(Node)storage"⟩)]⟩

/-- The nodes are made of nodes, but the comparison ends at the keys of the mapping. -/
theorem lockedNodes_end_at_keys :
    lockedNodes.Holds "t_struct(Node)storage" ∧
      TransGen lockedNodes.Refers "t_struct(Node)storage" "t_struct(Node)storage" ∧
      ∃ ops, compareLayouts lockedNodes ⟨lockedNodes.storage ++ [], lockedNodes.types⟩ false =
          .ok ops ∧
        ItemOperation.sameLists ops
          [.typeChange ⟨"List", "root", "t_struct(Node)storage", 0, 0, none, none⟩
            ⟨"List", "root", "t_struct(Node)storage", 0, 0, none, none⟩
            (.mk "t_struct(Node)storage" "t_struct(Node)storage" (.structMembers
              [.typeChange ⟨"next", "t_mapping(t_enum(State),t_struct(Node)storage)"⟩
                ⟨"next", "t_mapping(t_enum(State),t_struct(Node)storage)"⟩
                (.mk "t_mapping(t_enum(State),t_struct(Node)storage)"
                  "t_mapping(t_enum(State),t_struct(Node)storage)" .mappingKey)]))] = true := by
  have into : lockedNodes.Refers "t_struct(Node)storage"
      "t_mapping(t_enum(State),t_struct(Node)storage)" := ⟨_, rfl, List.mem_cons_self⟩
  have back : lockedNodes.Refers "t_mapping(t_enum(State),t_struct(Node)storage)"
      "t_struct(Node)storage" := ⟨_, rfl, .tail _ List.mem_cons_self⟩
  exact ⟨⟨_, List.mem_cons_self, .refl⟩, .tail (.single into) back,
    Comparison.Outcome.exists_ok (by decide +kernel)⟩

end UpgradeSafety
