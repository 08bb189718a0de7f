import UpgradeSafety.Proofs.Compilation.AppendedVariables
import UpgradeSafety.Proofs.Extraction.Complete
import UpgradeSafety.Proofs.Extraction.Refuelled
import UpgradeSafety.Proofs.Extraction.SideBySide
import UpgradeSafety.Proofs.Extraction.Unremembered

/-!
# Layouts of contracts that gain variables

The extraction for a contract that has gained variables begins as that for the contract
itself, and what it goes on to learn changes nothing that is known by then. So if it
succeeds, the contract itself can be laid out, with the same places and entries.
-/

namespace UpgradeSafety

open Extraction Registering

variable {ds ds' : Declarations} {c : Contract} {more : List Variable}

namespace Declarations.Gains

/-- Types are registered in the program as they were before. -/
lemma sideBySide (h : ds.Gains c more ds') : SideBySide True ds' ds Eq Eq Eq Eq where
  shapes := by
    rintro t _ rfl
    cases t with
    | elementary i n d => exact .elementary
    | declared i r n d => exact .declared
    | mapping i key value d => exact .mapping rfl rfl
    | array i element d => exact .array rfl
    | function i d => exact .function
  texts ht := by rw [ht]
  named := by
    rintro t _ rfl
    cases t.description.identifier with
    | none => exact .none
    | some raw => exact .some (h.canonicalId raw).symm
  refers := by
    rintro t _ rfl
    cases t.declaration? with
    | none => exact .none
    | some n => exact .some rfl
  resolved := by
    rintro n _ rfl
    have found := h.find? n
    generalize ds.find? n = d, ds'.find? n = d' at found ⊢
    cases found with
    | none => exact .none
    | some hd =>
      refine .some ?_
      cases hd with
      | contract => exact .contract _ _
      | same =>
        rename_i d
        cases d with
        | contract c => exact .contract c c
        | enum e => exact .enum rfl
        | valueType t => exact .valueType rfl
        | struct s => exact .struct (List.forall₂_same.2 fun m _ => ⟨rfl, rfl⟩)
  apart hn hm := by rw [hn, hm]
  lengths hi := by rw [hi]
  elementary := by
    rintro _ id _ rfl
    rfl
  entered hk hi := by rw [hk, hi]
  origins := by
    rintro k _ id _ rfl rfl
    cases k.origins.find? id with
    | none => exact .none
    | some n => exact .some rfl
  putOrigin hk hi hn := by rw [hk, hi, hn]
  putType hk hi kind text := by rw [hk, hi, kind.eq]
  putSizeRule hk hi rule := by rw [hk, hi, rule.eq]

/-- A type that is registered in the extended program is registered likewise before. -/
lemma register_ok (h : ds.Gains c more ds') {fuel : Nat} {t : TypeName} (used : ds.Uses c t)
    {k after : KnownTypes} {id : TypeId}
    (ran : (Registration.register ds' fuel t).run k = .ok (id, after)) :
    (Registration.register ds (ds.registrationFuel c) t).run k = .ok (id, after) := by
  have alike : InStep True Eq Eq (Registration.register ds' fuel t)
      (Registration.register ds fuel t) := h.sideBySide.register (fun _ => rfl) rfl
  have both := alike k k rfl
  rw [ran] at both
  refine Registration.register_fuelled used (?_ : (Registration.register ds fuel t).run k = _)
  generalize (Registration.register ds fuel t).run k = result at both ⊢
  cases both with
  | ok same =>
    obtain ⟨ids, states⟩ := same
    exact congrArg Except.ok (Prod.ext ids.symm states.symm)
  | left loose => exact absurd trivial loose

lemma placeVariable_ok (h : ds.Gains c more ds') {fuel : Nat} {v : Variable}
    (used : ds.Uses c v.type) {free : Position} {k after : KnownTypes}
    {placed : TypeId × Position × Position}
    (ran : (placeVariable ds' fuel v free).run k = .ok (placed, after)) :
    (placeVariable ds (ds.registrationFuel c) v free).run k = .ok (placed, after) := by
  obtain ⟨id, between, registered, rest⟩ := run_bind_eq_ok ran
  exact (run_bind_of_ok (h.register_ok used registered)).trans rest

end Declarations.Gains

/-! ## The variables that there were -/

/-- Extractions that have come equally far, up to where the items are declared. -/
structure Extraction.Progress.Agrees (p p' : Progress) : Prop where
  known : p.known = p'.known
  free : p.free = p'.free
  items : p.items.map StorageItem.withoutSource = p'.items.map StorageItem.withoutSource

lemma Extraction.Progress.Agrees.add {p p' : Progress} (h : p.Agrees p') {base base' : Contract}
    (name : base.name = base'.name) (v : Variable) (placed : TypeId × Position × Position)
    (known : KnownTypes) {decode decode' : String → String} :
    (p.after decode base v placed known).Agrees (p'.after decode' base' v placed known) where
  known := rfl
  free := rfl
  items := by
    rw [Progress.after, Progress.after, List.map_append, List.map_append, h.items]
    simp [itemOf, StorageItem.withoutSource, name]

namespace Declarations.Gains

/-- Variables that are laid out in the extended program are laid out likewise before. -/
lemma addVariables_ok (h : ds.Gains c more ds') (decode : String → String)
    {decode' : String → String} {fuel : Nat} {vs vs' : List (Contract × Variable)}
    (same : List.Forall₂ (fun q q' => q.1.name = q'.1.name ∧ q.2 = q'.2) vs vs')
    (used : ∀ q ∈ vs, ds.Uses c q.2.type) {p p' last' : Progress} (start : p.Agrees p')
    (ran : addVariables ds' decode' fuel vs' p' = .ok last') :
    ∃ last, addVariables ds decode (ds.registrationFuel c) vs p = .ok last ∧
      last.Agrees last' := by
  induction same generalizing p p' with
  | nil =>
    cases ran
    exact ⟨p, rfl, start⟩
  | @cons q q' vs vs' first _ ih =>
    obtain ⟨base, v⟩ := q
    obtain ⟨base', v'⟩ := q'
    obtain ⟨name, rfl⟩ : base.name = base'.name ∧ v = v' := first
    obtain ⟨placed, known, placing, ran⟩ := addVariables_cons_eq_ok ran
    rw [← start.known, ← start.free] at placing
    have before := h.placeVariable_ok (used _ List.mem_cons_self) placing
    rcases addVariable_eq ds decode (ds.registrationFuel c) p base v with
      ⟨placed', known', placing', added'⟩ | ⟨cause, failing, _⟩
    · cases before.symm.trans placing'
      rw [addVariables_cons_ok added']
      exact ih (fun w hw => used w (List.mem_cons_of_mem _ hw)) (start.add name v placed known) ran
    · cases before.symm.trans failing

end Declarations.Gains

/-! ## What is known stays known -/

lemma Describes.needs {id : TypeId} {t : TypeName} {d : Option Declaration} {ids : List TypeId}
    {kind : TypeKind} {rule : SizeRule} (h : Describes id t d ids kind rule) :
    rule.needs ⊆ ids := by
  cases h with
  | valueType => exact List.Subset.refl _
  | fixedArray => exact List.Subset.refl _
  | struct => exact List.Subset.refl _
  | elementary => exact List.nil_subset _
  | function => exact List.nil_subset _
  | mapping => exact List.nil_subset _
  | dynamicArray => exact List.nil_subset _
  | contract => exact List.nil_subset _
  | enum => exact List.nil_subset _

/-- The types that were known have kept their kinds, and their rules. -/
structure KnownTypes.Grows (k after : KnownTypes) : Prop where
  entries : ∀ {id item}, k.types.find? id = some item →
    ∃ later, after.types.find? id = some later ∧ later.exceptSize = item.exceptSize
  rules : ∀ {id rule}, k.sizeRules.find? id = some rule → after.sizeRules.find? id = some rule

namespace KnownTypes.Grows

variable {k between after : KnownTypes}

lemma refl (k : KnownTypes) : k.Grows k := ⟨fun found => ⟨_, found, rfl⟩, fun found => found⟩

lemma trans (first : k.Grows between) (second : between.Grows after) : k.Grows after where
  entries found := by
    obtain ⟨item, found, same⟩ := first.entries found
    obtain ⟨later, found, same'⟩ := second.entries found
    exact ⟨later, found, same'.trans same⟩
  rules found := second.rules (first.rules found)

lemma of_keeps {uses : TypeName → Prop} {pending : TypeId → Prop}
    (known : Described ds uses pending k) (kept : Keeps k after) : k.Grows after where
  entries found := ⟨_, kept.types found, rfl⟩
  rules found := by
    obtain ⟨item, entered⟩ := known.entered found
    exact kept.rules entered found

lemma of_sizesMore (sizes : SizesMore k after) : k.Grows after where
  entries {id item} found := by
    have same := sizes.entries id
    rwa [found, Option.map_some, Option.map_eq_some_iff] at same
  rules found := by rwa [sizes.rules]

end KnownTypes.Grows

namespace Extraction

lemma placeVariable_grows {v : Variable} (used : ds.Uses c v.type) (fuel : Nat)
    (free : Position) {k : KnownTypes} (settled : Settled ds c k) :
    Leads (placeVariable ds fuel v free) k (fun _ after => k.Grows after) (fun _ => True) := by
  rw [placeVariable]
  simp only [leads_bind]
  have registered := Registration.register_leaves Declarations.uses_closed fuel used
    settled.described
  refine registered.imp fun id between left => ?_
  have sized := settled.sized.keeps settled.described left.keeps
  refine (Sizing.footprint_finds id sized).mono (fun f after finds => ?_) (fun _ _ => trivial)
  rcases free.place f with ⟨start | start, next⟩
  · trivial
  · exact (KnownTypes.Grows.of_keeps settled.described left.keeps).trans (.of_sizesMore finds.more)

/-- Laying out variables leaves what was known by then. -/
lemma addVariables_grows {decode : String → String} {fuel : Nat}
    {vs : List (Contract × Variable)} (used : ∀ v ∈ vs, ds.Uses c v.2.type) {p p' : Progress}
    (settled : Settled ds c p.known) (ran : addVariables ds decode fuel vs p = .ok p') :
    p.known.Grows p'.known := by
  induction vs generalizing p with
  | nil =>
    cases ran
    exact .refl _
  | cons first vs ih =>
    obtain ⟨base, v⟩ := first
    have usedHere := used _ List.mem_cons_self
    obtain ⟨placed, known, placing, ran⟩ := addVariables_cons_eq_ok ran
    have between := leads_of_ok (placeVariable_settled usedHere fuel p.free settled) placing
    have grown := leads_of_ok (placeVariable_grows usedHere fuel p.free settled) placing
    exact grown.trans (ih (fun w hw => used w (List.mem_cons_of_mem _ hw)) between.1 ran)

lemma addVariables_append {decode : String → String} {fuel : Nat}
    {vs ws : List (Contract × Variable)} {p p' : Progress}
    (ran : addVariables ds decode fuel (vs ++ ws) p = .ok p') :
    ∃ between, addVariables ds decode fuel vs p = .ok between ∧
      addVariables ds decode fuel ws between = .ok p' := by
  rw [addVariables, List.foldlM_append] at ran
  change addVariables ds decode fuel vs p >>= addVariables ds decode fuel ws = _ at ran
  cases first : addVariables ds decode fuel vs p with
  | error e => rw [first] at ran; cases ran
  | ok between =>
    rw [first] at ran
    exact ⟨between, rfl, ran⟩

/-- The types that are needed for the size of an entered one are entered as well. -/
lemma Settled.needs_entered {k : KnownTypes} (settled : Settled ds c k) (id other : TypeId)
    (needed : Needs k.sizeRules id other) : ∃ rule, k.sizeRules.find? other = some rule := by
  obtain ⟨rule, found, mem⟩ := needed
  obtain ⟨item, entered⟩ := settled.described.entered found
  obtain ⟨rule', found', t, ids, account⟩ := settled.described.accounted entered not_false
  cases found.symm.trans found'
  obtain ⟨item', entered'⟩ := account.known other (account.describes.needs mem)
  obtain ⟨rule', found', _⟩ := settled.described.accounted entered' not_false
  exact ⟨rule', found'⟩

/-- Sizes are the same, whether they are found before or after more types are registered. -/
lemma AllSized.entry_eq {k known k' known' : KnownTypes} (sizes : AllSized k known)
    (sizes' : AllSized k' known') (grown : k.Grows k') {id : TypeId} {info : TypeItem}
    {rule : SizeRule} (ruled : k.sizeRules.find? id = some rule)
    (found : known.types.find? id = some info) : known'.types.find? id = some info := by
  obtain ⟨item, before, same⟩ : ∃ item, k.types.find? id = some item ∧
      item.exceptSize = info.exceptSize := by
    have entries := sizes.more.entries id
    rw [found, Option.map_some, eq_comm, Option.map_eq_some_iff] at entries
    exact entries
  have grown' := grown.trans (.of_sizesMore sizes'.more)
  obtain ⟨info', found', same'⟩ := grown'.entries before
  obtain ⟨f, hf⟩ := sizes.complete ruled
  obtain ⟨f', hf'⟩ := sizes'.complete (grown.rules ruled)
  have follows : HasFootprint known'.sizeRules id f :=
    (sizes.sized.follows hf).mono fun x r hr => grown'.rules (sizes.more.rules ▸ hr)
  have footprints := follows.unique (sizes'.sized.follows hf')
  have bytes : info'.numberOfBytes = info.numberOfBytes := by
    rw [sizes.sized.bytes hf found, sizes'.sized.bytes hf' found', footprints]
  rw [found', TypeItem.eq_of_exceptSize (same'.trans same) bytes]

/-- What could be sized after more types were registered can be sized before. -/
lemma Settled.sizeAll_ok {k k' known' : KnownTypes} (settled : Settled ds c k)
    (sizes' : AllSized k' known') (grown : k.Grows k') :
    ∃ known, (Sizing.sizeAll k.withoutSize).run k = .ok ((), known) := by
  have each : ∀ id ∈ k.withoutSize, ∃ f, HasFootprint k.sizeRules id f := by
    intro id mem
    have ruled := Table.find?_of_mem_keys (List.mem_filter.1 mem).1
    obtain ⟨rule, found⟩ := ruled
    obtain ⟨f, size⟩ := sizes'.complete (grown.rules found)
    have follows := sizes'.sized.follows size
    rw [sizes'.more.rules] at follows
    exact ⟨f, follows.within (fun _ _ => grown.rules) settled.needs_entered ⟨rule, found⟩⟩
  obtain ⟨_, known, ran⟩ := (Sizing.sizeAll_succeeds each settled.sized rfl).exists_ok
  exact ⟨known, ran⟩

end Extraction

/--
If a contract that has gained variables can be laid out, then so can the contract itself,
with the items that come first and with entries that are there.
-/
lemma Declarations.Gains.layout_ok (h : ds.Gains c more ds') (listed : c.ListedFirst)
    (decode : String → String) {decode' : String → String} {l' : Layout}
    (ran : layout ds' decode' (c.withMore more) = .ok l') :
    ∃ l, layout ds decode c = .ok l ∧
      l.storage.map StorageItem.withoutSource <+: l'.storage.map StorageItem.withoutSource ∧
      ∀ {id info}, l.type? id = some info → l'.type? id = some info := by
  obtain ⟨bases', p', known', lineage', placed', sizing', rfl⟩ := Extraction.layout_ok ran
  obtain ⟨bases, lineage, rfl⟩ := h.lineage listed lineage'
  obtain ⟨vs, parts, same⟩ := variablesOf_withMore bases c more
  have used' := uses_variable lineage'
  rw [parts] at placed' used'
  obtain ⟨q', first', rest'⟩ := addVariables_append placed'
  obtain ⟨q, first, agrees⟩ := h.addVariables_ok decode same (uses_variable lineage)
    (⟨rfl, rfl, rfl⟩ : Progress.start.Agrees .start) first'
  have start : Settled ds c Progress.start.known := ⟨.empty, .empty⟩
  have start' : Settled ds' (c.withMore more) Progress.start.known := ⟨.empty, .empty⟩
  have settled := (addVariables_settled (uses_variable lineage) start first).1
  have between := (addVariables_settled (fun w hw => used' w (List.mem_append_left _ hw))
    start' first').1
  have usedRest : ∀ v ∈ (more.filter Variable.isStored).map (c.withMore more, ·),
      ds'.Uses (c.withMore more) v.2.type :=
    fun w hw => used' w (List.mem_append_right _ hw)
  obtain ⟨settled', _, items, _, whole, _⟩ := addVariables_settled usedRest between rest'
  have grown : q.known.Grows p'.known :=
    agrees.known ▸ addVariables_grows usedRest between rest'
  have sizes' := allSized settled'.sized sizing'
  obtain ⟨known, sizing⟩ := settled.sizeAll_ok sizes' grown
  have sizes := allSized settled.sized sizing
  refine ⟨⟨q.items, known.types⟩, ?_, ?_, fun {id info} found => ?_⟩
  · rw [layout_eq, lineage]
    simp only [first, sizing]
  · rw [whole, List.map_append, agrees.items]
    exact List.prefix_append _ _
  · obtain ⟨item, before, _⟩ := sizes.more.item_of_after found
    obtain ⟨rule, ruled, _⟩ := settled.described.accounted before not_false
    exact sizes.entry_eq sizes' grown ruled found

end UpgradeSafety
