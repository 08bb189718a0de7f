import UpgradeSafety.Extraction.StorageLayout
import UpgradeSafety.Proofs.Extraction.Runs

/-!
# Annotations and what they say about a type

The annotations that a contract's variables make use of, and the kind and the
size rule that one annotation gives to its id. Registering an annotation is
followed through to what it does with the annotations directly inside it.
-/

namespace UpgradeSafety

/-- The annotations directly inside one that names the given declaration, if any. -/
def TypeName.parts : TypeName → Option Declaration → List TypeName
  | .mapping _ key value _, _ => [key, value]
  | .array _ element _, _ => [element]
  | .declared .., some (.struct s) => s.members.map Variable.type
  | .declared .., some (.valueType t) => [t.underlying]
  | _, _ => []

namespace Declarations

/-- The declaration that an annotation refers to. -/
def declarationOf? (ds : Declarations) (t : TypeName) : Option Declaration :=
  t.declaration?.bind ds.find?

/-- The annotations directly inside an annotation. -/
def inside (ds : Declarations) (t : TypeName) : List TypeName := t.parts (ds.declarationOf? t)

/-- The canonical id of an annotation. -/
def idOf? (ds : Declarations) (t : TypeName) : Option TypeId :=
  t.description.identifier.map ds.canonicalId

/-- The annotations that can be reached from the storage variables of a contract. -/
inductive Uses (ds : Declarations) (c : Contract) : TypeName → Prop where
  | stored {bases : List Contract} {v : Variable} (lineage : ds.lineage c = .ok bases)
      (mem : v ∈ (Extraction.variablesOf bases).map Prod.snd) : Uses ds c v.type
  | inside {t u : TypeName} (outer : Uses ds c t) (mem : u ∈ ds.inside t) : Uses ds c u

lemma uses_closed {ds : Declarations} {c : Contract} (t : TypeName) (used : ds.Uses c t) :
    ∀ u ∈ ds.inside t, ds.Uses c u := fun _ mem => .inside used mem

lemma uses_variable {ds : Declarations} {c : Contract} {bases : List Contract}
    (lineage : ds.lineage c = .ok bases) :
    ∀ v ∈ Extraction.variablesOf bases, ds.Uses c v.2.type := fun _ mem =>
  .stored lineage (List.mem_map_of_mem mem)

/-- Whether an annotation refers to a user-defined value type. -/
def NamesValueType (ds : Declarations) (t : TypeName) : Prop :=
  ∃ definition, ds.declarationOf? t = some (.valueType definition)

end Declarations

/-- Where no value type is declared, none is named. -/
lemma Declarations.not_namesValueType {ds : Declarations}
    (undeclared : ∀ d ∈ ds.all, d.kind ≠ .valueType) (t : TypeName) : ¬ ds.NamesValueType t := by
  rintro ⟨definition, named⟩
  obtain ⟨node, _, found⟩ := Option.bind_eq_some_iff.1 named
  have declared := (List.mem_filter.1 (List.mem_of_getLast? found)).1
  exact undeclared _ declared rfl

/--
The kind and the size rule that an annotation gives to its id, where `ids` are
the ids of the annotations directly inside it.
-/
inductive Describes (id : TypeId) :
    TypeName → Option Declaration → List TypeId → TypeKind → SizeRule → Prop where
  | elementary {i : NodeId} {name : String} {desc : TypeDescription} {d : Option Declaration}
      {f : Footprint} (size : Footprint.ofElementary? id = some f) :
      Describes id (.elementary i name desc) d [] .value (.known f)
  | function {i : NodeId} {desc : TypeDescription} {d : Option Declaration} {f : Footprint}
      (size : Footprint.ofElementary? id = some f) :
      Describes id (.function i desc) d [] .value (.known f)
  | mapping {i : NodeId} {k v : TypeName} {desc : TypeDescription} {d : Option Declaration}
      (key value : TypeId) :
      Describes id (.mapping i k v desc) d [key, value] (.mapping key value) (.known .word)
  | dynamicArray {i : NodeId} {e : TypeName} {desc : TypeDescription} {d : Option Declaration}
      (element : TypeId) (length : id.arrayLength? = some .dynamic) :
      Describes id (.array i e desc) d [element] (.array element .dynamic) (.known .word)
  | fixedArray {i : NodeId} {e : TypeName} {desc : TypeDescription} {d : Option Declaration}
      (element : TypeId) {n : Nat} (length : id.arrayLength? = some (.fixed n)) :
      Describes id (.array i e desc) d [element] (.array element (.fixed n)) (.fixedArray element n)
  | contract {i node : NodeId} {name : Option String} {desc : TypeDescription} (c : Contract) :
      Describes id (.declared i node name desc) (some (.contract c)) [] .contract (.known .contract)
  | enum {i node : NodeId} {name : Option String} {desc : TypeDescription} (e : EnumDefinition) :
      Describes id (.declared i node name desc) (some (.enum e)) [] (.enum (some e.members))
        (.known (.packed (Footprint.enumBytes e.members.length)))
  | valueType {i node : NodeId} {name : Option String} {desc : TypeDescription}
      (t : ValueTypeDefinition) (underlying : TypeId) :
      Describes id (.declared i node name desc) (some (.valueType t)) [underlying] .value
        (.sameAs underlying)
  | struct {i node : NodeId} {name : Option String} {desc : TypeDescription}
      (s : StructDefinition) (members : List StructMember)
      (labels : members.map StructMember.label = s.members.map Variable.name) :
      Describes id (.declared i node name desc) (some (.struct s))
        (members.map StructMember.type) (.struct (some members))
        (.struct (members.map StructMember.type))

namespace Registration

variable {ds : Declarations} {id : TypeId} {t : TypeName} {k : KnownTypes}
  {fail : ResolutionError → Prop}

open Registering

/-- The types met so far once an annotation is being described: a struct is entered at once. -/
def opened (id : TypeId) (label : String) (k : KnownTypes) :
    TypeName → Option Declaration → KnownTypes
  | .declared .., some (.struct _) => k.putType id label (.struct none)
  | _, _ => k

lemma leads_elementaryFootprint {post : Footprint → KnownTypes → Prop}
    (ends : ∀ f, Footprint.ofElementary? id = some f → post f k)
    (unsupported : fail (.unsupportedType id)) :
    Leads (elementaryFootprint id) k post fail := by
  rw [elementaryFootprint]
  cases h : Footprint.ofElementary? id with
  | some f => exact ends f h
  | none => exact unsupported

/-- What describing an annotation comes to, from what is done with the annotations inside it. -/
lemma leads_describe (inside : TypeName → Registering TypeId) {label : String}
    {d : Option Declaration} (inv : List TypeName → List TypeId → KnownTypes → Prop)
    (each : ∀ done u rest, t.parts d = done ++ u :: rest → ∀ ids k, inv done ids k →
      Leads (inside u) k (fun x => inv (done ++ [u]) (ids ++ [x])) fail)
    (unsupported : ∀ id, fail (.unsupportedType id))
    (start : inv [] [] (opened id label k t d)) :
    Leads (describe inside id label t d) k
      (fun described after => ∃ ids, inv (t.parts d) ids after ∧
        Describes id t d ids described.1 described.2) fail := by
  cases t with
  | elementary i name desc =>
    simp only [describe, leads_bind, leads_pure]
    exact leads_elementaryFootprint (fun f hf => ⟨[], start, .elementary hf⟩) (unsupported id)
  | function i desc =>
    simp only [describe, leads_bind, leads_pure]
    exact leads_elementaryFootprint (fun f hf => ⟨[], start, .function hf⟩) (unsupported id)
  | mapping i key value desc =>
    simp only [describe, leads_bind, leads_pure]
    have first := each [] key [value] rfl [] k start
    refine first.imp fun x after hx => ?_
    have second := each [key] value [] rfl [x] after hx
    exact second.imp fun y last hy => ⟨[x, y], hy, .mapping x y⟩
  | array i element desc =>
    simp only [describe, leads_bind]
    have first := each [] element [] rfl [] k start
    refine first.imp fun x after hx => ?_
    cases length : id.arrayLength? with
    | none => exact unsupported id
    | some length' =>
      cases length' with
      | dynamic => exact ⟨[x], hx, .dynamicArray x length⟩
      | fixed n => exact ⟨[x], hx, .fixedArray x length⟩
  | declared i node name desc =>
    cases d with
    | none => exact unsupported id
    | some d =>
      cases d with
      | contract c => exact ⟨[], start, .contract c⟩
      | enum e => exact ⟨[], start, .enum e⟩
      | valueType v =>
        simp only [describe, leads_bind, leads_pure]
        have first := each [] v.underlying [] rfl [] k start
        exact first.imp fun x after hx => ⟨[x], hx, .valueType v x⟩
      | struct s =>
        simp only [describe, leads_bind, leads_modify, leads_pure]
        refine Leads.imp (leads_mapM
          (fun (m : Variable) => do return StructMember.mk m.name (← inside m.type)) s.members
          (fun done members after =>
            members.map StructMember.label = done.map Variable.name ∧
              inv (done.map Variable.type) (members.map StructMember.type) after)
          (fun done m rest whole members after h => ?_) ⟨rfl, start⟩)
          fun members last h => ⟨members.map StructMember.type, h.2, .struct s members h.1⟩
        simp only [leads_bind, leads_pure]
        have one := each (done.map Variable.type) m.type (rest.map Variable.type)
          (by simp [TypeName.parts, whole]) _ after h.2
        refine one.imp fun x last hx => ⟨?_, ?_⟩
        · simp [h.1]
        · simpa using hx

/-- A node is found under its own id. -/
lemma find?_id {node : NodeId} {d : Declaration} (h : ds.find? node = some d) : d.id = node := by
  have mem := List.mem_of_getLast? h
  simpa using (List.mem_filter.1 mem).2

/-- Recording the declaration that an annotation refers to. -/
lemma leads_declarationOf? {post : Option Declaration → KnownTypes → Prop}
    (unnamed : t.declaration? = none → post (ds.declarationOf? t) k)
    (notFound : ∀ node, fail (.notFound node))
    (first : ∀ node, t.declaration? = some node → k.origins.find? id = none →
      post (ds.declarationOf? t) (k.putOrigin id node))
    (again : ∀ node, t.declaration? = some node → k.origins.find? id = some node →
      post (ds.declarationOf? t) k)
    (ambiguous : ∀ node other, t.declaration? = some node → k.origins.find? id = some other →
      other ≠ node → fail (.ambiguousTypeId id other node)) :
    Leads (declarationOf? ds id t) k post fail := by
  rw [declarationOf?]
  cases named : t.declaration? with
  | none =>
    have none : ds.declarationOf? t = none := by simp [Declarations.declarationOf?, named]
    rw [none] at unnamed
    exact unnamed named
  | some node =>
    simp only [Declarations.resolve]
    cases found : ds.find? node with
    | none => exact notFound node
    | some d =>
      have refers : ds.declarationOf? t = some d := by
        simp [Declarations.declarationOf?, named, found]
      rw [refers] at first again
      simp only [leads_bind, leads_lift_ok, noteOrigin, leads_get, find?_id found]
      cases origin : k.origins.find? id with
      | none => exact first node named origin
      | some other =>
        by_cases same : other = node
        · simp only [same, if_true, leads_pure]
          exact again node named (by rw [origin, same])
        · simp only [if_neg same, leads_throw]
          exact ambiguous node other named origin same

/-- Registering an annotation, once its declaration has been recorded. -/
lemma leads_register {fuel : Nat} {post : TypeId → KnownTypes → Prop}
    (unidentified : ds.idOf? t = none → fail (.missingTypeIdentifier t.id))
    (identified : ∀ id, ds.idOf? t = some id →
      Leads (declarationOf? ds id t) k (fun d after =>
        (after.types.contains id = true → post id after) ∧
        (after.types.contains id = false →
          Leads (describe (register ds fuel) id (t.description.text.getD id) t d) after
            (fun described last => post id
              ((last.putType id (t.description.text.getD id) described.1).putSizeRule id
                described.2)) fail)) fail) :
    Leads (register ds (fuel + 1) t) k post fail := by
  rw [register]
  cases raw : t.description.identifier with
  | none => exact unidentified (by simp [Declarations.idOf?, raw])
  | some raw' =>
    have run := identified (ds.canonicalId raw') (by simp [Declarations.idOf?, raw])
    simp only [leads_bind, leads_get]
    refine run.imp fun d after h => ?_
    cases known : after.types.contains (ds.canonicalId raw') with
    | true => exact h.1 known
    | false =>
      simp only [Bool.false_eq_true, if_false, leads_bind, leads_modify, leads_pure]
      exact h.2 known

end Registration

end UpgradeSafety
