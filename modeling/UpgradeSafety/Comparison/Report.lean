import UpgradeSafety.Comparison.Comparator

/-!
# Reports in words

The lines that explain the operations of a comparison, two spaces further in for
every level of nesting.
-/

namespace UpgradeSafety

namespace Report

def indent (depth : Nat) : String := String.ofList (List.replicate (2 * depth) ' ')

def explainEnumEdit : EnumEdit → String
  | .delete o => s!"Deleted `{o}`"
  | .insert n => s!"Inserted `{n}`"
  | .replace o n => s!"Replaced `{o}` with `{n}`"

/-- Where an operation was found: at its new field, or else at its old one. -/
def locationOf {F C : Type} [Field F] (op : Operation F C) : String :=
  match (op.new?.or op.old?).bind Field.location with
  | some location => location ++ ": "
  | none => ""

/-- The lines about an operation, given those about a change of type inside it. -/
def explainOperation {F C : Type} [Field F] (depth : Nat) (op : Operation F C)
    (inner : List String) : List String :=
  let start := indent depth ++ locationOf op
  match op with
  | .append n => [start ++ s!"Added `{Field.label n}`"]
  | .delete o =>
    [start ++ s!"Deleted `{Field.label o}`", indent depth ++ "  > Keep the variable even if unused"]
  | .rename o n => [start ++ s!"Renamed `{Field.label o}` to `{Field.label n}`"]
  | .replace o n =>
    [start ++ s!"Replaced `{Field.label o}` with `{Field.label n}` of incompatible type"]
  | .typeChange _ n _ => (start ++ s!"Upgraded `{Field.label n}` to an incompatible type") :: inner

mutual

/-- The lines about a change of type. -/
def explainChange (depth : Nat) : Change → List String
  | .mk o n reason => explainReason depth o n reason

def explainReason (depth : Nat) (o n : TypeId) : Reason Change → List String
  | .obviousMismatch => [indent depth ++ s!"- Bad upgrade from {o} to {n}"]
  | .missingMembers => [indent depth ++ s!"- Insufficient data to compare {o} and {n}"]
  | .structMembers ops =>
    (indent depth ++ s!"- Bad upgrade to the members of {n}") :: explainMembers (depth + 1) ops
  | .enumMembers edits =>
    (indent depth ++ s!"- Bad upgrade to the members of {n}") ::
      edits.map fun edit => indent depth ++ "  " ++ explainEnumEdit edit
  | .enumResize =>
    [indent depth ++ s!"- Bad upgrade from {o} to {n}: the enum needs a different number of bytes"]
  | .mappingKey => [indent depth ++ s!"- In key of {n}: bad upgrade from {o}"]
  | .mappingValue inner =>
    (indent depth ++ s!"- In value of {n}") :: explainChange (depth + 1) inner
  | .arrayShrink =>
    [indent depth ++ s!"- Bad array resize from {o} to {n}",
      indent depth ++ "  Size cannot decrease"]
  | .arrayGrow =>
    [indent depth ++ s!"- Bad array resize from {o} to {n}",
      indent depth ++ "  Size cannot increase when the array is not the last item"]
  | .arrayDynamic =>
    [indent depth ++
      s!"- Bad upgrade between fixed-size and dynamic arrays from {o} to {n}"]
  | .arrayValue inner =>
    (indent depth ++ s!"- In element of {n}") :: explainChange (depth + 1) inner

/-- The lines about the operations on the members of a struct. -/
def explainMembers (depth : Nat) : List (Operation StructMember Change) → List String
  | [] => []
  | op :: rest => explainMember depth op ++ explainMembers depth rest

def explainMember (depth : Nat) : Operation StructMember Change → List String
  | .typeChange o n change =>
    explainOperation depth (.typeChange o n change) (explainChange (depth + 1) change)
  | op => explainOperation depth op []

end

/-- The lines about a storage operation. -/
def explainStorage (op : ItemOperation) : List String :=
  explainOperation 0 op ((op.change?.map (explainChange 1)).getD [])

/-- The report on the operations of a comparison. -/
def text : List ItemOperation → String
  | [] => "The storage layouts are compatible"
  | ops =>
    let lines :=
      "New storage layout is incompatible" :: ops.flatMap fun op => "" :: explainStorage op
    String.join (lines.map fun line => line ++ "\n")

end Report

end UpgradeSafety
