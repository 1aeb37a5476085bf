import Chronicle.Dict
import Chronicle.Fault

/-!
# Registry

The registry holds one descriptor for each kind that records may have. A
descriptor is accepted only after those that its relations point to.
-/

namespace Chronicle

/-- Lower-case letters, digits and underscores, not beginning with a digit. -/
def isTableName (name : String) : Bool :=
  let isLower (char : Char) : Bool := 97 ≤ char.toNat && char.toNat ≤ 122
  let isDigit (char : Char) : Bool := 48 ≤ char.toNat && char.toNat ≤ 57
  match name.toList with
  | [] => false
  | first :: rest =>
      !isDigit first && (first :: rest).all fun char => isLower char || isDigit char || char = '_'

/-- The first name that stands earlier in the list already. -/
def firstRepeated? (names : List String) : Option String :=
  let rec go (seen : List String) : List String → Option String
    | [] => none
    | name :: rest => if seen.contains name then some name else go (name :: seen) rest
  go [] names

/-- The descriptors of all registered kinds. -/
structure Registry where
  descriptors : Dict Kind Descriptor
  deriving DecidableEq

namespace Registry

/-- No kinds. -/
def empty : Registry := ⟨Dict.empty⟩

def get? (registry : Registry) (kind : Kind) : Option Descriptor := registry.descriptors.get? kind

/-- The descriptor of a kind, which has to be registered. -/
def get (registry : Registry) (kind : Kind) : Except DataError Descriptor :=
  match registry.get? kind with
  | some descriptor => .ok descriptor
  | none => .error (.unknownKind kind)

/-- What is wrong with the log of a relation. -/
def logFlaw? (relation : RelationSpec) : Option DescriptorFlaw :=
  match relation.log with
  | none => none
  | some log =>
      match [log.table, log.ownerColumn, log.memberColumn].find? fun name => !isTableName name with
      | some name => some (.logName name)
      | none => if log.ownerColumn = log.memberColumn then some (.sharedColumn relation.name) else none

/-- What is wrong with a relation of `kind`: its target has to be registered
already, or be the kind itself. -/
def relationFlaw? (registry : Registry) (kind : Kind) (relation : RelationSpec) :
    Option DescriptorFlaw :=
  if relation.target ≠ kind ∧ registry.get? relation.target = none then
    some (.unknownTarget relation.name relation.target)
  else logFlaw? relation

/-- The first flaw of a descriptor: its table, then its fields, then its relations. -/
def flaw? (registry : Registry) (descriptor : Descriptor) : Option DescriptorFlaw :=
  if !isTableName descriptor.historyTable then some (.tableName descriptor.historyTable)
  else
    match firstRepeated? (descriptor.fields.map FieldSpec.name) with
    | some name => some (.repeatedField name)
    | none => descriptor.relations.findSome? (relationFlaw? registry descriptor.kind)

/-- Adds a descriptor of a kind that is not registered yet. -/
def register (registry : Registry) (descriptor : Descriptor) : Except DataError Registry :=
  if descriptor.key ≠ .surrogate then .error (.unstableKey descriptor.kind descriptor.key)
  else if (registry.get? descriptor.kind).isSome then .error (.duplicateKind descriptor.kind)
  else
    match registry.flaw? descriptor with
    | some flaw => .error (.invalidDescriptor descriptor.kind flaw)
    | none => .ok ⟨registry.descriptors.insert descriptor.kind descriptor⟩

/-- The relations with a log, each with the kind that owns it. -/
def logs (registry : Registry) : List (Kind × RelationSpec × LinkLog) :=
  registry.descriptors.values.flatMap fun descriptor =>
    descriptor.relations.filterMap fun relation =>
      relation.log.map fun log => (descriptor.kind, relation, log)

/-- The registry of the three standard kinds. -/
def standard : Registry :=
  ⟨Dict.ofList [(.attr, Descriptor.attr), (.newsItem, Descriptor.newsItem),
    (.story, Descriptor.story)]⟩

/-- The standard kinds can be registered one after another. -/
theorem register_standard :
    (do
      let registry ← empty.register Descriptor.attr
      let registry ← registry.register Descriptor.newsItem
      registry.register Descriptor.story) = .ok standard := by
  rfl

end Registry

end Chronicle
