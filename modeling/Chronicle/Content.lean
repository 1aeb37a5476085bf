import Chronicle.Dict
import Chronicle.Fault
import Chronicle.Members

/-!
# Content of a record

The content of a record is its field values and its member lists. A descriptor
says which content is acceptable (`Descriptor.check`) and which differences are
immaterial: `Descriptor.normal` drops null fields and empty lists, and sorts the
lists of relations whose sequence does not count.
-/

namespace Chronicle

/-- Field values and member lists. -/
structure Content where
  fields : Dict String FieldValue
  relations : Dict String (List EntityId)
  deriving DecidableEq

namespace Content

/-- No fields and no members. -/
def empty : Content := ⟨Dict.empty, Dict.empty⟩

instance : Inhabited Content := ⟨empty⟩

/-- The value of a field; an absent field counts as null. -/
def value (content : Content) (name : String) : FieldValue :=
  (content.fields.get? name).getD .null

/-- The members under a relation. -/
def members (content : Content) (relation : String) : List EntityId :=
  (content.relations.get? relation).getD []

def setField (content : Content) (name : String) (value : FieldValue) : Content :=
  { content with fields := content.fields.insert name value }

def setMembers (content : Content) (relation : String) (members : List EntityId) : Content :=
  { content with relations := content.relations.insert relation members }

end Content

namespace Descriptor

/-! ## Acceptable content -/

/-- What is wrong with a field that is present: its name or its type. -/
def fieldFault? (descriptor : Descriptor) (name : String) (value : FieldValue) :
    Option ContentFault :=
  match descriptor.field? name with
  | none => some (.unknownField descriptor.kind name)
  | some spec =>
      match value.type? with
      | none => none
      | some actual =>
          if actual = spec.type then none
          else some (.fieldType descriptor.kind name spec.type actual)

/-- A required field that has no value. -/
def missingFault? (descriptor : Descriptor) (content : Content) (spec : FieldSpec) :
    Option ContentFault :=
  if spec.required && (content.value spec.name).isNull then
    some (.missingField descriptor.kind spec.name)
  else none

/-- A relation that is not declared, whether it has members or not. -/
def relationFault? (descriptor : Descriptor) (name : String) : Option ContentFault :=
  match descriptor.relation? name with
  | none => some (.unknownRelation descriptor.kind name)
  | some _ => none

/-- All that is wrong with a content: fields by name, then required fields as
they are declared, then relations by name. -/
def faults (descriptor : Descriptor) (content : Content) : List ContentFault :=
  content.fields.entries.filterMap (fun entry => descriptor.fieldFault? entry.1 entry.2) ++
    descriptor.fields.filterMap (descriptor.missingFault? content) ++
    content.relations.keys.filterMap descriptor.relationFault?

/-- Accepts a content, or gives the first fault. -/
def check (descriptor : Descriptor) (content : Content) : Except ContentFault Unit :=
  match descriptor.faults content with
  | [] => .ok ()
  | fault :: _ => .error fault

/-! ## Normal form -/

/-- The members of a relation as they count: a list whose sequence is immaterial
is sorted, without repetition. -/
def normalMembers (descriptor : Descriptor) (relation : String) (members : List EntityId) :
    List EntityId :=
  if descriptor.isOrdered relation then members else ascending members

/-- Without null fields and empty lists, the others as they count. -/
def normal (descriptor : Descriptor) (content : Content) : Content where
  fields := content.fields.filter fun _ value => !value.isNull
  relations :=
    (content.relations.filter fun _ members => !members.isEmpty).map descriptor.normalMembers

end Descriptor

end Chronicle
