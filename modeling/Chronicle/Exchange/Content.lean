import Chronicle.Exchange.Request
import Chronicle.Record

/-!
# Contents in JSON

A record is written as one flat object: its identifier and version, a member for each
field, and an array of identifiers for each relation. Reading goes by the
descriptor, so that a number becomes an integer, a double or a point in time as the
field is declared.
-/

namespace Chronicle

/-! ## Identifiers and versions -/

def EntityId.toJson (id : EntityId) : Json := .text id.text

/-- Reads the text of an identifier; `what` names it in messages. -/
def EntityId.ofJson (what : String) (json : Json) : Except RequestFault EntityId :=
  match json.text?.bind EntityId.ofText? with
  | some id => .ok id
  | none => .error (.badId what json)

/-- Reads a version that a producer has seen: absent or null for none. -/
def readVersion : Option Json → Except RequestFault (Option Nat)
  | none => .ok none
  | some .null => .ok none
  | some json =>
      match json.nat? with
      | some version => .ok (some version)
      | none => .error (.badVersion json)

/-- Reads an object; `what` names it in messages. -/
def readObject (what : String) (json : Json) : Except RequestFault (Dict String Json) :=
  match json.object? with
  | some members => .ok members
  | none => .error (.notObject what)

/-! ## Field values -/

namespace FieldValue

def toJson : FieldValue → Json
  | null => .null
  | text value => .text value
  | integer value => .int value.toInt
  | float value => if value.isFinite then .float value else .null
  | boolean value => .bool value
  | timestamp value => .int value.toInt
  | reference id => id.toJson

/-- Reads a value of a type; null fits every type. -/
def ofJson? (type : FieldType) (json : Json) : Option FieldValue :=
  if json.isNull then some null
  else
    match type with
    | .text => json.text?.map text
    | .integer => json.int64?.map integer
    | .float => json.float?.map float
    | .boolean => json.bool?.map boolean
    | .timestamp => json.int64?.map timestamp
    | .reference => (json.text?.bind EntityId.ofText?).map reference

end FieldValue

/-! ## Contents -/

namespace Descriptor

/-- Reads the value of a declared field. -/
def readField (descriptor : Descriptor) (spec : FieldSpec) (json : Json) :
    Except RequestFault FieldValue :=
  match FieldValue.ofJson? spec.type json with
  | some value => .ok value
  | none => .error (.fieldType descriptor.kind spec.name spec.type json)

/-- Reads a member of an object into a content: as a field if one is declared by that
name, else as a relation. -/
def readMember (descriptor : Descriptor) (content : Content) (name : String) (json : Json) :
    Except RequestFault Content := do
  match descriptor.field? name, descriptor.relation? name with
  | some spec, _ => return content.setField name (← descriptor.readField spec json)
  | none, some _ =>
      match json.array? with
      | none => .error (.notIds descriptor.kind name)
      | some items => return content.setMembers name (← items.mapM (EntityId.ofJson name))
  | none, none => .error (.unknownName descriptor.kind name)

/-- The names that are not part of a content. -/
def reservedNames : List String := ["id", "version", "base_version"]

/-- Reads members one after another up to the first that is wrong, and gives what has
been read until then. Reserved names and those in `skipped` are passed over. -/
def readMembers (descriptor : Descriptor) (skipped : List String) :
    List (String × Json) → Content → Content × Option RequestFault
  | [], content => (content, none)
  | (name, json) :: rest, content =>
      if name ∈ reservedNames ∨ name ∈ skipped then descriptor.readMembers skipped rest content
      else
        match descriptor.readMember content name json with
        | .ok content => descriptor.readMembers skipped rest content
        | .error fault => (content, some fault)

/-- Reads an object into a content. -/
def readContent (descriptor : Descriptor) (skipped : List String) (members : Dict String Json)
    (content : Content) : Except RequestFault Content :=
  match descriptor.readMembers skipped members.entries content with
  | (content, none) => .ok content
  | (_, some fault) => .error fault

end Descriptor

namespace Content

/-- The members of the flat object of a content. -/
def jsonMembers (id : Option EntityId) (version : Option Nat) (content : Content) :
    List (String × Json) :=
  (id.map fun id => ("id", id.toJson)).toList ++
    (version.map fun version => ("version", Json.nat version)).toList ++
    content.fields.entries.map (fun entry => (entry.1, entry.2.toJson)) ++
    content.relations.entries.map fun entry => (entry.1, .array (entry.2.map EntityId.toJson))

/-- The flat object of a content. Of members with one name the last stays. -/
def toJson (id : Option EntityId) (version : Option Nat) (content : Content) : Json :=
  .ofMembers (content.jsonMembers id version)

end Content

/-- The flat object of a record. -/
def Record.toJson (record : Record) : Json :=
  record.content.toJson (some record.id) (some record.version)

/-! ## Snapshots -/

/-- Where a change came from. -/
def Origin.toJson : Origin → Json
  | direct => .ofMembers [("type", .text "local")]
  | external scope => .ofMembers [("type", .text "external"), ("scope", .text scope)]
  | resolution conflict =>
      .ofMembers [("type", .text "resolution"), ("conflict_id", .text conflict.text)]

def MemberRef.toJson (member : MemberRef) : Json :=
  .ofMembers [("id", member.id.toJson), ("version", .optional Json.nat member.version)]

def Snapshot.toJson (snapshot : Snapshot) : Json :=
  .ofMembers [
    ("version", .nat snapshot.version),
    ("changed_at", .int snapshot.changedAt.toInt),
    ("changed_by", .text snapshot.changedBy),
    ("origin", snapshot.origin.toJson),
    ("change", .text snapshot.change.name),
    ("fields", .ofDict (snapshot.fields.map fun _ value => value.toJson)),
    ("relations", .ofDict (snapshot.relations.map fun _ members =>
      .array (members.map MemberRef.toJson)))]

end Chronicle
