import Chronicle.Content

/-!
# Changes

A change is the difference between the content of a record before and after an
operation, where `none` stands for a record that does not exist or is deleted.
It lists exactly the fields whose values differ and the relations whose members
differ, and from these follows its kind.
-/

namespace Chronicle

/-- What a change did to a record. -/
inductive ChangeKind where
  | noChange
  | fieldChange
  | relationChange
  | created
  | deleted
  deriving DecidableEq, Inhabited

namespace ChangeKind

/-- The name in messages and JSON. -/
def name : ChangeKind → String
  | noChange => "noop"
  | fieldChange => "field_change"
  | relationChange => "relation_change"
  | created => "created"
  | deleted => "deleted"

/-- The name in binary forms and logs. -/
def tag : ChangeKind → String
  | noChange => "NoOp"
  | fieldChange => "FieldChange"
  | relationChange => "RelationChange"
  | created => "Created"
  | deleted => "Deleted"

def parse (name : String) : Except DataError ChangeKind :=
  match name with
  | "noop" => .ok noChange
  | "field_change" => .ok fieldChange
  | "relation_change" => .ok relationChange
  | "created" => .ok created
  | "deleted" => .ok deleted
  | _ => .error (.unknownChangeName name)

end ChangeKind

/-- The difference between two contents. -/
structure Change where
  kind : ChangeKind
  fields : List String
  relations : List MemberDiff
  deriving DecidableEq

namespace Change

/-- Nothing changed. -/
def nothing : Change := ⟨.noChange, [], []⟩

/-- Whether anything changed. -/
def isMaterial (change : Change) : Bool := decide (change.kind ≠ .noChange)

/-- The difference under a relation, if there is one. -/
def relation? (change : Change) (name : String) : Option MemberDiff :=
  change.relations.find? fun diff => diff.relation = name

end Change

namespace Content

/-- The names of the fields whose values differ, in ascending order. It makes no difference whether
values are compared or their binary forms (`Content.mem_changedFields_iff_write`). -/
def changedFields (before after : Content) : List String :=
  (ascending (before.fields.keys ++ after.fields.keys)).filter fun name =>
    before.value name ≠ after.value name

end Content

namespace Descriptor

/-- The differences under the declared relations, as they are declared. -/
def memberDiffs (descriptor : Descriptor) (before after : Content) : List MemberDiff :=
  (descriptor.relations.map fun spec =>
    MemberDiff.between spec.name spec.ordered (before.members spec.name)
      (after.members spec.name)).filter fun diff => !diff.isEmpty

/-- The change from one content to another. -/
def compare (descriptor : Descriptor) (before after : Option Content) : Change :=
  match before, after with
  | none, none => .nothing
  | before?, after? =>
      let before := before?.getD .empty
      let after := after?.getD .empty
      let fields := before.changedFields after
      let relations := descriptor.memberDiffs before after
      let kind : ChangeKind :=
        match before?, after? with
        | none, some _ => .created
        | some _, none => .deleted
        | _, _ =>
            if fields ≠ [] then .fieldChange
            else if relations ≠ [] then .relationChange
            else .noChange
      ⟨kind, fields, relations⟩

end Descriptor

end Chronicle
