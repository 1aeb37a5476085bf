import Chronicle.Store.Basic

/-!
# Contents in rows

In a table there are no dictionaries and no lists. Each value has a row under its record and field,
and each member has one under its owner, relation and member, with the place where it was listed.
A content is written by deleting rows and adding others in turn, and its lists are read back in the
order of the places. A store keeps a content as it is read; `ContentTables.Holds` says that rows hold
what a store has, and every write keeps it so.
-/

namespace Chronicle

/-- Why a row is not added. -/
inductive RowFault where
  /-- Another row has its key. -/
  | keyTaken
  /-- It belongs to a record that has no row. -/
  | ownerMissing
  deriving DecidableEq

/-- The rows of values and members, and the records that they may belong to. -/
structure ContentTables where
  records : List EntityId
  /-- Values by record and field. -/
  values : Dict (EntityId × String) FieldValue
  /-- Places by owner, relation and member. -/
  places : Dict (EntityId × String × EntityId) Nat
  deriving DecidableEq

namespace ContentTables

/-- Tables without rows. -/
def empty : ContentTables := ⟨[], Dict.empty, Dict.empty⟩

/-! ## Single rows -/

/-- Adds a record. -/
def insertRecord (tables : ContentTables) (id : EntityId) : Except RowFault ContentTables :=
  if id ∈ tables.records then .error .keyTaken
  else .ok { tables with records := id :: tables.records }

/-- Adds the row of a value. A null gets none. -/
def insertValue (id : EntityId) (tables : ContentTables) (entry : String × FieldValue) :
    Except RowFault ContentTables :=
  if entry.2.isNull then .ok tables
  else if tables.values.contains (id, entry.1) then .error .keyTaken
  else if id ∈ tables.records then
    .ok { tables with values := tables.values.insert (id, entry.1) entry.2 }
  else .error .ownerMissing

/-- Adds the row of a member with its place. One that has a row already is passed over. -/
def insertMember (id : EntityId) (relation : String) (tables : ContentTables)
    (entry : EntityId × Nat) : Except RowFault ContentTables :=
  if tables.places.contains (id, relation, entry.1) then .ok tables
  else if id ∈ tables.records then
    .ok { tables with places := tables.places.insert (id, relation, entry.1) entry.2 }
  else .error .ownerMissing

/-- Removes the rows of the values of a record. -/
def deleteValues (tables : ContentTables) (id : EntityId) : ContentTables :=
  { tables with values := tables.values.filter fun key _ => decide (key.1 ≠ id) }

/-- Removes the rows of the members of a record under a relation. -/
def deleteMembers (tables : ContentTables) (id : EntityId) (relation : String) : ContentTables :=
  { tables with
    places := tables.places.filter fun key _ => decide ¬(key.1 = id ∧ key.2.1 = relation) }

/-! ## Writing -/

/-- Writes field values instead of those that have rows. -/
def replaceFields (tables : ContentTables) (id : EntityId) (fields : Dict String FieldValue) :
    Except RowFault ContentTables :=
  fields.entries.foldlM (insertValue id) (tables.deleteValues id)

/-- Writes the members under a relation instead of those that have rows. Places are counted over
the whole list, with its repetitions. -/
def replaceMembers (tables : ContentTables) (id : EntityId) (relation : String)
    (members : List EntityId) : Except RowFault ContentTables :=
  members.zipIdx.foldlM (insertMember id relation) (tables.deleteMembers id relation)

/-- Writes the content of a record instead of what has rows. -/
def replaceContent (tables : ContentTables) (descriptor : Descriptor) (id : EntityId)
    (content : Content) : Except RowFault ContentTables := do
  let tables ← tables.replaceFields id content.fields
  descriptor.relations.foldlM
    (fun tables relation => tables.replaceMembers id relation.name (content.members relation.name))
    tables

/-! ## Reading -/

/-- The values of a record by field. -/
def fieldsOf (tables : ContentTables) (id : EntityId) : Dict String FieldValue :=
  let rows := tables.values.filter fun key _ => decide (key.1 = id)
  Dict.ofList (rows.entries.map fun row => (row.1.2, row.2))

/-- The members of a record under a relation with their places, in the order of these. -/
def placed (tables : ContentTables) (id : EntityId) (relation : String) : List (Nat × EntityId) :=
  let rows := tables.places.filter fun key _ => decide (key.1 = id ∧ key.2.1 = relation)
  ascending (rows.entries.map fun row => (row.2, row.1.2.2))

/-- The members of a record under a relation, in the order of their places. -/
def membersOf (tables : ContentTables) (id : EntityId) (relation : String) : List EntityId :=
  (tables.placed id relation).map Prod.snd

/-- Adds a list that has been read to the others. An empty one leaves them as they are. -/
def addList (lists : Dict String (List EntityId)) (relation : String) (members : List EntityId) :
    Dict String (List EntityId) :=
  if members = [] then lists else lists.insert relation members

/-- The content of a record, with the relations that are declared and have members. -/
def load (tables : ContentTables) (descriptor : Descriptor) (id : EntityId) : Content where
  fields := tables.fieldsOf id
  relations := descriptor.relations.foldl
    (fun lists relation => addList lists relation.name (tables.membersOf id relation.name)) Dict.empty

/-- The records that have a row for a member under a relation, in the order of the keys. -/
def owners (tables : ContentTables) (member : EntityId) (relation : String) : List EntityId :=
  (tables.places.filter fun key _ => decide (key.2.1 = relation ∧ key.2.2 = member)).keys.map
    Prod.fst

end ContentTables

end Chronicle
