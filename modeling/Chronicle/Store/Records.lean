import Chronicle.Store.Basic

/-!
# Current rows of records

A record gets its row once and keeps it. What is stored of a content is its
canonical form: null fields and empty lists are left out, and of a repeated member
the first occurrence stays.
-/

namespace Chronicle.Store

/-- The row of a record. -/
def row? (store : Store) (id : EntityId) : Option EntityRow := store.entities.get? id

/-- Puts a row in the place of the former one. -/
def setRow (store : Store) (id : EntityId) (row : EntityRow) : Store :=
  { store with entities := store.entities.insert id row }

/-- The records of a kind that are not deleted, in ascending order. -/
def liveOf (store : Store) (kind : Kind) : List EntityId :=
  (store.entities.filter fun _ row => decide (row.kind = kind) && !row.deleted).keys

/-- The records that list a member under a relation, in ascending order. -/
def owners (store : Store) (member : EntityId) (relation : String) : List EntityId :=
  (store.entities.filter fun _ row => decide (member ∈ row.content.members relation)).keys

/-- The stored content of a record, with the relations that are declared. -/
def load (store : Store) (descriptor : Descriptor) (id : EntityId) : Content :=
  match store.row? id with
  | none => .empty
  | some row =>
      { row.content with
        relations := row.content.relations.filter fun name _ =>
          (descriptor.relation? name).isSome }

/-! ## Writing rows -/

/-- Adds the row of a new record. -/
def insertEntity (store : Store) (id : EntityId) (kind : Kind) (now : Int64) :
    Except StoreError Store :=
  match store.row? id with
  | some _ => .error (.entityTaken id)
  | none => .ok (store.setRow id ⟨kind, 1, now, now, false, .empty⟩)

/-- Sets the version of a record. -/
def setVersion (store : Store) (id : EntityId) (version : Nat) (now : Int64) :
    Except StoreError Store := do
  VersionColumn.version.check version
  match store.row? id with
  | none => .error (.entityMissing id)
  | some row =>
      if version = 0 then .error (.rule .versionPositive)
      else .ok (store.setRow id { row with version := version, updatedAt := now })

/-- Marks a record as deleted; one that does not exist is passed over. -/
def markDeleted (store : Store) (id : EntityId) (now : Int64) : Store :=
  match store.row? id with
  | none => store
  | some row => store.setRow id { row with deleted := true, updatedAt := now }

/-- Writes field values instead of those that were stored. -/
def replaceFields (store : Store) (id : EntityId) (fields : Dict String FieldValue) :
    Except StoreError Store :=
  let values := fields.filter fun _ value => !value.isNull
  match store.row? id with
  | some row => .ok (store.setRow id { row with content := { row.content with fields := values } })
  | none => if values = ∅ then .ok store else .error (.rule .ownerExists)

/-- Writes the members under a relation instead of those that were stored. -/
def replaceMembers (store : Store) (id : EntityId) (relation : String) (members : List EntityId) :
    Except StoreError Store :=
  match store.row? id with
  | some row =>
      let relations :=
        if members = [] then row.content.relations.erase relation
        else row.content.relations.insert relation (distinct members)
      .ok (store.setRow id { row with content := { row.content with relations := relations } })
  | none => if members = [] then .ok store else .error (.rule .ownerExists)

/-! ## New identifiers -/

/-- An identifier for a new record, which names none of the stored ones. -/
def newEntityId (store : Store) (generator : Generator) : EntityId × Store :=
  let (id, supply) := store.supply.draw generator (store.entities.keys.map EntityId.uuid)
  (⟨id⟩, { store with supply := supply })

end Chronicle.Store
