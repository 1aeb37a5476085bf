import Chronicle.Conflict
import Chronicle.Layout
import Chronicle.Number.Decimal
import Chronicle.Supply

/-!
# The store

A store holds the current rows of records, the snapshots of their versions, the
rows that tell when members were linked and unlinked, with the order in which they
came, the pending conflicts, and the supply of identifiers. The modules beside this one
give the operations on each table; an operation that breaks a rule of its table
is refused and gives no new store.
-/

namespace Chronicle

/-- The current row of a record. Its content has no null fields, no empty lists
and no repeated members; a deleted record keeps its row. -/
structure EntityRow where
  kind : Kind
  version : Nat
  createdAt : Int64
  updatedAt : Int64
  deleted : Bool
  content : Content
  deriving DecidableEq

/-- Tells that a member was linked or unlinked, with the versions that both
sides had then. -/
structure LinkRow where
  owner : EntityId
  member : EntityId
  version : Nat
  ownerVersion : Nat
  memberVersion : Nat
  linked : Bool
  changedAt : Int64
  changedBy : Actor
  deriving DecidableEq

/-- All that is remembered. -/
structure Store where
  entities : Dict EntityId EntityRow
  /-- Snapshots by table, record and version. -/
  snapshots : Dict (String × EntityId × Nat) Snapshot
  /-- Link rows by table, owner, member and version. -/
  links : Dict (String × EntityId × EntityId × Nat) LinkRow
  /-- The place of each link row among those of its table, in the order they came. -/
  places : Dict (String × EntityId × EntityId × Nat) Nat
  /-- At most one conflict is pending for a record. -/
  conflicts : Dict (Kind × EntityId) Conflict
  supply : Supply
  deriving DecidableEq

/-- A store without records. -/
def Store.empty : Store :=
  ⟨Dict.empty, Dict.empty, Dict.empty, Dict.empty, Dict.empty, Supply.fresh⟩

/-! ## Refusals -/

/-- The version numbers that are written into tables. -/
inductive VersionColumn where
  | version
  | linkVersion
  | ownerVersion
  | memberVersion
  | baseVersion
  | currentVersion
  deriving DecidableEq

/-- The name in messages. -/
def VersionColumn.name : VersionColumn → String
  | version => "version"
  | linkVersion => "join version"
  | ownerVersion => "owner version"
  | memberVersion => "member version"
  | baseVersion => "base_version"
  | currentVersion => "current_version"

/-- A rule that rows have to keep. -/
inductive TableRule where
  /-- Fields and members belong to a row of a record. -/
  | ownerExists
  /-- Versions start at 1. -/
  | versionPositive
  /-- Conflicts of items and attributes have a parent, those of stories have none. -/
  | parentFits
  /-- Conflicts of one kind have different identifiers. -/
  | conflictIdFree
  /-- A record has at most one pending conflict. -/
  | conflictEntityFree
  /-- The tables of the registry can be made. -/
  | laidOut
  /-- A new row has values only for columns that its table has. -/
  | columnExists (table column : String)
  /-- A query names only columns that its table has; `offset` tells where in the query
  the column is named. -/
  | columnKnown (column query : String) (offset : Nat)
  /-- What is read as a version is a number. -/
  | versionReadable
  deriving DecidableEq

/-- What is wrong, where it is a statement that is wrong. -/
def TableRule.message : TableRule → String
  | columnExists table column =>
      "sqlite error: table " ++ table ++ " has no column named " ++ column
  | columnKnown column query offset =>
      "sqlite error: no such column: " ++ column ++ " in " ++ query ++ " at offset " ++
        Decimal.natural offset
  | _ => "a rule of the table is broken"

/-- Why a table refuses an operation. -/
inductive StoreError where
  | rule (broken : TableRule)
  | outOfRange (column : VersionColumn) (value : Int)
  | entityMissing (id : EntityId)
  | conflictMissing (id : ConflictId)
  | linkTaken (table : String) (version : Nat) (owner member : EntityId)
  | entityTaken (id : EntityId)
  | snapshotTaken (kind : Kind) (id : EntityId) (version : Nat)
  deriving DecidableEq

def StoreError.message : StoreError → String
  | rule broken => broken.message
  | outOfRange column value =>
      "serialization error: " ++ column.name ++ " " ++ Decimal.integer value ++ " out of range"
  | entityMissing id => "not found: " ++ id.text
  | conflictMissing id => "not found: " ++ id.text
  | linkTaken table version owner member =>
      "constraint violation: " ++ table ++ " already has version " ++ Decimal.natural version ++
        " for " ++ owner.text ++ " -> " ++ member.text
  | entityTaken id => "entity collision: " ++ id.text
  | snapshotTaken kind id version =>
      kind.name ++ " " ++ id.text ++ " already has a snapshot at version " ++
        Decimal.natural version

/-- Versions are stored as numbers of 64 bits with a sign. -/
def versionLimit : Nat := 2 ^ 63

/-- Accepts a version number that can be stored. -/
def VersionColumn.check (column : VersionColumn) (value : Nat) : Except StoreError Unit :=
  if value < versionLimit then .ok () else .error (.outOfRange column value)

/-- The store of a registry whose tables can be made, without records. -/
def Store.open? (registry : Registry) : Except StoreError Store :=
  if registry.layout?.isSome then .ok .empty else .error (.rule .laidOut)

end Chronicle
