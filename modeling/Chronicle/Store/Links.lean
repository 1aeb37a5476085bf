import Chronicle.Store.Basic

/-!
# Link rows in the store

Link rows are only added. One is found by its table, owner, member and version. The
rows of a table are read under the names that a log has for the two versions; what is
read there has to be a number that a version can be.
-/

namespace Chronicle

/-! ## What is read as a version -/

/-- What stands in a column. -/
inductive Cell where
  | number (value : Int)
  | text (value : String)
  /-- Something that is neither, and above every number. -/
  | other
  deriving DecidableEq

namespace Cell

def number? : Cell → Option Int
  | number value => some value
  | _ => none

/-- Whether a cell is not above a version. Texts are compared with its digits. -/
def upTo (version : Nat) : Cell → Bool
  | number value => value ≤ version
  | text value => !Key.before (Decimal.natural version) value
  | other => false

/-- Where a cell stands in an ascending order. -/
def rank : Cell → Int
  | number value => value
  | _ => 0

end Cell

/-- What a row with a place in its table has in a column. -/
def LinkColumn.cell (place : Nat) (row : LinkRow) : LinkColumn → Cell
  | version => .number row.version
  | ownerVersion => .number row.ownerVersion
  | memberVersion => .number row.memberVersion
  | linked => .number (if row.linked then 1 else 0)
  | changedAt => .number row.changedAt.toInt
  | changedBy => .text row.changedBy
  | .place => .number place
  | truth value => .number (if value then 1 else 0)
  | owner | member | moment => .other

/-- A number that was read as a version. -/
def VersionColumn.decode (column : VersionColumn) (value : Int) : Except StoreError Nat :=
  if 0 ≤ value then .ok value.toNat else .error (.outOfRange column value)

/-- The row that is read where two cells are read as the versions. -/
def LinkRow.withCells (row : LinkRow) (owner member : Cell) : Except StoreError LinkRow :=
  match owner, member with
  | .number owner, .number member => do
      let owner ← VersionColumn.ownerVersion.decode owner
      let member ← VersionColumn.memberVersion.decode member
      return { row with ownerVersion := owner, memberVersion := member }
  | _, _ => .error (.rule .versionReadable)

/-- A row of a log as the table holds it. -/
def ColumnOrder.row : ColumnOrder → LinkRow → LinkRow
  | straight, row => row
  | crossed, row =>
      { row with ownerVersion := row.memberVersion, memberVersion := row.ownerVersion }

/-- What a log reads as the two versions. -/
def LinkTable.columns (table : LinkTable) : Except StoreError (LinkColumn × LinkColumn) :=
  match table.reading with
  | some columns => .ok columns
  | none => .error (.rule .versionReadable)

/-- The query for the last version of the link rows of an owner and a member. -/
def LinkTable.lastQuery (table : LinkTable) : String :=
  "SELECT COALESCE(MAX(version), 0) FROM " ++ table.name ++
    " WHERE owner_id = ?1 AND member_id = ?2"

namespace Store

/-! ## Rows -/

/-- The rows of a table for an owner and a member by ascending version. -/
def linkRows (store : Store) (table : String) (owner member : EntityId) : List LinkRow :=
  (store.links.filter fun key _ =>
    decide (key.1 = table) && decide (key.2.1 = owner) && decide (key.2.2.1 = member)).values

/-- The rows of a table for an owner. -/
def linkRowsOf (store : Store) (table : String) (owner : EntityId) : List LinkRow :=
  (store.links.filter fun key _ => decide (key.1 = table) && decide (key.2.1 = owner)).values

/-- The number of rows of a table. -/
def linkCount (store : Store) (table : String) : Nat :=
  (store.links.filter fun key _ => decide (key.1 = table)).size

/-- What a row of a table has in a column. -/
def cell (store : Store) (table : String) (row : LinkRow) (column : LinkColumn) : Cell :=
  column.cell ((store.places.get? (table, row.owner, row.member, row.version)).getD 0) row

/-- A row of a table as it is read under two columns. -/
def readRow (store : Store) (table : String) (columns : LinkColumn × LinkColumn)
    (row : LinkRow) : Except StoreError LinkRow :=
  row.withCells (store.cell table row columns.1) (store.cell table row columns.2)

/-! ## Operations -/

/-- The link rows of an owner and a member by ascending version. -/
def linksOf (store : Store) (table : LinkTable) (owner member : EntityId) :
    Except StoreError (List LinkRow) := do
  let columns ← table.columns
  (store.linkRows table.name owner member).mapM (store.readRow table.name columns)

/-- The highest version of the link rows of an owner and a member; 0 if there are none. -/
def lastLinkVersion (store : Store) (table : LinkTable) (owner member : EntityId) :
    Except StoreError Nat :=
  if table.holdsLinks then
    .ok ((store.linkRows table.name owner member).foldl (fun last link => max last link.version) 0)
  else .error (.rule (.columnKnown "version" table.lastQuery 20))

/-- The link rows of an owner up to one of its versions: by version of the owner,
then by member, then by their own version. -/
def linksUntil (store : Store) (table : LinkTable) (owner : EntityId) (version : Nat) :
    Except StoreError (List LinkRow) := do
  let columns ← table.columns
  VersionColumn.ownerVersion.check version
  let rows := (store.linkRowsOf table.name owner).filter fun row =>
    (store.cell table.name row columns.1).upTo version
  let sorted := (Dict.ofList (rows.map fun row =>
    (((store.cell table.name row columns.1).rank, row.member, row.version), row))).values
  sorted.mapM (store.readRow table.name columns)

/-- Adds a link row of a version that has none. -/
def insertLink (store : Store) (table : LinkTable) (link : LinkRow) :
    Except StoreError Store := do
  VersionColumn.linkVersion.check link.version
  VersionColumn.ownerVersion.check link.ownerVersion
  VersionColumn.memberVersion.check link.memberVersion
  let key := (table.name, link.owner, link.member, link.version)
  let taken : StoreError := .linkTaken table.name link.version link.owner link.member
  match table.filling with
  | .unknown column => .error (.rule (.columnExists table.name column))
  | .incomplete => .error taken
  | .complete order =>
      if link.version = 0 ∨ store.links.contains key then .error taken
      else
        .ok { store with
          links := store.links.insert key (order.row link)
          places := store.places.insert key (store.linkCount table.name + 1) }

end Store

end Chronicle
