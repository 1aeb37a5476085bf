import Chronicle.Registry

/-!
# Tables

A registry names the tables in which snapshots and links are kept, and for a table
of links the columns of the two versions. Names may be shared: a table that is there
already is not made again, so its columns are those of its first use. Not every
registry can be laid out, since some words cannot be names and some names are taken.

A relation that shares a table of links names its version columns by itself. What it
reads under these names, and whether it can add rows, depends on the columns that the
table has.
-/

namespace Chronicle

/-! ## Names -/

/-- Words that can name neither a table nor a column. -/
def reservedWords : List String :=
  ["add", "all", "alter", "and", "as", "autoincrement", "between", "case", "check", "collate",
    "commit", "constraint", "create", "default", "deferrable", "delete", "distinct", "drop",
    "else", "escape", "except", "exists", "foreign", "from", "group", "having", "in", "index",
    "insert", "intersect", "into", "is", "isnull", "join", "limit", "not", "nothing", "notnull",
    "null", "on", "or", "order", "primary", "references", "returning", "select", "set", "table",
    "then", "to", "transaction", "union", "unique", "update", "using", "values", "when", "where"]

/-- Words that can name a column, but begin something else where a value is expected. -/
def callWords : List String := ["cast", "raise"]

/-- Words that stand for the present moment where a value is expected. -/
def momentWords : List String := ["current_date", "current_time", "current_timestamp"]

/-- Names for the place of a row in its table, where no column has the name. -/
def placeNames : List String := ["rowid", "oid", "_rowid_"]

/-- Names for truth values, where no column has the name. -/
def truthNames : List String := ["true", "false"]

/-- Whether a table can have a name. -/
def canNameTable (name : String) : Bool :=
  !reservedWords.contains name && name != "if" && !"sqlite_".toList.isPrefixOf name.toList

/-! ## Columns -/

/-- The columns of a table of snapshots. -/
def snapshotColumns : List String :=
  ["entity_id", "version", "changed_at", "changed_by", "change_kind", "snapshot"]

/-- The columns of a table of links besides those of the two versions. -/
def linkColumns : List String :=
  ["owner_id", "member_id", "version", "linked", "changed_at", "changed_by"]

/-- The columns of a table of conflicts, with those that are not in each of them. -/
def conflictColumns (more : List String) : List String :=
  ["conflict_id", "entity_id", "scope_id"] ++ more ++
    ["base_version", "current_version", "original", "incoming", "incoming_digest", "created_at",
      "updated_at"]

/-- The table of the current rows of records. -/
def recordTable : String := "entities"

/-- The table of the current members of records. -/
def memberTable : String := "relations"

/-- The tables that are there whatever the registry, with their columns. -/
def fixedTables : List (String × List String) :=
  [("schema_version", ["version", "applied_at"]),
    (recordTable, ["entity_id", "kind", "version", "created_at", "updated_at", "deleted_at"]),
    ("fields", ["entity_id", "field_key", "value"]),
    (memberTable, ["owner_id", "relation", "member_id", "position"]),
    ("story_conflicts", conflictColumns []),
    ("news_item_conflicts", conflictColumns ["incoming_story_id", "incoming_story"]),
    ("attribute_conflicts", conflictColumns ["incoming_story_id", "incoming_story"])]

/-- The indexes that are there whatever the registry. -/
def fixedIndexes : List String :=
  ["idx_entities_kind", "idx_relations_member", "idx_news_item_conflicts_story",
    "idx_attribute_conflicts_story"]

/-! ## Laying out a registry -/

/-- Tables with their columns, and indexes. -/
structure Layout where
  tables : List (String × List String)
  indexes : List String
  deriving DecidableEq

namespace Layout

/-- What is there whatever the registry. -/
def fixed : Layout := ⟨fixedTables, fixedIndexes⟩

def columns? (layout : Layout) (table : String) : Option (List String) :=
  layout.tables.lookup table

/-- Adds a table, unless there is one with its name. -/
def addTable (layout : Layout) (table : String) (columns : List String) : Option Layout :=
  if !canNameTable table then none
  else if (layout.columns? table).isSome then some layout
  else if layout.indexes.contains table || (firstRepeated? columns).isSome then none
  else some { layout with tables := (table, columns) :: layout.tables }

/-- The name of the index of a table of links. -/
def indexOf (table : String) : String := "idx_" ++ table ++ "_owner"

/-- Adds the index of a table by owner and one more column, unless there is one with
its name. -/
def addIndex (layout : Layout) (table column : String) : Option Layout :=
  let index := indexOf table
  if (layout.columns? index).isSome then none
  else if layout.indexes.contains index then some layout
  else
    match layout.columns? table with
    | none => none
    | some columns =>
        if columns.contains "owner_id" && !momentWords.contains column &&
            (columns.contains column || truthNames.contains column) then
          some { layout with indexes := index :: layout.indexes }
        else none

/-- Adds the table of a log. -/
def addLog (layout : Layout) (log : LinkLog) : Option Layout :=
  if reservedWords.contains log.ownerColumn || reservedWords.contains log.memberColumn ||
      callWords.contains log.ownerColumn then none
  else
    (layout.addTable log.table (log.ownerColumn :: log.memberColumn :: linkColumns)).bind
      fun layout => layout.addIndex log.table log.ownerColumn

end Layout

/-- The tables of a registry: first those of snapshots, then those of links. -/
def Registry.layout? (registry : Registry) : Option Layout :=
  (registry.descriptors.values.foldlM
    (fun (layout : Layout) descriptor => layout.addTable descriptor.historyTable snapshotColumns)
    Layout.fixed).bind fun layout =>
      registry.logs.foldlM (fun layout entry => layout.addLog entry.2.2) layout

/-! ## Tables of snapshots -/

/-- The columns of the table of a descriptor, if it is one of the fixed tables, which
hold no snapshots. -/
def Descriptor.fixedColumns? (descriptor : Descriptor) : Option (List String) :=
  fixedTables.lookup descriptor.historyTable

/-- The first of some columns that is not among those of a table. -/
def missingColumn (columns needed : List String) : String :=
  (needed.find? fun name => !columns.contains name).getD ""

/-! ## Tables of links -/

/-- What a name for a version stands for in a table of links. -/
inductive LinkColumn where
  | owner
  | member
  | version
  | ownerVersion
  | memberVersion
  | linked
  | changedAt
  | changedBy
  /-- The place of the row among the rows of the table, in the order they came. -/
  | place
  | truth (value : Bool)
  | moment
  deriving DecidableEq

/-- What a name stands for in the table whose version columns the log `first` named. -/
def LinkColumn.ofName? (first : LinkLog) (name : String) : Option LinkColumn :=
  if callWords.contains name then none
  else if momentWords.contains name then some .moment
  else if name = first.ownerColumn then some .ownerVersion
  else if name = first.memberColumn then some .memberVersion
  else if placeNames.contains name then some .place
  else
    match name with
    | "owner_id" => some .owner
    | "member_id" => some .member
    | "version" => some .version
    | "linked" => some .linked
    | "changed_at" => some .changedAt
    | "changed_by" => some .changedBy
    | "true" => some (.truth true)
    | "false" => some (.truth false)
    | _ => none

/-- How a log names the two version columns that its table has. -/
inductive ColumnOrder where
  /-- The column of the owner's version first. -/
  | straight
  /-- The column of the member's version first. -/
  | crossed
  deriving DecidableEq

/-- What becomes of a row that is added under the names of a log. -/
inductive Filling where
  /-- It has a value for each column. -/
  | complete (order : ColumnOrder)
  /-- It has none for a version column of the table. -/
  | incomplete
  /-- It has a value for a column that the table does not have. -/
  | unknown (column : String)
  deriving DecidableEq

/-- Whether a row can be given a value under a name. -/
def LinkLog.canFill (first : LinkLog) (name : String) : Bool :=
  (first.ownerColumn :: first.memberColumn :: linkColumns).contains name ||
    placeNames.contains name

/-- What becomes of a row that is added under the names of `log` to the table whose
version columns the log `first` named. -/
def LinkLog.filling (first log : LinkLog) : Filling :=
  if log = first then .complete .straight
  else if log = ⟨first.table, first.memberColumn, first.ownerColumn⟩ then .complete .crossed
  else
    match [log.ownerColumn, log.memberColumn].find? fun name => !first.canFill name with
    | some name => .unknown name
    | none => .incomplete

/-- The table of a log, as it serves the log. -/
structure LinkTable where
  name : String
  /-- Whether link rows are kept in it. -/
  holdsLinks : Bool
  /-- What is read as the versions of the owner and of the member; nothing can be read
  if one of the names stands for nothing. -/
  reading : Option (LinkColumn × LinkColumn)
  filling : Filling
  deriving DecidableEq

namespace LinkTable

/-- A table that serves the log that named its version columns. -/
def own (name : String) : LinkTable :=
  ⟨name, true, some (.ownerVersion, .memberVersion), .complete .straight⟩

/-- A table that keeps something else than links. -/
def foreign (name : String) (columns : List String) : LinkTable :=
  ⟨name, false, none, .unknown (missingColumn columns linkColumns)⟩

end LinkTable

/-- The table of a log. Its version columns are those that the first log named. -/
def Registry.linkTable (registry : Registry) (log : LinkLog) : LinkTable :=
  match fixedTables.lookup log.table with
  | some columns => .foreign log.table columns
  | none =>
      match registry.logs.find? fun entry => entry.2.2.table = log.table with
      | none => .own log.table
      | some (_, _, first) =>
          { name := log.table
            holdsLinks := true
            reading :=
              (LinkColumn.ofName? first log.ownerColumn).bind fun ofOwner =>
                (LinkColumn.ofName? first log.memberColumn).map fun ofMember => (ofOwner, ofMember)
            filling := first.filling log }

end Chronicle
