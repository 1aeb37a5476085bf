import Chronicle.Store.Basic

/-!
# Snapshots in the store

Snapshots are only added. One is found by its table, record and version. A registry
may name one of the fixed tables for snapshots; these have other columns, so nothing
can be added to them, and nothing read but the version of a current row.
-/

namespace Chronicle.Store

/-- The snapshots of a record by ascending version. -/
def snapshotsOf (store : Store) (descriptor : Descriptor) (id : EntityId) : List Snapshot :=
  (store.snapshots.filter fun key _ =>
    decide (key.1 = descriptor.historyTable) && decide (key.2.1 = id)).values

/-- The highest version that has a snapshot; 0 if none has. -/
def lastVersion (store : Store) (descriptor : Descriptor) (id : EntityId) : Nat :=
  (store.snapshotsOf descriptor id).foldl (fun last snapshot => max last snapshot.version) 0

/-- The query for the snapshots of a record. -/
def historyQuery (table : String) : String :=
  "SELECT snapshot, change_kind FROM " ++ table ++ " WHERE entity_id = ?1 ORDER BY version"

/-- Refuses to look for snapshots where none are kept. -/
def checkHistory (descriptor : Descriptor) : Except StoreError Unit :=
  if descriptor.fixedColumns?.isSome then
    .error (.rule (.columnKnown "snapshot" (historyQuery descriptor.historyTable) 7))
  else .ok ()

/-- The snapshots of a record by ascending version, as an answer to a query. -/
def history (store : Store) (descriptor : Descriptor) (id : EntityId) :
    Except StoreError (List Snapshot) := do
  checkHistory descriptor
  return store.snapshotsOf descriptor id

/-- The highest version in the table of a descriptor, as an answer to a query. -/
def highestVersion (store : Store) (descriptor : Descriptor) (id : EntityId) :
    Except StoreError Nat :=
  if descriptor.historyTable = recordTable then
    match store.entities.get? id with
    | some row => .ok row.version
    | none => .ok 0
  else do
    checkHistory descriptor
    return store.lastVersion descriptor id

/-- The snapshot of a version. -/
def snapshot? (store : Store) (descriptor : Descriptor) (id : EntityId) (version : Nat) :
    Except StoreError (Option Snapshot) := do
  VersionColumn.version.check version
  checkHistory descriptor
  return store.snapshots.get? (descriptor.historyTable, id, version)

/-- Adds a snapshot of a version that has none. -/
def insertSnapshot (store : Store) (descriptor : Descriptor) (snapshot : Snapshot) :
    Except StoreError Store := do
  VersionColumn.version.check snapshot.version
  match descriptor.fixedColumns? with
  | some columns =>
      .error (.rule (.columnExists descriptor.historyTable
        (missingColumn columns snapshotColumns)))
  | none =>
      let key := (descriptor.historyTable, snapshot.entity, snapshot.version)
      if snapshot.version = 0 ∨ store.snapshots.contains key then
        .error (.snapshotTaken descriptor.kind snapshot.entity snapshot.version)
      else .ok { store with snapshots := store.snapshots.insert key snapshot }

end Chronicle.Store
