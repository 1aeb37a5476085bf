import Chronicle.Store.Basic

/-!
# The table of pending conflicts

A record has at most one pending conflict, and conflicts of one kind have
different identifiers. Refreshing a conflict replaces its incoming side and never
what was noticed first. Lists are by time of creation, then by identifier.
-/

namespace Chronicle.Store

/-- The pending conflict of a record. -/
def conflict? (store : Store) (kind : Kind) (id : EntityId) : Option Conflict :=
  store.conflicts.get? (kind, id)

/-- The conflicts of a kind that pass `test`, by time of creation. -/
def conflictsWhere (store : Store) (kind : Kind) (test : Conflict → Bool) : List Conflict :=
  let found := store.conflicts.filter fun key conflict => decide (key.1 = kind) && test conflict
  (Dict.ofList (found.values.map fun conflict =>
    ((conflict.createdAt, conflict.id), conflict))).values

/-- The conflicts of a kind. -/
def conflictsOf (store : Store) (kind : Kind) : List Conflict :=
  store.conflictsWhere kind fun _ => true

/-- The conflicts of a record: one or none. -/
def conflictsFor (store : Store) (kind : Kind) (id : EntityId) : List Conflict :=
  (store.conflict? kind id).toList

/-- The conflicts of items or attributes that a producer submitted last with a story. -/
def memberConflicts (store : Store) (kind : Kind) (scope : Scope) (story : EntityId) :
    List Conflict :=
  if kind = .story then []
  else
    store.conflictsWhere kind fun conflict =>
      decide (conflict.scope = scope) && conflict.parent.any fun parent => decide (parent.story = story)

/-- How many conflicts of a kind are pending. -/
def conflictCount (store : Store) (kind : Kind) : Nat :=
  (store.conflicts.filter fun key _ => decide (key.1 = kind)).size

/-- The conflict of a kind with an identifier. -/
def conflictWithId? (store : Store) (kind : Kind) (id : ConflictId) : Option Conflict :=
  store.conflicts.values.find? fun conflict => decide (conflict.kind = kind ∧ conflict.id = id)

/-! ## Writing -/

/-- Puts a conflict in the place of the one that is pending for its record. -/
def setConflict (store : Store) (conflict : Conflict) : Store :=
  { store with conflicts := store.conflicts.insert (conflict.kind, conflict.entity) conflict }

/-- The versions in a conflict have to be such that can be stored; the declared one
may be absent. -/
def checkVersions (conflict : Conflict) : Except StoreError Unit := do
  conflict.base.toList.forM VersionColumn.baseVersion.check
  VersionColumn.currentVersion.check conflict.current

/-- Adds the conflict of a record that has none. -/
def insertConflict (store : Store) (conflict : Conflict) : Except StoreError Store := do
  checkVersions conflict
  if conflict.parent.isSome = decide (conflict.kind = .story) then .error (.rule .parentFits)
  else if (store.conflictWithId? conflict.kind conflict.id).isSome then
    .error (.rule .conflictIdFree)
  else if (store.conflict? conflict.kind conflict.entity).isSome then
    .error (.rule .conflictEntityFree)
  else .ok (store.setConflict conflict)

/-- Replaces the incoming side of the pending conflict with the same identifier;
without a parent the stored one is kept. -/
def refreshConflict (store : Store) (conflict : Conflict) : Except StoreError Store := do
  checkVersions conflict
  if conflict.kind = .story ∧ conflict.parent.isSome then .error (.rule .parentFits)
  else
    match store.conflictWithId? conflict.kind conflict.id with
    | none => .error (.conflictMissing conflict.id)
    | some pending =>
        .ok (store.setConflict
          { pending with
            scope := conflict.scope
            base := conflict.base
            current := conflict.current
            incoming := conflict.incoming
            digest := conflict.digest
            parent := conflict.parent.or pending.parent
            updatedAt := conflict.updatedAt })

/-- Removes the conflict of a kind with an identifier, if it is pending. -/
def deleteConflict (store : Store) (kind : Kind) (id : ConflictId) : Store :=
  { store with
    conflicts := store.conflicts.filter fun key conflict =>
      !(decide (key.1 = kind) && decide (conflict.id = id)) }

/-- Removes the conflict of a record and tells how many there were. -/
def deleteConflictsFor (store : Store) (kind : Kind) (id : EntityId) : Nat × Store :=
  ((store.conflictsFor kind id).length,
    { store with conflicts := store.conflicts.erase (kind, id) })

/-! ## New identifiers -/

/-- An identifier for a new conflict, which names none of the pending ones. -/
def newConflictId (store : Store) (generator : Generator) : ConflictId × Store :=
  let used := store.conflicts.values.map fun conflict => conflict.id.uuid
  let (id, supply) := store.supply.draw generator used
  (⟨id⟩, { store with supply := supply })

end Chronicle.Store
