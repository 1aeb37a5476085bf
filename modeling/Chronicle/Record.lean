import Chronicle.Refusal
import Chronicle.Registry
import Chronicle.Store.Links
import Chronicle.Store.Records
import Chronicle.Store.Snapshots

/-!
# Records

Reading a store: the current content of a record, its snapshots, and the members
that it had at one of its versions.
-/

namespace Chronicle

/-- What operations run under. -/
structure Env where
  registry : Registry
  /-- How often a taken version number is tried again. -/
  retries : Nat
  /-- What the clock shows, in milliseconds since the epoch. -/
  now : Int64
  /-- What makes new identifiers. -/
  [generator : Generator]

/-- The current content of a live record. -/
structure Record where
  id : EntityId
  kind : Kind
  version : Nat
  content : Content
  deriving DecidableEq

namespace Env

/-- Reads the clock, which may not stand before the epoch. -/
def clock (env : Env) : Except Refusal Int64 :=
  if env.now < 0 then .error (.data .clockBeforeEpoch) else .ok env.now

/-- The descriptor of a kind, which has to be registered. -/
def descriptor (env : Env) (kind : Kind) : Except Refusal Descriptor :=
  Refusal.ofData (env.registry.get kind)

/-! ## Current content -/

/-- The record with an identifier, if it is live. -/
def record? (env : Env) (store : Store) (id : EntityId) : Except Refusal (Option Record) :=
  match store.row? id with
  | none => .ok none
  | some row =>
      if row.deleted then .ok none
      else do
        let descriptor ← env.descriptor row.kind
        return some ⟨id, row.kind, row.version, store.load descriptor id⟩

/-- The live record of a kind with an identifier, which has to exist. -/
def live (env : Env) (store : Store) (kind : Kind) (id : EntityId) : Except Refusal Record :=
  match store.row? id with
  | none => .error (.recordMissing id)
  | some row =>
      if row.deleted then .error (.recordDeleted id)
      else if row.kind ≠ kind then .error (.kindMismatch id kind row.kind)
      else do
        match ← env.record? store id with
        | some record => return record
        | none => .error (.recordMissing id)

/-! ## The past -/

/-- The snapshots of a record by ascending version. -/
def history (env : Env) (store : Store) (kind : Kind) (id : EntityId) :
    Except Refusal (List Snapshot) := do
  let descriptor ← env.descriptor kind
  Refusal.ofStore (store.history descriptor id)

/-- The snapshot of one version. -/
def snapshotAt (env : Env) (store : Store) (kind : Kind) (id : EntityId) (version : Nat) :
    Except Refusal (Option Snapshot) := do
  let descriptor ← env.descriptor kind
  Refusal.ofStore (store.snapshot? descriptor id version)

/-- Where the links of a relation are written down. -/
def linkTable (env : Env) (kind : Kind) (relation : String) : Except Refusal LinkTable := do
  let descriptor ← env.descriptor kind
  match (descriptor.relation? relation).bind RelationSpec.log with
  | some log => return env.registry.linkTable log
  | none => .error (.notLogged kind relation)

/-- When a member was linked and unlinked. -/
def linkHistory (env : Env) (store : Store) (kind : Kind) (relation : String)
    (owner member : EntityId) : Except Refusal (List LinkRow) := do
  let table ← env.linkTable kind relation
  Refusal.ofStore (store.linksOf table owner member)

/-- The members that an owner had at one of its versions, each with the version that
it had when it was linked: of the rows of a member the last one counts. -/
def membersAt (env : Env) (store : Store) (kind : Kind) (owner : EntityId) (relation : String)
    (version : Nat) : Except Refusal (List MemberRef) := do
  let table ← env.linkTable kind relation
  let links ← Refusal.ofStore (store.linksUntil table owner version)
  let last := Dict.ofList (links.map fun link => (link.member, link))
  return (last.values.filter LinkRow.linked).map fun link =>
    ⟨link.member, some link.memberVersion⟩

end Env

/-- The version of a record, if it is live. -/
def Store.liveVersion? (store : Store) (id : EntityId) : Option Nat :=
  match store.row? id with
  | some row => if row.deleted then none else some row.version
  | none => none

end Chronicle
