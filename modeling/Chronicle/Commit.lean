import Chronicle.Record

/-!
# Commits

A commit brings a record to a proposed content, or deletes it. If the content as
it counts is what is stored already, nothing is written. Otherwise the record gets
its next version, one snapshot, and a link row for each member that came or left
under a relation whose links have a history.
-/

namespace Chronicle

/-- A link row that could not be written, since the member is not live. -/
structure SkippedLink where
  relation : String
  owner : EntityId
  member : EntityId
  deriving DecidableEq

/-- What a commit did. -/
structure Outcome where
  id : EntityId
  kind : Kind
  /-- The new version, or the current one if nothing changed. -/
  version : Nat
  change : Change
  skipped : List SkippedLink
  deriving DecidableEq

/-- A member that comes or leaves under a relation whose links have a history. -/
structure LinkEvent where
  relation : String
  log : LinkLog
  member : EntityId
  linked : Bool
  deriving DecidableEq

/-- The members that come and leave with a change, relation by relation: first
those that come. -/
def Descriptor.linkEvents (descriptor : Descriptor) (change : Change) : List LinkEvent :=
  descriptor.relations.flatMap fun relation =>
    match change.relation? relation.name, relation.log with
    | some diff, some log =>
        diff.added.map (fun member => ⟨relation.name, log, member, true⟩) ++
          diff.removed.map (fun member => ⟨relation.name, log, member, false⟩)
    | _, _ => []

/-- What is stored of a deleted record: its last field values and no members. -/
def Content.remains (previous : Option Content) : Content :=
  ⟨(previous.getD .empty).fields, ∅⟩

namespace Store

/-! ## Before writing -/

/-- The first member that exists and is not of the kind its relation points to. -/
def memberFault? (store : Store) (descriptor : Descriptor) (content : Content) :
    Option Refusal :=
  descriptor.relations.findSome? fun relation =>
    (content.members relation.name).findSome? fun member =>
      match store.row? member with
      | none => none
      | some row =>
          if row.kind = relation.target then none
          else some (.memberKind descriptor.kind relation.name relation.target member row.kind)

/-- Accepts a proposed content if the descriptor accepts it and its members are of the
right kinds; nothing is checked where nothing is proposed. -/
def checkProposed (store : Store) (descriptor : Descriptor) :
    Option Content → Except Refusal Unit
  | none => .ok ()
  | some content => do
      (descriptor.check content).mapError Refusal.invalidContent
      match store.memberFault? descriptor content with
      | some refusal => .error refusal
      | none => return ()

/-- The stored content and version of a record of a kind, or none and 0 if it does not
exist yet. A deleted record stays deleted. -/
def previous (store : Store) (descriptor : Descriptor) (id : EntityId) :
    Except Refusal (Option Content × Nat) :=
  match store.row? id with
  | none => .ok (none, 0)
  | some row =>
      if row.kind ≠ descriptor.kind then .error (.kindMismatch id descriptor.kind row.kind)
      else if row.deleted then .error (.recordDeleted id)
      else .ok (some (store.load descriptor id), row.version)

/-! ## Writing a version -/

/-- Adds the row of a record that is created, and marks that of one that is deleted. -/
def openRow (store : Store) (descriptor : Descriptor) (id : EntityId) (change : ChangeKind)
    (now : Int64) : Except StoreError Store :=
  match change with
  | .created => store.insertEntity id descriptor.kind now
  | .deleted => .ok (store.markDeleted id now)
  | _ => .ok store

/-- Writes the content of a record instead of what was stored. -/
def replaceContent (store : Store) (descriptor : Descriptor) (id : EntityId) (content : Content) :
    Except StoreError Store := do
  let store ← store.replaceFields id content.fields
  descriptor.relations.foldlM
    (fun store relation => store.replaceMembers id relation.name (content.members relation.name))
    store

/-- Brings the row of a record to a content and a version. -/
def writeRow (store : Store) (descriptor : Descriptor) (id : EntityId) (version : Nat)
    (content : Content) (change : ChangeKind) (now : Int64) : Except StoreError Store := do
  let store ← store.openRow descriptor id change now
  let store ← store.replaceContent descriptor id content
  store.setVersion id version now

/-- The members of a content, each with the version it has now. -/
def memberRefs (store : Store) (descriptor : Descriptor) (content : Content) :
    Dict String (List MemberRef) :=
  Dict.ofList (descriptor.relations.filterMap fun relation =>
    match content.members relation.name with
    | [] => none
    | members => some (relation.name, members.map fun id => ⟨id, store.liveVersion? id⟩))

end Store

namespace Env

/-- Writes down that a member came or left, if it is live. -/
def writeLink (env : Env) (owner : EntityId) (ownerVersion : Nat) (actor : Actor) (now : Int64)
    (event : LinkEvent) : Step (Option SkippedLink) := fun store =>
  match store.liveVersion? event.member with
  | none => .ok (some ⟨event.relation, owner, event.member⟩, store)
  | some memberVersion => do
      let table := env.registry.linkTable event.log
      let last ← Refusal.ofStore (store.lastLinkVersion table owner event.member)
      let store ← Refusal.ofStore (store.insertLink table
        { owner := owner
          member := event.member
          version := last + 1
          ownerVersion := ownerVersion
          memberVersion := memberVersion
          linked := event.linked
          changedAt := now
          changedBy := actor })
      return (none, store)

/-- Writes one version of a record: its row, its snapshot and its link rows. -/
def writeVersion (env : Env) (descriptor : Descriptor) (id : EntityId) (content : Content)
    (change : Change) (attribution : Attribution) (version : Nat) : Step Outcome := fun store => do
  let now ← env.clock
  let store ← Refusal.ofStore (store.writeRow descriptor id version content change.kind now)
  let store ← Refusal.ofStore (store.insertSnapshot descriptor
    { entity := id
      kind := descriptor.kind
      version := version
      changedAt := now
      changedBy := attribution.actor
      origin := attribution.origin
      change := change.kind
      fields := content.fields
      relations := store.memberRefs descriptor content })
  let (skipped, store) ← inTurn (env.writeLink id version attribution.actor now)
    (descriptor.linkEvents change) store
  return (⟨id, descriptor.kind, version, change, skipped.filterMap fun link => link⟩, store)

/-- Writes the next version of a record. The version after `counter` is tried first;
if it has a snapshot already, the one after all versions that have one. -/
def writeNext (env : Env) (descriptor : Descriptor) (id : EntityId) (content : Content)
    (change : Change) (attribution : Attribution) (counter : Nat) (store : Store) :
    (attempts : Nat) → (version : Nat) → Except Refusal (Outcome × Store)
  | 0, _ => .error (.versionRaced descriptor.kind id (env.retries + 1))
  | attempts + 1, version =>
      match env.writeVersion descriptor id content change attribution version store with
      | .error (.store (.snapshotTaken _ _ _)) =>
          env.writeNext descriptor id content change attribution counter store attempts
            (max counter (store.lastVersion descriptor id) + 1)
      | answer => answer

/-! ## Committing -/

/-- Brings a record to a proposed content, or deletes it if there is none, as a part
of an operation. -/
def apply (env : Env) (kind : Kind) (id : EntityId) (proposed : Option Content)
    (attribution : Attribution) : Step Outcome := fun store => do
  let descriptor ← env.descriptor kind
  store.checkProposed descriptor proposed
  let (previous, version) ← store.previous descriptor id
  if previous.isNone && proposed.isNone then .error (.recordMissing id)
  else
    let change := descriptor.compare previous proposed
    if change.isMaterial then
      env.writeNext descriptor id (proposed.getD (Content.remains previous)) change attribution version store
        (env.retries + 1) (version + 1)
    else return (⟨id, kind, version, change, []⟩, store)

/-- Brings a record to a proposed content, or deletes it if there is none. -/
def commit (env : Env) (kind : Kind) (id : EntityId) (proposed : Option Content)
    (attribution : Attribution) : Store → Except Refusal Outcome × Store :=
  Step.transact (env.apply kind id proposed attribution)

/-- Makes a new record. -/
def create (env : Env) (kind : Kind) (content : Content) (attribution : Attribution)
    (store : Store) : Except Refusal Outcome × Store :=
  let (id, store) := store.newEntityId env.generator
  env.commit kind id (some content) attribution store

/-- Changes the current content of a live record. -/
def modify (env : Env) (kind : Kind) (id : EntityId) (attribution : Attribution)
    (edit : Content → Content) : Store → Except Refusal Outcome × Store :=
  Step.transact fun store => do
    let record ← env.live store kind id
    env.apply kind id (some (edit record.content)) attribution store

/-- Deletes a record. -/
def delete (env : Env) (kind : Kind) (id : EntityId) (attribution : Attribution) :
    Store → Except Refusal Outcome × Store :=
  env.commit kind id none attribution

end Env

end Chronicle
