import Chronicle.Content.Change

/-!
# Snapshots

A snapshot is the content of a record right after one of its changes, together
with who made the change and where it came from. Members are recorded with the
version they had at that moment, if they were live.
-/

namespace Chronicle

/-- Who made a change: a user or a worker. -/
abbrev Actor := String

/-- The producer that submitted a change. -/
abbrev Scope := String

/-- Where a change came from: an edit, a producer's submission, or a decision on
a pending conflict. -/
inductive Origin where
  | direct
  | external (scope : Scope)
  | resolution (conflict : ConflictId)
  deriving DecidableEq, Inhabited

/-- To whom a change is put down. -/
structure Attribution where
  actor : Actor
  origin : Origin
  deriving DecidableEq

/-- A member with the version it had. -/
structure MemberRef where
  id : EntityId
  version : Option Nat
  deriving DecidableEq, Inhabited

/-- A recorded state of a record. -/
structure Snapshot where
  entity : EntityId
  kind : Kind
  version : Nat
  changedAt : Int64
  changedBy : Actor
  origin : Origin
  change : ChangeKind
  fields : Dict String FieldValue
  relations : Dict String (List MemberRef)
  deriving DecidableEq

/-- The content that a snapshot records. -/
def Snapshot.content (snapshot : Snapshot) : Content :=
  ⟨snapshot.fields, snapshot.relations.map fun _ members => members.map MemberRef.id⟩

end Chronicle
