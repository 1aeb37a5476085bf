import Chronicle.Digest
import Chronicle.Snapshot

/-!
# Conflicts

A conflict is pending for a record whose stored content a producer would have
changed without having seen it. It keeps what was stored when the conflict was
first noticed and what was submitted last. Conflicts of items and attributes also
tell in which story they were submitted.
-/

namespace Chronicle

/-- The story that an item or attribute was submitted with. -/
structure Parent where
  story : EntityId
  content : Content
  deriving DecidableEq

/-- A pending conflict. -/
structure Conflict where
  id : ConflictId
  kind : Kind
  entity : EntityId
  /-- The producer that last set the incoming side. -/
  scope : Scope
  /-- The version that the producer declared to have seen. -/
  base : Option Nat
  /-- The stored version when the incoming side was last set. -/
  current : Nat
  /-- What was stored when the conflict was first noticed. -/
  firstStored : Content
  /-- What was submitted last. -/
  incoming : Content
  digest : Digest
  parent : Option Parent
  createdAt : Int64
  updatedAt : Int64
  deriving DecidableEq

/-- What a producer is told about a conflict. -/
structure ConflictSummary where
  kind : Kind
  conflict : ConflictId
  entity : EntityId
  scope : Scope
  base : Option Nat
  storedVersion : Nat
  stored : Content
  incoming : Content
  story : Option EntityId
  deriving DecidableEq

end Chronicle
