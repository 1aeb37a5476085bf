import Chronicle.Binary
import Chronicle.Record
import Chronicle.Store.Conflicts

/-!
# Noticing and withdrawing conflicts

A conflict is noticed when a producer submits a content for a record that has
moved on. It is withdrawn when the same producer submits the record again and it can
be applied, or submits the story again without it. What another producer has
submitted last stays pending.
-/

namespace Chronicle

/-- What a producer is told about a conflict with a stored record. -/
def Conflict.summary (conflict : Conflict) (record : Record) : ConflictSummary where
  kind := conflict.kind
  conflict := conflict.id
  entity := conflict.entity
  scope := conflict.scope
  base := conflict.base
  storedVersion := record.version
  stored := record.content
  incoming := conflict.incoming
  story := conflict.parent.map Parent.story

/-- Whether a conflict holds this very submission already. -/
def Conflict.holds (conflict : Conflict) (scope : Scope) (digest : Digest)
    (parent : Option Parent) : Bool :=
  decide (conflict.digest = digest) && decide (conflict.parent = parent) &&
    decide (conflict.scope = scope)

namespace Env

/-- Writes down that a submitted content is in conflict with a record. A conflict that
is pending already gets the new incoming side, and is left alone if it holds it. -/
def noticeConflict (env : Env) (record : Record) (scope : Scope) (base : Option Nat)
    (incoming : Content) (parent : Option Parent) : Step ConflictSummary := fun store => do
  let descriptor ← env.descriptor record.kind
  let digest := descriptor.digest incoming
  let now ← env.clock
  match store.conflict? record.kind record.id with
  | some pending =>
      if pending.holds scope digest parent then return (pending.summary record, store)
      else
        let conflict :=
          { pending with
            scope := scope
            base := base
            current := record.version
            incoming := incoming
            digest := digest
            parent := parent
            updatedAt := now }
        let store ← Refusal.ofStore (store.refreshConflict conflict)
        return (conflict.summary record, store)
  | none =>
      let (id, store) := store.newConflictId env.generator
      let conflict : Conflict :=
        { id := id
          kind := record.kind
          entity := record.id
          scope := scope
          base := base
          current := record.version
          firstStored := record.content
          incoming := incoming
          digest := digest
          parent := parent
          createdAt := now
          updatedAt := now }
      let store ← Refusal.ofStore (store.insertConflict conflict)
      return (conflict.summary record, store)

end Env

namespace Store

/-- Removes the conflict of a record if the producer set its incoming side. -/
def withdrawConflict (store : Store) (kind : Kind) (id : EntityId) (scope : Scope) : Store :=
  match store.conflict? kind id with
  | none => store
  | some pending =>
      if pending.scope = scope then store.deleteConflict kind pending.id else store

/-- Removes the conflicts of items or attributes that the producer had sent with a
story and does not send any more. -/
def withdrawDropped (store : Store) (kind : Kind) (scope : Scope) (story : EntityId)
    (sent : List EntityId) : Store :=
  let dropped := (store.memberConflicts kind scope story).filter fun conflict =>
    conflict.entity ∉ sent
  dropped.foldl (fun store conflict => store.deleteConflict kind conflict.id) store

end Store

end Chronicle
