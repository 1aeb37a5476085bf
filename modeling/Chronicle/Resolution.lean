import Chronicle.Commit
import Chronicle.Conflict.Notice

/-!
# Resolutions

A desk decides a pending conflict by one edit of the stored record. What it does not
name keeps its stored value. The conflict is then no longer pending.
-/

namespace Chronicle

/-- The field values and member lists that a desk has chosen. -/
structure Resolution where
  fields : Dict String FieldValue
  relations : Dict String (List EntityId)
  deriving DecidableEq

/-- What a resolution did. -/
structure Resolved where
  record : Record
  outcome : Outcome
  /-- How many conflicts of the record were removed. -/
  cleared : Nat
  deriving DecidableEq

/-- Puts what was chosen in the place of what is there. -/
def Resolution.applyTo (resolution : Resolution) (content : Content) : Content where
  fields := resolution.fields.entries.foldl (fun fields entry => fields.insert entry.1 entry.2)
    content.fields
  relations := resolution.relations.entries.foldl
    (fun relations entry => relations.insert entry.1 entry.2) content.relations

/-- Resolves the pending conflict of a record. -/
def Env.resolve (env : Env) (kind : Kind) (id : EntityId) (resolution : Resolution)
    (actor : Actor) : Store → Except Refusal Resolved × Store :=
  Step.transact fun store => do
    match store.conflict? kind id with
    | none => .error (.conflictMissing kind id)
    | some pending =>
        let record ← env.live store kind id
        let (outcome, store) ← env.apply kind id (some (resolution.applyTo record.content))
          ⟨actor, .resolution pending.id⟩ store
        let (cleared, store) := store.deleteConflictsFor kind id
        let record ← env.live store kind id
        return (⟨record, outcome, cleared⟩, store)

end Chronicle
