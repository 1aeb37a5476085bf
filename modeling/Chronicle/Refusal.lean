import Chronicle.Store.Basic

/-!
# Refusals

An operation that cannot be carried out is refused for one of these causes, and
then leaves no trace in the store. The one exception is a submission with
conflicts: it changes no record, but the conflicts stay written down.
-/

namespace Chronicle

/-- Why an operation is refused. -/
inductive Refusal where
  | store (error : StoreError)
  | data (error : DataError)
  | recordMissing (id : EntityId)
  | recordDeleted (id : EntityId)
  | kindMismatch (id : EntityId) (expected actual : Kind)
  | invalidContent (fault : ContentFault)
  /-- A member that exists is not of the kind that the relation points to. -/
  | memberKind (owner : Kind) (relation : String) (target : Kind) (member : EntityId)
      (actual : Kind)
  /-- The links of a relation have no history. -/
  | notLogged (owner : Kind) (relation : String)
  | versionRaced (kind : Kind) (id : EntityId) (attempts : Nat)
  | conflicting (conflicts : List ConflictSummary)
  | conflictMissing (kind : Kind) (id : EntityId)
  deriving DecidableEq

namespace Refusal

/-- What is wrong, where it is the content that is wrong. -/
def memberKindText (owner : Kind) (relation : String) (target : Kind) (member : EntityId)
    (actual : Kind) : String :=
  owner.name ++ "." ++ relation ++ " expects " ++ target.name ++ " members, " ++ member.text ++
    " is a " ++ actual.name

def message : Refusal → String
  | store error => "storage error: " ++ error.message
  | data error => "core error: " ++ error.message
  | recordMissing id => "entity not found: " ++ id.text
  | recordDeleted id => "entity already deleted: " ++ id.text
  | kindMismatch id expected actual =>
      id.text ++ " is a " ++ actual.name ++ ", not a " ++ expected.name
  | invalidContent fault => "validation failed: " ++ fault.message
  | memberKind owner relation target member actual =>
      "validation failed: " ++ memberKindText owner relation target member actual
  | notLogged owner relation =>
      "validation failed: " ++ owner.name ++ "." ++ relation ++ " is not a versioned join"
  | versionRaced kind id attempts =>
      kind.name ++ " " ++ id.text ++ ": version counter raced " ++ Decimal.natural attempts ++
        " times"
  | conflicting conflicts =>
      "submission conflicts with " ++ Decimal.natural conflicts.length ++ " local change(s)"
  | conflictMissing kind id => "conflict not found: " ++ kind.name ++ " " ++ id.text

end Refusal

/-- A refusal of a table refuses the operation. -/
def Refusal.ofStore {α : Type} (answer : Except StoreError α) : Except Refusal α :=
  answer.mapError Refusal.store

/-- A refusal of data refuses the operation. -/
def Refusal.ofData {α : Type} (answer : Except DataError α) : Except Refusal α :=
  answer.mapError Refusal.data

/-! ## Transactions -/

/-- Carries out a step for each item of a list in turn, each from the state that the
one before has left. -/
def inTurn {ε σ α β : Type} (step : α → σ → Except ε (β × σ)) :
    List α → σ → Except ε (List β × σ)
  | [], state => .ok ([], state)
  | item :: rest, state => do
      let (result, state) ← step item state
      let (results, state) ← inTurn step rest state
      return (result :: results, state)

/-- A part of an operation. If it is refused there is no new store, so that
whatever it had done before is dropped. -/
abbrev Step (α : Type) := Store → Except Refusal (α × Store)

/-- Carries out a step as a whole operation: a refusal leaves the store as it was. -/
def Step.transact {α : Type} (step : Step α) (store : Store) : Except Refusal α × Store :=
  match step store with
  | .ok (result, store) => (.ok result, store)
  | .error refusal => (.error refusal, store)

end Chronicle
