import Chronicle.Exchange.Answer
import Chronicle.Resolution

/-!
# The desk

Requests of the desk: the listings of pending conflicts, the resolution of one, and the
history of a story.
-/

namespace Chronicle

open RequestError (ofRefusal)

/-- Reads an identifier in a path. -/
def EntityId.ofPath (raw : String) : Except RequestError EntityId :=
  match EntityId.ofText? raw with
  | some id => .ok id
  | none => .error (.bad (.badPathId raw))

/-- Lists the pending conflicts of a kind. -/
def Store.listConflicts (store : Store) (kind : Kind) : Response :=
  .of (.ok (.ofMembers
    [("conflicts", .array ((store.conflictsOf kind).map Conflict.toJson))]))

namespace Env

/-- Reads the resolution of a conflict. -/
def readResolution (env : Env) (kind : Kind) (body : Json) : Except RequestError Resolution := do
  match body.object?.bind fun members => members.get? "resolution" with
  | none => .error (.bad .noResolution)
  | some json =>
      let members ← (readObject "resolution" json).mapError RequestError.bad
      let descriptor ← ofRefusal (env.descriptor kind)
      let chosen ← (descriptor.readContent [] members .empty).mapError RequestError.bad
      return ⟨chosen.fields, chosen.relations⟩

/-- Resolves the conflict of a record and answers with the stored record. -/
def resolveRequest (env : Env) (kind : Kind) (rawId : String) (body : Json) (actor : Actor)
    (store : Store) : Response × Store :=
  let request := do
    let id ← EntityId.ofPath rawId
    return (id, ← env.readResolution kind body)
  match request with
  | .error error => (.of (.error error), store)
  | .ok (id, resolution) =>
      let (answer, store) := env.resolve kind id resolution actor store
      (.of (ofRefusal (answer.map fun resolved => resolved.record.toJson)), store)

/-- Answers with the history of a story, which has to have one. -/
def historyRequest (env : Env) (store : Store) (rawId : String) : Response :=
  .of do
    let id ← EntityId.ofPath rawId
    match ← ofRefusal (env.history store .story id) with
    | [] => .error (.noHistory id)
    | snapshots =>
        return .ofMembers
          [("id", id.toJson), ("history", .array (snapshots.map Snapshot.toJson))]

end Env

end Chronicle
