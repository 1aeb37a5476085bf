import Chronicle.Exchange.Content

/-!
# Answers

The bodies of responses: records, pending conflicts, and what went wrong.
-/

namespace Chronicle

/-- What a producer is told about one conflict. -/
def ConflictSummary.toJson (summary : ConflictSummary) : Json :=
  let members :=
    [("kind", .text summary.kind.name),
      ("conflict_id", .text summary.conflict.text),
      ("scope", .text summary.scope),
      ("base_version", .optional Json.nat summary.base),
      ("local", summary.stored.toJson (some summary.entity) (some summary.storedVersion)),
      ("incoming", summary.incoming.toJson (some summary.entity) none)]
  let story := summary.story.map fun story => ("incoming_story_id", story.toJson)
  .ofMembers [("conflict", .ofMembers (members ++ story.toList))]

/-- The member with the identifier of the record that a conflict is about. -/
def Kind.conflictMember : Kind → String
  | story => "storyId"
  | newsItem => "news_item_id"
  | attr => "attribute_id"

/-- A pending conflict in a listing. -/
def Conflict.toJson (conflict : Conflict) : Json :=
  let members :=
    [("conflict_id", .text conflict.id.text),
      ("scope", .text conflict.scope),
      ("base_version", .optional Json.nat conflict.base),
      ("current_version", .nat conflict.current),
      ("original", conflict.firstStored.toJson (some conflict.entity) none),
      ("updated", conflict.incoming.toJson (some conflict.entity) none),
      ("created_at", .int conflict.createdAt.toInt),
      ("updated_at", .int conflict.updatedAt.toInt),
      (conflict.kind.conflictMember, conflict.entity.toJson)]
  let parent :=
    match conflict.parent with
    | none => []
    | some parent =>
        [("incoming_story_id", parent.story.toJson),
          ("incoming_story", parent.content.toJson (some parent.story) none)]
  .ofMembers (members ++ parent)

namespace Response

/-- The body of a response to what went wrong. -/
def errorBody (error : RequestError) : Json :=
  match error with
  | .refused (.conflicting conflicts) =>
      .ofMembers [("error", .text error.message),
        ("details", .ofMembers [("errors", .array (conflicts.map ConflictSummary.toJson))])]
  | _ => .ofMembers [("error", .text error.message)]

/-- Responds with a body, or tells what went wrong. -/
def of (answer : Except RequestError Json) : Response :=
  match answer with
  | .ok body => ⟨200, body⟩
  | .error error => ⟨error.status, errorBody error⟩

end Response

end Chronicle
