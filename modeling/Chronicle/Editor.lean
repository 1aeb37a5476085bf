import Chronicle.Submission

/-!
# The editor

Shorthands of an editor who makes records, changes single fields, and reads records
the way a producer does: with the versions that they have now.
-/

namespace Chronicle

/-- Changes are put down to the editor. -/
def Attribution.editor : Attribution := ⟨"editor", .direct⟩

namespace Env

/-! ## Writing -/

/-- Makes an attribute. -/
def createAttribute (env : Env) (key value : String) : Store → Except Refusal Outcome × Store :=
  env.create .attr ((Content.empty.setField "key" (.text key)).setField "value" (.text value))
    .editor

/-- Makes a news item. -/
def createNewsItem (env : Env) (title : String) (attributes : List EntityId) :
    Store → Except Refusal Outcome × Store :=
  env.create .newsItem
    ((Content.empty.setField "title" (.text title)).setMembers "attributes" attributes) .editor

/-- Makes a story. -/
def createStory (env : Env) (title : String) (items attributes : List EntityId) :
    Store → Except Refusal Outcome × Store :=
  env.create .story
    (((Content.empty.setField "title" (.text title)).setMembers itemRelation items).setMembers
      "attributes" attributes) .editor

/-- Sets one field of a record. -/
def editField (env : Env) (kind : Kind) (id : EntityId) (field : String) (value : FieldValue) :
    Store → Except Refusal Outcome × Store :=
  env.modify kind id .editor fun content => content.setField field value

/-! ## Reading -/

/-- The version of a live record. -/
def versionOf (env : Env) (store : Store) (id : EntityId) : Except Refusal Nat := do
  match ← env.record? store id with
  | some record => return record.version
  | none => .error (.recordMissing id)

/-- The value of a field; null if the record is not live or has no value. -/
def fieldOf (env : Env) (store : Store) (id : EntityId) (field : String) :
    Except Refusal FieldValue := do
  match ← env.record? store id with
  | some record => return record.content.value field
  | none => return .null

/-- A live record as a producer holds it after reading it. -/
def bundleOf (env : Env) (store : Store) (kind : Kind) (id : EntityId) : Except Refusal Bundle := do
  let record ← env.live store kind id
  return ⟨record.id, some record.version, record.content⟩

/-- A live story with its items as a producer holds it after reading it. -/
def storyBundleOf (env : Env) (store : Store) (id : EntityId) : Except Refusal StoryBundle := do
  let story ← env.live store .story id
  let items ← (story.content.members itemRelation).mapM (env.bundleOf store .newsItem)
  return {
    id := id
    base := some story.version
    content := { story.content with relations := story.content.relations.erase itemRelation }
    items := items
    attributes := [] }

end Env

end Chronicle
