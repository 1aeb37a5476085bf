import Chronicle.Exchange.Answer
import Chronicle.Submission

/-!
# Pushing stories

A producer pushes a list of stories with their items and attributes. A record without
an identifier is new, but an attribute takes the identifier of the attribute with the
same key that its owner links already: pushing the same list again makes no new
attributes.
-/

namespace Chronicle

/-- The relation between a record and its attributes. -/
def attributeRelation : String := "attributes"

/-- Reads a part of a request. Records without an identifier get a new one; nothing else of
the store changes. -/
abbrev Intake (α : Type) := Store → Except RequestError (α × Store)

/-- A fault refuses the request. -/
def RequestError.ofFault {α : Type} (answer : Except RequestFault α) : Except RequestError α :=
  answer.mapError RequestError.bad

open RequestError (ofFault ofRefusal)

/-- Reads the identifier of a record; one without gets a new one. -/
def Intake.id (env : Env) (what : String) (members : Dict String Json) : Intake EntityId :=
  fun store =>
    match members.get? "id" with
    | none => .ok (store.newEntityId env.generator)
    | some .null => .ok (store.newEntityId env.generator)
    | some json => do return (← ofFault (EntityId.ofJson what json), store)

/-! ## Attributes -/

/-- Identifiers of attributes with their keys. -/
abbrev KeyedAttributes := List (String × EntityId)

/-- The first attribute with a key, and the others. -/
def KeyedAttributes.take? (key : String) : KeyedAttributes → Option (EntityId × KeyedAttributes)
  | [] => none
  | (other, id) :: rest =>
      if other = key then some (id, rest)
      else (take? key rest).map fun (found, rest) => (found, (other, id) :: rest)

namespace Env

/-- A live attribute with its key, if it has one. -/
def keyedAttribute? (env : Env) (store : Store) (id : EntityId) :
    Except Refusal (Option (String × EntityId)) := do
  match ← env.record? store id with
  | none => return none
  | some linked => return (linked.content.value "key").text?.map fun key => (key, id)

/-- The live attributes that a stored record links, with their keys. -/
def keyedAttributes (env : Env) (store : Store) (owner : EntityId) :
    Except Refusal KeyedAttributes := do
  match ← env.record? store owner with
  | none => return []
  | some record =>
      let linked ←
        (record.content.members attributeRelation).mapM (env.keyedAttribute? store)
      return linked.filterMap fun keyed => keyed

/-- The identifier of an attribute: the one that is sent, else one that its owner links
with the same key, else a new one. -/
def attributeId (env : Env) (members : Dict String Json) (content : Content)
    (keyed : KeyedAttributes) : Intake (EntityId × KeyedAttributes) := fun store => do
  match (members.get? "id").filter fun json => !json.isNull with
  | some json => return ((← ofFault (EntityId.ofJson "attribute id" json), keyed), store)
  | none =>
      match (content.value "key").text?.bind fun key => keyed.take? key with
      | some found => return (found, store)
      | none =>
          let (id, store) := store.newEntityId env.generator
          return ((id, keyed), store)

/-- Reads an attribute that is linked: its identifier alone, or the attribute itself,
which is then submitted too. -/
def readLink (env : Env) (json : Json) (state : KeyedAttributes × Store) :
    Except RequestError ((EntityId × Option Bundle) × KeyedAttributes × Store) := do
  let (keyed, store) := state
  if json.text?.isSome then
    return ((← ofFault (EntityId.ofJson "attribute id" json), none), keyed, store)
  else
    let members ← ofFault (readObject "attribute" json)
    let descriptor ← ofRefusal (env.descriptor .attr)
    let content ← ofFault (descriptor.readContent [] members .empty)
    let ((id, keyed), store) ← env.attributeId members content keyed store
    let base ← ofFault (readVersion (members.get? "base_version"))
    return ((id, some ⟨id, base, content⟩), keyed, store)

/-- Reads the attributes of a record: the identifiers that it links, and the attributes
that are submitted with it. -/
def readLinks (env : Env) (owner : EntityId) (json : Option Json) :
    Intake (List EntityId × List Bundle) := fun store =>
  match json with
  | none => .ok (([], []), store)
  | some json =>
      match json.array? with
      | none => .error (.bad .attributesNotArray)
      | some entries => do
          let keyed ← ofRefusal (env.keyedAttributes store owner)
          let (links, _, store) ← inTurn env.readLink entries (keyed, store)
          return ((links.map Prod.fst, links.filterMap Prod.snd), store)

/-! ## Items and stories -/

/-- Reads an item with the attributes that are submitted with it. -/
def readItem (env : Env) (json : Json) : Intake (Bundle × List Bundle) := fun store => do
  let members ← ofFault (readObject "news item" json)
  let (id, store) ← Intake.id env "news item id" members store
  let descriptor ← ofRefusal (env.descriptor .newsItem)
  let content ← ofFault (descriptor.readContent [attributeRelation] members .empty)
  let ((links, attributes), store) ←
    env.readLinks id (members.get? attributeRelation) store
  let base ← ofFault (readVersion (members.get? "base_version"))
  return ((⟨id, base, content.setMembers attributeRelation links⟩, attributes), store)

/-- Reads the items of a story. -/
def readItems (env : Env) (json : Option Json) : Intake (List (Bundle × List Bundle)) :=
  fun store =>
    match json with
    | none => .ok ([], store)
    | some json =>
        match json.array? with
        | none => .error (.bad .itemsNotArray)
        | some items => inTurn env.readItem items store

/-- Reads a story with its items; the attributes of the story come before those of its
items. -/
def readStory (env : Env) (json : Json) : Intake StoryBundle := fun store => do
  let members ← ofFault (readObject "story" json)
  let (id, store) ← Intake.id env "story id" members store
  let descriptor ← ofRefusal (env.descriptor .story)
  let content ←
    ofFault (descriptor.readContent [itemRelation, attributeRelation] members .empty)
  let ((links, attributes), store) ←
    env.readLinks id (members.get? attributeRelation) store
  let (items, store) ← env.readItems (members.get? itemRelation) store
  let base ← ofFault (readVersion (members.get? "base_version"))
  return (
    { id := id
      base := base
      content := content.setMembers attributeRelation links
      items := items.map Prod.fst
      attributes := attributes ++ items.flatMap Prod.snd }, store)

/-! ## The push -/

/-- The stories of a body: a list, or an object with a list of stories. -/
def storiesOf : Json → Except RequestFault (List Json)
  | .array stories => .ok stories
  | .object members =>
      match ((Dict.ofList members).get? "stories").bind Json.array? with
      | some stories => .ok stories
      | none => .error .noStories
  | _ => .error .notList

/-- Reads a push as a submission of its producer. -/
def readPush (env : Env) (producer : String) (body : Json) : Intake Submission := fun store => do
  let stories ← ofFault (storiesOf body)
  if producer = "" then .error (.bad .noProducer)
  else
    let (bundles, store) ← inTurn env.readStory stories store
    return (⟨producer, "worker:" ++ producer, bundles⟩, store)

/-- A stored story with its items in place of their identifiers. -/
def storyWithItems (env : Env) (store : Store) (id : EntityId) : Except Refusal Json := do
  let story ← env.live store .story id
  let items ← (story.content.members itemRelation).mapM (env.live store .newsItem)
  return .ofMembers (story.content.jsonMembers (some story.id) (some story.version) ++
    [(itemRelation, .array (items.map Record.toJson))])

/-- Submits what a producer pushes, and answers with the stored stories. -/
def push (env : Env) (producer : String) (body : Json) (store : Store) : Response × Store :=
  match env.readPush producer body store with
  | .error error => (.of (.error error), store)
  | .ok (submission, store) =>
      let (answer, store) := env.submit submission store
      let body := do
        let applied ← answer
        let stories ← applied.mapM fun applied => env.storyWithItems store applied.story.id
        return Json.ofMembers [("stories", .array stories)]
      (.of (ofRefusal body), store)

end Env

end Chronicle
