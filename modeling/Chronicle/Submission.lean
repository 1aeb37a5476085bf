import Chronicle.Commit
import Chronicle.Conflict.Notice

/-!
# Submissions

A producer submits stories with their items and attributes, and declares for each
record the version that it has seen. If a record has moved on since and the
submission would change it, that is a conflict: all conflicts are written down and no
record is changed. Otherwise everything is applied, and an item leaves the stories
that listed it before.
-/

namespace Chronicle

/-- A submitted record, with the version that the producer has seen. -/
structure Bundle where
  id : EntityId
  base : Option Nat
  content : Content
  deriving DecidableEq

/-- A submitted story with its items and attributes. Which items belong to it is
told by `items` alone. -/
structure StoryBundle where
  id : EntityId
  base : Option Nat
  content : Content
  items : List Bundle
  attributes : List Bundle
  deriving DecidableEq

/-- What one producer submits at once. -/
structure Submission where
  scope : Scope
  actor : Actor
  stories : List StoryBundle
  deriving DecidableEq

/-- What was done for one story. -/
structure AppliedStory where
  story : Outcome
  items : List Outcome
  attributes : List Outcome
  deriving DecidableEq

/-- The relation between stories and their items. -/
def itemRelation : String := "news_items"

/-- The story as it is submitted: its content with the submitted items. -/
def StoryBundle.proposed (bundle : StoryBundle) : Content :=
  bundle.content.setMembers itemRelation (bundle.items.map Bundle.id)

/-- Each record once, as it was submitted first. -/
def Bundle.firsts : List Bundle → List Bundle
  | [] => []
  | first :: rest => first :: (firsts rest).filter fun bundle => bundle.id ≠ first.id

namespace Env

/-! ## Conflicts of a submission -/

/-- Accepts a content that the descriptor of its kind accepts. -/
def validate (env : Env) (kind : Kind) (content : Content) : Except Refusal Unit := do
  let descriptor ← env.descriptor kind
  (descriptor.check content).mapError Refusal.invalidContent

/-- The stored record, if the producer has not seen its version and the content would
change it. -/
def stale? (env : Env) (store : Store) (kind : Kind) (bundle : Bundle) :
    Except Refusal (Option Record) := do
  match ← env.record? store bundle.id with
  | none => return none
  | some record =>
      if record.kind ≠ kind then .error (.kindMismatch bundle.id kind record.kind)
      else if bundle.base = some record.version then return none
      else
        let descriptor ← env.descriptor kind
        let change := descriptor.compare (some record.content) (some bundle.content)
        return if change.isMaterial then some record else none

/-- Notices the conflict of a submitted record, or withdraws it. -/
def judge (env : Env) (scope : Scope) (kind : Kind) (parent : Option Parent) (bundle : Bundle) :
    Step (Option ConflictSummary) := fun store => do
  match ← env.stale? store kind bundle with
  | some record =>
      let (summary, store) ←
        env.noticeConflict record scope bundle.base bundle.content parent store
      return (some summary, store)
  | none => return (none, store.withdrawConflict kind bundle.id scope)

/-- Accepts a story whose contents are all acceptable. -/
def validateStory (env : Env) (bundle : StoryBundle) : Except Refusal Unit := do
  env.validate .story bundle.proposed
  bundle.items.forM fun bundle => env.validate .newsItem bundle.content
  bundle.attributes.forM fun bundle => env.validate .attr bundle.content

/-- The conflicts of a submitted story, of its items and of its attributes. An
attribute that is sent for the story and for an item counts once. -/
def judgeStory (env : Env) (scope : Scope) (bundle : StoryBundle) :
    Step (List ConflictSummary) := fun store => do
  env.validateStory bundle
  let parent : Parent := ⟨bundle.id, bundle.proposed⟩
  let (story, store) ←
    env.judge scope .story none ⟨bundle.id, bundle.base, bundle.proposed⟩ store
  let store := store.withdrawDropped .newsItem scope bundle.id (bundle.items.map Bundle.id)
  let (items, store) ← inTurn (env.judge scope .newsItem (some parent)) bundle.items store
  let store := store.withdrawDropped .attr scope bundle.id (bundle.attributes.map Bundle.id)
  let (attributes, store) ←
    inTurn (env.judge scope .attr (some parent)) (Bundle.firsts bundle.attributes) store
  return ((story :: items ++ attributes).filterMap fun summary => summary, store)

/-! ## Applying a submission -/

/-- Takes an item out of a story. -/
def detach (env : Env) (item : EntityId) (attribution : Attribution) (owner : EntityId) :
    Step Outcome := fun store => do
  let story ← env.live store .story owner
  let content :=
    match story.content.relations.get? itemRelation with
    | none => story.content
    | some members =>
        story.content.setMembers itemRelation (members.filter fun member => member ≠ item)
  env.apply .story owner (some content) attribution store

/-- Applies a submitted item and takes it out of the other stories. -/
def applyItem (env : Env) (story : EntityId) (attribution : Attribution) (item : Bundle) :
    Step Outcome := fun store => do
  let (outcome, store) ← env.apply .newsItem item.id (some item.content) attribution store
  let others := (store.owners item.id itemRelation).filter fun owner => owner ≠ story
  let (_, store) ← inTurn (env.detach item.id attribution) others store
  return (outcome, store)

/-- Applies a submitted story: its attributes, its items, then the story itself. -/
def applyStory (env : Env) (attribution : Attribution) (bundle : StoryBundle) :
    Step AppliedStory := fun store => do
  let (attributes, store) ← inTurn
    (fun sent : Bundle => env.apply .attr sent.id (some sent.content) attribution)
    bundle.attributes store
  let (items, store) ← inTurn (env.applyItem bundle.id attribution) bundle.items store
  let (story, store) ← env.apply .story bundle.id (some bundle.proposed) attribution store
  return (⟨story, items, attributes⟩, store)

/-! ## Submitting -/

/-- Looks for conflicts, and applies the submission if there are none. -/
def judgeAndApply (env : Env) (submission : Submission) :
    Step (List ConflictSummary ⊕ List AppliedStory) := fun store => do
  let (conflicts, store) ←
    inTurn (env.judgeStory submission.scope) submission.stories store
  match conflicts.flatten with
  | [] => do
      let attribution : Attribution := ⟨submission.actor, .external submission.scope⟩
      let (applied, store) ← inTurn (env.applyStory attribution) submission.stories store
      return (.inr applied, store)
  | conflicts => return (.inl conflicts, store)

/-- Applies a submission as a whole, or rejects it as a whole. A rejection changes no
record, and keeps what was written down about its conflicts. -/
def submit (env : Env) (submission : Submission) (store : Store) :
    Except Refusal (List AppliedStory) × Store :=
  match Step.transact (env.judgeAndApply submission) store with
  | (.error refusal, store) => (.error refusal, store)
  | (.ok (.inl conflicts), store) => (.error (.conflicting conflicts), store)
  | (.ok (.inr applied), store) => (.ok applied, store)

end Env

end Chronicle
