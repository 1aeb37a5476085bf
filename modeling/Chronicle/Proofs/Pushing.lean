import Chronicle.Proofs.Acceptance
import Chronicle.Proofs.Intake
import Chronicle.Proofs.Lingering
import Chronicle.Proofs.Telling

/-!
# Pushes that fail

A push is answered with the stored stories, which are read once the submission has been applied. That
cannot fail: an accepted submission leaves each of its stories with live items alone
(`Env.applyStories_present`), whatever else it has moved. So a push that fails was refused before
anything was applied, and leaves all records as they were (`Env.push_failed_leaves`).
-/

namespace Chronicle

open Descriptor (standard)

/-! ## Stories that can be shown -/

namespace Store

/-- The record with an identifier is live and of a kind. -/
def Has (store : Store) (kind : Kind) (id : EntityId) : Prop :=
  ∃ row, store.live? id = some row ∧ row.kind = kind

/-- There is a live story with an identifier, and all its items are live. -/
def Presents (store : Store) (story : EntityId) : Prop :=
  ∃ row, store.live? story = some row ∧ row.kind = .story ∧
    ∀ item ∈ row.content.members itemRelation, store.Has .newsItem item

theorem Has.of_row?_eq {before after : Store} {kind : Kind} {id : EntityId}
    (has : before.Has kind id) (same : after.row? id = before.row? id) : after.Has kind id := by
  obtain ⟨row, live, kind⟩ := has
  refine ⟨row, ?_, kind⟩
  rw [live?_eq_some_iff] at live ⊢
  rwa [same]

end Store

namespace Env

variable {env : Env} {attribution : Attribution} {store after : Store}

section Commit

variable {kind : Kind} {id : EntityId} {content : Content} {outcome : Outcome}
  (registered : env.registry = .standard) (sound : store.SoundRows)
  (applied : env.apply kind id (some content) attribution store = .ok (outcome, after))

include registered sound applied

theorem apply_id : outcome.id = id := by
  obtain ⟨_, applies⟩ := apply_applies registered sound applied
  cases applies with
  | unchanged immaterial => rfl
  | written material next writes =>
      obtain ⟨_, _, rfl⟩ := writes.links
      rfl

theorem apply_has : after.Has kind id := by
  obtain ⟨next, found, sameKind, live, _⟩ := apply_row registered sound applied
  exact ⟨next, Store.live?_eq_some_iff.mpr ⟨found, live⟩, sameKind⟩

/-- A commit of a content leaves all records live, and of their kinds. -/
theorem apply_keeps_has {otherKind : Kind} {other : EntityId} (has : store.Has otherKind other) :
    after.Has otherKind other := by
  by_cases same : other = id
  · subst same
    obtain ⟨row, live, rfl⟩ := has
    obtain ⟨found, _⟩ := Store.live?_eq_some_iff.mp live
    rw [(apply_present registered sound applied found).1]
    exact apply_has registered sound applied
  · exact has.of_row?_eq (apply_row?_of_ne registered sound applied same)

/-- A commit of another record leaves a story that can be shown so. -/
theorem apply_presents_of_ne {story : EntityId} (presents : store.Presents story)
    (different : story ≠ id) : after.Presents story := by
  obtain ⟨row, live, kind, items⟩ := presents
  refine ⟨row, ?_, kind, fun item listed => apply_keeps_has registered sound applied (items item listed)⟩
  rw [Store.live?_eq_some_iff] at live ⊢
  rwa [apply_row?_of_ne registered sound applied different]

end Commit

/-- A story from which an item is taken can be shown without it. -/
theorem detach_presents (registered : env.registry = .standard) (sound : store.SoundRows)
    {item owner story : EntityId} {outcome : Outcome}
    (detached : env.detach item attribution owner store = .ok (outcome, after))
    (presents : store.Presents story) : after.Presents story := by
  obtain ⟨_, _, applied⟩ := detach_eq_ok detached
  by_cases same : story = owner
  · subst same
    obtain ⟨row, live, kind, items⟩ := presents
    obtain ⟨found, notDeleted⟩ := Store.live?_eq_some_iff.mp live
    obtain ⟨old, next, oldFound, _, _, nextFound, without⟩ :=
      detach_without registered sound detached
    rw [found] at oldFound
    cases oldFound
    refine ⟨next, Store.live?_eq_some_iff.mpr ⟨nextFound, without.deleted_eq.trans notDeleted⟩,
      without.kind_eq.trans kind, fun member listed => ?_⟩
    rw [without.items_eq] at listed
    exact apply_keeps_has registered sound applied (items member (List.mem_filter.mp listed).1)
  · exact apply_presents_of_ne registered sound applied presents same

/-! ## Applying stories -/

variable {bundle : StoryBundle}

theorem keeps_has (registered : env.registry = .standard) (kind : Kind) (id : EntityId) :
    Keeps env attribution bundle (Store.Has · kind id) :=
  .of_apply fun _ _ _ _ _ _ sound has applied => apply_keeps_has registered sound applied has

/-- While another story is applied, a story that can be shown stays so. -/
theorem keeps_presents (registered : env.registry = .standard) {story : EntityId}
    (different : story ≠ bundle.id) : Keeps env attribution bundle (Store.Presents · story) := by
  constructor
  · intro mention mentioned before outcome next sound presents applied
    refine apply_presents_of_ne registered sound applied presents ?_
    rintro rfl
    obtain ⟨row, live, kind, _⟩ := presents
    obtain ⟨found, _⟩ := Store.live?_eq_some_iff.mp live
    have story := (apply_present registered sound applied found).1.symm.trans kind
    exact different (congrArg (fun mention => mention.sent.id)
      (StoryBundle.eq_of_kind_story mentioned story))
  · intro _ _ _ _ _ before outcome next _ _ sound presents detached
    exact detach_presents registered sound detached presents

/-- A story that has been applied can be shown: its items are those that were sent with it, which
have been committed before. -/
theorem applyStory_presents (registered : env.registry = .standard) {applied : AppliedStory}
    (sound : store.SoundRows)
    (done : env.applyStory attribution bundle store = .ok (applied, after)) :
    after.Presents bundle.id := by
  have settled := applyStory_settled registered sound done
  obtain ⟨row, live, kind, _⟩ := id settled
  obtain ⟨found, _⟩ := Store.live?_eq_some_iff.mp live
  refine ⟨row, live, kind, fun item listed => ?_⟩
  rw [settled.mem_iff found, StoryBundle.mem_proposed_items] at listed
  obtain ⟨sent, isItem, rfl⟩ := listed
  exact (keeps_has registered .newsItem sent.id).of_mention registered
    (StoryBundle.item_mem_mentions isItem)
    (fun _ _ _ sound once => apply_has registered sound once) sound done

/-- Once stories have been applied, all of them can be shown. -/
theorem applyStories_present (registered : env.registry = .standard) {bundles : List StoryBundle}
    {applied : List AppliedStory} (sound : store.SoundRows)
    (done : inTurn (env.applyStory attribution) bundles store = .ok (applied, after))
    (sent : bundle ∈ bundles) : after.Presents bundle.id := by
  refine inTurn_reaches Store.SoundRows (Store.Presents · bundle.id) sent ?_ ?_ ?_ sound done
  · intro other _ before result next sound once
    exact applyStory_soundRows registered sound once
  · intro before result next sound once
    exact applyStory_presents registered sound once
  · intro other _ before result next sound presents once
    -- a story that is sent again is shown as it was sent last
    by_cases same : bundle.id = other.id
    · rw [same]
      exact applyStory_presents registered sound once
    · exact ((keeps_presents registered same).applyStory registered sound presents once).2

/-- What is told of applied stories is told of those that were sent, one by one. -/
theorem applyStories_ids (registered : env.registry = .standard) {bundles : List StoryBundle}
    {applied : List AppliedStory} (sound : store.SoundRows)
    (done : inTurn (env.applyStory attribution) bundles store = .ok (applied, after)) :
    applied.map (fun answer => answer.story.id) = bundles.map StoryBundle.id := by
  induction bundles generalizing store applied with
  | nil =>
      obtain ⟨rfl, _⟩ := inTurn_nil_eq_ok.mp done
      rfl
  | cons bundle rest ih =>
      obtain ⟨answer, next, others, once, later, rfl⟩ := inTurn_cons_eq_ok.mp done
      obtain ⟨_, _, _, _, storyDone, _, itemsSound⟩ := Keeps.parts registered sound once
      rw [List.map_cons, List.map_cons, apply_id registered itemsSound storyDone,
        ih (applyStory_soundRows registered sound once) later]

/-! ## Answering -/

/-- A story that can be shown is. -/
theorem exists_storyWithItems (registered : env.registry = .standard) (sound : store.SoundRows)
    {story : EntityId} (presents : store.Presents story) :
    ∃ shown, env.storyWithItems store story = .ok shown := by
  obtain ⟨row, live, kind, items⟩ := presents
  obtain ⟨found, notDeleted⟩ := Store.live?_eq_some_iff.mp live
  have read := (live_eq_ok registered sound).mpr ⟨row, found, notDeleted, kind, rfl⟩
  obtain ⟨members, readItems⟩ : ∃ members,
      (row.content.members itemRelation).mapM (env.live store .newsItem) = .ok members := by
    refine exists_mapM_eq_ok fun item listed => ?_
    obtain ⟨itemRow, itemLive, itemKind⟩ := items item listed
    obtain ⟨itemFound, itemNotDeleted⟩ := Store.live?_eq_some_iff.mp itemLive
    exact ⟨_, (live_eq_ok registered sound).mpr ⟨itemRow, itemFound, itemNotDeleted, itemKind, rfl⟩⟩
  exact ⟨_, bind_eq_ok.mpr ⟨_, read, bind_eq_ok.mpr ⟨members, readItems, rfl⟩⟩⟩

/-- How a story is shown depends on the registry alone. -/
theorem storyWithItems_congr {later : Env} (same : later.registry = env.registry) :
    later.storyWithItems = env.storyWithItems := by
  cases env
  cases later
  cases same
  rfl

variable {submission : Submission}

/-- What is told of an accepted submission is told of its stories, one by one. -/
theorem submit_ids (registered : env.registry = .standard) (sound : store.SoundRows)
    {applied : List AppliedStory} (accepted : (env.submit submission store).1 = .ok applied) :
    applied.map (fun answer => answer.story.id) = submission.stories.map StoryBundle.id := by
  obtain ⟨judged, accepts⟩ := submit_accepts registered sound accepted
  exact applyStories_ids registered (accepts.sheds.records.soundRows sound) accepts.applied

/-- All stories of an accepted submission are shown once it has been applied. -/
theorem submit_presents (registered : env.registry = .standard) (sound : store.SoundRows)
    {applied : List AppliedStory} (accepted : (env.submit submission store).1 = .ok applied) :
    ∃ stories, applied.mapM (fun one =>
      env.storyWithItems (env.submit submission store).2 one.story.id) = .ok stories := by
  obtain ⟨judged, accepts⟩ := submit_accepts registered sound accepted
  have judgedSound := accepts.sheds.records.soundRows sound
  have done := accepts.applied
  have afterSound := applyStories_soundRows registered judgedSound done
  refine exists_mapM_eq_ok fun one answered => ?_
  have told : one.story.id ∈ applied.map fun answer => answer.story.id := List.mem_map_of_mem answered
  rw [submit_ids registered sound accepted] at told
  obtain ⟨bundle, sent, same⟩ := List.mem_map.mp told
  rw [← same]
  exact exists_storyWithItems registered afterSound
    (applyStories_present registered judgedSound done sent)

/-- A submission that is refused leaves the records alone. -/
theorem submit_refused_keepsRecords (registered : env.registry = .standard) {refusal : Refusal}
    (refused : (env.submit submission store).1 = .error refusal) :
    store.KeepsRecords (env.submit submission store).2 := by
  by_cases conflicted : ∃ conflicts, refusal = .conflicting conflicts
  · obtain ⟨conflicts, rfl⟩ := conflicted
    obtain ⟨_, _, judges, _⟩ := (submit_eq_conflicting registered).mp (Prod.ext refused rfl)
    exact inTurn_take_keepsRecords judges.taken
  · rw [submit_of_refused refused fun conflicts same => conflicted ⟨conflicts, same⟩]
    exact .refl store

end Env

/-! ## Pushing -/

/-- Drawing identifiers leaves the records alone. -/
theorem Store.DrawsOnly.keepsRecords {before after : Store} (draws : before.DrawsOnly after) :
    before.KeepsRecords after := by
  rw [DrawsOnly] at draws
  rw [draws]
  rfl

namespace Env

variable {env : Env} {store : Store} {producer : String} {body : Json}

section Read

variable {submission : Submission} {read : Store}
  (taken : env.readPush producer body store = .ok (submission, read))

include taken

/-- A push that is refused is answered with the refusal. -/
theorem push_of_refused {refusal : Refusal}
    (refused : (env.submit submission read).1 = .error refusal) :
    env.push producer body store =
      (.of (.error (.refused refusal)), (env.submit submission read).2) := by
  unfold push
  rw [taken]
  dsimp only
  rw [refused]
  rfl

/-- A push that is accepted is answered with the stored stories, if they can be shown. -/
theorem push_of_accepted {applied : List AppliedStory}
    (accepted : (env.submit submission read).1 = .ok applied) {stories : List Json}
    (shown : applied.mapM (fun one : AppliedStory =>
      env.storyWithItems (env.submit submission read).2 one.story.id) = .ok stories) :
    env.push producer body store =
      (⟨200, .ofMembers [("stories", .array stories)]⟩, (env.submit submission read).2) := by
  unfold push
  rw [taken]
  dsimp only
  rw [accepted]
  change (Response.of (RequestError.ofRefusal (applied.mapM _ >>= _)), _) = _
  rw [shown]
  rfl

end Read

/-- A push is refused because it cannot be read, or because the submission is, and is otherwise
answered with the stored stories. -/
theorem push_cases (registered : env.registry = .standard) (sound : store.SoundRows)
    (producer : String) (body : Json) :
    (∃ error, env.readPush producer body store = .error error ∧
      env.push producer body store = (.of (.error error), store)) ∨
    ∃ submission read, env.readPush producer body store = .ok (submission, read) ∧
      ((∃ refusal, (env.submit submission read).1 = .error refusal ∧
        env.push producer body store =
          (.of (.error (.refused refusal)), (env.submit submission read).2)) ∨
      ∃ applied stories, (env.submit submission read).1 = .ok applied ∧
        applied.mapM (fun one : AppliedStory =>
          env.storyWithItems (env.submit submission read).2 one.story.id) = .ok stories ∧
        env.push producer body store =
          (⟨200, .ofMembers [("stories", .array stories)]⟩, (env.submit submission read).2)) := by
  cases taken : env.readPush producer body store with
  | error error =>
      refine Or.inl ⟨error, rfl, ?_⟩
      rw [push, taken]
  | ok given =>
      obtain ⟨submission, read⟩ := given
      refine Or.inr ⟨submission, read, rfl, ?_⟩
      cases answer : (env.submit submission read).1 with
      | error refusal => exact Or.inl ⟨refusal, rfl, push_of_refused taken answer⟩
      | ok applied =>
          have readSound := (readPush_drawsAhead taken).drawsOnly.keepsRecords.soundRows sound
          obtain ⟨stories, shown⟩ := submit_presents registered readSound answer
          exact Or.inr ⟨applied, stories, rfl, shown, push_of_accepted taken answer shown⟩

/-- A push that is not answered with the stored stories leaves all records alone, and if it has not
been rejected for conflicts, the pending conflicts too. A push whose submission is accepted is
answered with them. -/
theorem push_failed_leaves (registered : env.registry = .standard)
    (reachable : Reachable .standard store) {response : Response} {after : Store}
    (pushed : env.push producer body store = (response, after)) :
    (response.status ≠ 200 → store.KeepsRecords after) ∧
    (response.status ≠ 200 → response.status ≠ 409 → after.conflicts = store.conflicts) ∧
    ∀ submission read applied, env.readPush producer body store = .ok (submission, read) →
      (env.submit submission read).1 = .ok applied →
      ∃ stories, applied.mapM (fun one => env.storyWithItems after one.story.id) = .ok stories ∧
        response = ⟨200, .ofMembers [("stories", .array stories)]⟩ := by
  cases taken : env.readPush producer body store with
  | error error =>
      unfold push at pushed
      rw [taken] at pushed
      cases pushed
      exact ⟨fun _ => .refl store, fun _ _ => rfl, nofun⟩
  | ok given =>
      obtain ⟨submission, read⟩ := given
      have draws := (readPush_drawsAhead taken).drawsOnly
      cases answer : (env.submit submission read).1 with
      | error refusal =>
          rw [push_of_refused taken answer] at pushed
          cases pushed
          refine ⟨fun _ => ?_, fun _ other => ?_, ?_⟩
          · exact draws.keepsRecords.trans (submit_refused_keepsRecords registered answer)
          · -- only a rejection for conflicts has the status of a conflict
            rw [submit_of_refused answer, show read.conflicts = store.conflicts by rw [draws]]
            rintro conflicts rfl
            exact other rfl
          · rintro _ _ applied ⟨⟩ accepted
            rw [answer] at accepted
            cases accepted
      | ok applied =>
          have sound := draws.keepsRecords.soundRows reachable.sound.1
          obtain ⟨stories, shown⟩ := submit_presents registered sound answer
          rw [push_of_accepted taken answer shown] at pushed
          cases pushed
          refine ⟨fun other => absurd rfl other, fun other => absurd rfl other, ?_⟩
          rintro _ _ again ⟨⟩ accepted
          rw [answer] at accepted
          cases accepted
          exact ⟨stories, shown, rfl⟩

end Env

/-- A new story that is pushed with the filed item, under a title. -/
def Json.refiling (title : String) : Json :=
  .array [.object [("id", .text "00000000-0000-0000-0000-000000000003"), ("title", .text "second"),
    ("news_items", .array [.object [("id", .text "00000000-0000-0000-0000-000000000001"),
      ("title", .text title)]])]]

/-- If the item keeps its title, it is shown with the new story; if not, nothing is changed but the
conflict is written down. -/
theorem push_failed_leaves_refiling :
    Reachable .standard .withFiledItem ∧
    (∃ response after, Env.push ⟨.standard, 3, 0⟩ "feed" (.refiling "item") .withFiledItem =
        (response, after) ∧ response.status = 200 ∧
      ∃ submission read applied, Env.readPush ⟨.standard, 3, 0⟩ "feed" (.refiling "item")
          .withFiledItem = .ok (submission, read) ∧
        (Env.submit ⟨.standard, 3, 0⟩ submission read).1 = .ok applied ∧
        ∃ stories, applied.mapM (fun one =>
            Env.storyWithItems ⟨.standard, 3, 0⟩ after one.story.id) = .ok stories ∧
          response = ⟨200, .ofMembers [("stories", .array stories)]⟩) ∧
    ∃ response after, Env.push ⟨.standard, 3, 0⟩ "feed" (.refiling "other") .withFiledItem =
        (response, after) ∧ response.status = 409 ∧ Store.withFiledItem.KeepsRecords after := by
  have reachable : Reachable .standard .withFiledItem := reachable_following ⟨.standard, 3, 0⟩ _
  have carried : ((Env.readPush ⟨.standard, 3, 0⟩ "feed" (.refiling "item")
      .withFiledItem).toOption.any fun given =>
        (Env.submit ⟨.standard, 3, 0⟩ given.1 given.2).1.isOk) = true := by decide +kernel
  obtain ⟨⟨submission, read⟩, given, isOk⟩ := (Option.any_eq_true _ _).mp carried
  have taken := eq_ok_of_toOption given
  obtain ⟨applied, accepted⟩ := exists_applied_of_isOk isOk
  obtain ⟨⟨response, after⟩, pushed⟩ : ∃ result,
      Env.push ⟨.standard, 3, 0⟩ "feed" (.refiling "item") .withFiledItem = result := ⟨_, rfl⟩
  have shown := (Env.push_failed_leaves rfl reachable pushed).2.2 submission read applied taken
    accepted
  have rejected : (Env.push ⟨.standard, 3, 0⟩ "feed" (.refiling "other") .withFiledItem).1.status =
      409 := by decide +kernel
  obtain ⟨⟨rejection, left⟩, refused⟩ : ∃ result,
      Env.push ⟨.standard, 3, 0⟩ "feed" (.refiling "other") .withFiledItem = result := ⟨_, rfl⟩
  rw [refused] at rejected
  have failed : rejection.status ≠ 200 := by
    rw [rejected]
    decide
  refine ⟨reachable, ⟨response, after, pushed, ?_, submission, read, applied, taken, accepted,
    shown⟩, rejection, left, refused, rejected,
    (Env.push_failed_leaves rfl reachable refused).1 failed⟩
  obtain ⟨_, _, rfl⟩ := shown
  rfl

end Chronicle
