import Chronicle.Proofs.Flat.Writing
import Chronicle.Proofs.Storing

/-!
# Pushing again what has been accepted

The answer to an accepted push shows each story with its identifier and with those of its items, in
the sequence in which they were sent (`Env.storyWithItems_shownAs`). If no record was sent with an
identifier, all of them are new and stored as they were sent. So a body with these identifiers filled
in is read as the same submission, whose attributes are found by their keys, and pushing it has no
effect (`Env.push_again_filled`).
-/

namespace Chronicle

open Descriptor (standard)

/-! ## What is shown -/

namespace Json

theorem id?_ofMembers (id : EntityId) {rest : List (String × Json)}
    (others : ∀ entry ∈ rest, entry.1 ≠ "id") :
    (ofMembers (("id", id.toJson) :: rest)).id? = some id.toJson := by
  have found : (Dict.ofList (("id", id.toJson) :: rest)).get? "id" = some id.toJson :=
    Dict.get?_ofList_eq_some_iff.mpr ⟨[], rest, rfl, others⟩
  rw [id?, object?_ofMembers, Option.bind_some, found]
  rfl

/-- A list that comes last is the one that is found. -/
theorem listed_ofMembers_append (members : List (String × Json)) (name : String)
    (entries : List Json) : (ofMembers (members ++ [(name, .array entries)])).listed name = entries := by
  have found : (Dict.ofList (members ++ [(name, .array entries)])).get? name =
      some (.array entries) :=
    Dict.get?_ofList_eq_some_iff.mpr ⟨members, [], rfl, nofun⟩
  rw [listed, object?_ofMembers, Option.bind_some, found]
  rfl

end Json

/-- An acceptable content is shown without another identifier than that of its record. -/
theorem Content.exists_jsonMembers {kind : Kind} {content : Content}
    (accepted : (standard kind).check content = .ok ()) (id : EntityId) (version : Nat) :
    ∃ rest, content.jsonMembers (some id) (some version) = ("id", id.toJson) :: rest ∧
      ∀ entry ∈ rest, entry.1 ≠ "id" := by
  have nodup := jsonMembers_nodup (Descriptor.flat_standard kind) accepted (some id) (some version)
  obtain ⟨absent, _⟩ := List.nodup_cons.mp nodup
  exact ⟨_, rfl, fun entry listed same => absent (List.mem_map.mpr ⟨entry, listed, same⟩)⟩

theorem Record.id?_toJson {record : Record} {kind : Kind}
    (accepted : (standard kind).check record.content = .ok ()) :
    record.toJson.id? = some record.id.toJson := by
  obtain ⟨rest, members, others⟩ :=
    Content.exists_jsonMembers accepted record.id record.version
  rw [Record.toJson, Content.toJson, members, Json.id?_ofMembers record.id others]

namespace Env

variable {env : Env} {store : Store}

/-- A story that is stored as it was sent is shown with its identifier and those of its items. -/
theorem storyWithItems_shownAs (registered : env.registry = .standard) (sound : store.SoundRows)
    {bundle : StoryBundle} (apart : (bundle.items.map Bundle.id).Nodup)
    (stored : Mention.Stored store ⟨.story, bundle.sent⟩) {shown : Json}
    (read : env.storyWithItems store bundle.id = .ok shown) : bundle.ShownAs shown := by
  unfold storyWithItems at read
  simp only [bind_eq_ok, pure_eq_ok] at read
  obtain ⟨story, live, items, itemsRead, rfl⟩ := read
  obtain ⟨row, found, _, _, rfl⟩ := (live_eq_ok registered sound).mp live
  obtain ⟨other, otherLive, _, content⟩ := stored
  obtain ⟨otherFound, _⟩ := Store.live?_eq_some_iff.mp otherLive
  cases found.symm.trans otherFound
  have members : row.content.members itemRelation = bundle.items.map Bundle.id := by
    rw [content, Content.members_canonical]
    change distinct (bundle.proposed.members itemRelation) = _
    rw [StoryBundle.proposed, Content.members_setMembers_self, distinct_eq_self apart]
  constructor
  · obtain ⟨rest, flat, others⟩ :=
      Content.exists_jsonMembers (sound _ row found).accepted bundle.id row.version
    change (Json.ofMembers (row.content.jsonMembers (some bundle.id) (some row.version) ++ _)).id? = _
    rw [flat, List.cons_append]
    refine Json.id?_ofMembers bundle.id fun entry listed => ?_
    rcases List.mem_append.mp listed with inContent | isItems
    · exact others entry inContent
    · rw [List.mem_singleton.mp isItems]
      exact (by decide : itemRelation ≠ "id")
  · have shownItems := mapM_eq_ok_iff.mp itemsRead
    change List.Forall₂ _ (row.content.members itemRelation) items at shownItems
    rw [members, List.forall₂_map_left_iff] at shownItems
    rw [Json.listed_ofMembers_append, List.map_map, ← List.forall₂_eq_eq_eq, List.forall₂_map_left_iff,
      List.forall₂_map_right_iff]
    refine (shownItems.imp fun item record given => ?_).flip
    obtain ⟨itemRow, itemFound, _, _, rfl⟩ := (live_eq_ok registered sound).mp given
    exact Record.id?_toJson (sound _ itemRow itemFound).accepted

variable {submission : Submission} {applied : List AppliedStory}

theorem mapM_storyWithItems (applied : List AppliedStory) :
    applied.mapM (fun one => env.storyWithItems store one.story.id) =
      (applied.map fun one => one.story.id).mapM (env.storyWithItems store) := by
  rw [List.mapM_map]
  rfl

/-- All stories that are stored as they were sent are shown like that. -/
theorem shownAs_of_stored (registered : env.registry = .standard) (sound : store.SoundRows)
    (distinct : submission.Distinct)
    (stored : ∀ mention ∈ submission.mentions, mention.Stored store)
    (ids : applied.map (fun one => one.story.id) = submission.stories.map StoryBundle.id)
    {stories : List Json}
    (shown : applied.mapM (fun one => env.storyWithItems store one.story.id) = .ok stories) :
    List.Forall₂ StoryBundle.ShownAs submission.stories stories := by
  rw [mapM_storyWithItems, ids, mapM_eq_ok_iff, List.forall₂_map_left_iff] at shown
  have each : List.Forall₂ (fun bundle shown => bundle ∈ submission.stories ∧
      env.storyWithItems store bundle.id = .ok shown) submission.stories stories :=
    (List.forall₂_and_left _ _).mpr ⟨fun _ sent => sent, shown⟩
  refine each.imp fun bundle shown given => ?_
  obtain ⟨sent, read⟩ := given
  exact storyWithItems_shownAs registered sound (distinct.items sent)
    (stored _ (Submission.mem_mentions sent List.mem_cons_self)) read

end Env

/-! ## Pushing again -/

theorem RequestError.status_ne_ok (error : RequestError) : error.status ≠ 200 := by
  cases error with
  | refused refusal => cases refusal <;> nofun
  | _ => nofun

namespace Env

variable {env later : Env} {store after : Store} {producer : String} {body : Json}
  {response : Response}

/-- A push that is answered with the stored stories has been read, and the submission accepted. -/
theorem push_accepted (registered : env.registry = .standard) (sound : store.SoundRows)
    (pushed : env.push producer body store = (response, after)) (answered : response.status = 200) :
    ∃ submission read applied stories,
      env.readPush producer body store = .ok (submission, read) ∧
      env.submit submission read = (.ok applied, after) ∧
      applied.mapM (fun one => env.storyWithItems after one.story.id) = .ok stories ∧
      response = ⟨200, .ofMembers [("stories", .array stories)]⟩ := by
  obtain ⟨error, _, refused⟩ | ⟨submission, read, taken, cause⟩ :=
    push_cases registered sound producer body
  · cases pushed.symm.trans refused
    exact absurd answered error.status_ne_ok
  · obtain ⟨refusal, _, refused⟩ | ⟨applied, stories, accepted, shown, done⟩ := cause
    · cases pushed.symm.trans refused
      exact absurd answered (RequestError.refused refusal).status_ne_ok
    · cases pushed.symm.trans done
      exact ⟨submission, read, applied, stories, taken, Prod.ext accepted rfl, shown, rfl⟩

section Anonymous

variable {submission : Submission} {read : Store} (registered : env.registry = .standard)
  (anonymous : body.Anonymous) (taken : env.readPush producer body store = .ok (submission, read))
  (spare : store.entities.size + submission.mentions.length < 2 ^ 128)

include registered anonymous taken spare

/-- All records of a body that gives no identifiers are new, and no two are the same. -/
theorem readPush_new : submission.Distinct ∧ submission.Unambiguous ∧
    ∀ mention ∈ submission.mentions, read.row? mention.sent.id = none := by
  obtain ⟨⟨ids, drawn, same⟩, parts, _⟩ := readPush_bare registered (by omega) anonymous taken
  have count : ids.length = submission.mentions.length := by
    rw [same.length_eq, List.length_map]
  have distinct : submission.Distinct := same.nodup_iff.mp (drawn.nodup (by omega))
  refine ⟨distinct, distinct.unambiguous parts, fun mention listed => ?_⟩
  rw [(readPush_drawsAhead taken).drawsOnly.keepsRecords.row?_eq]
  exact drawn.unused (by omega) _ (same.mem_iff.mpr (List.mem_map_of_mem listed))

/-- Where all records of a body that gives no identifiers are stored, it is read as the same
submission if it is filled in, and nothing is drawn. -/
theorem readPush_filled (sound : after.SoundRows)
    (stored : ∀ mention ∈ submission.mentions, mention.Stored after) {shown : Json}
    (shownAs : List.Forall₂ StoryBundle.ShownAs submission.stories (shown.listed "stories"))
    (generator : Generator) :
    (env.withGenerator generator).readPush producer (body.filled shown) after =
      .ok (submission, after) := by
  obtain ⟨distinct, _⟩ := readPush_new registered anonymous taken spare
  obtain ⟨_, _, again⟩ := readPush_bare registered (by omega) anonymous taken
  refine again generator after (fun bundle sent parts => ?_) shown shownAs
  exact parts.linked_of_stored registered sound (distinct.story sent) fun mention listed =>
    stored mention (Submission.mem_mentions sent listed)

end Anonymous

/-- A body that gives no identifiers, and has been accepted while there were unused ones for all its
records, is answered in the same way and without effect if it is pushed again with the identifiers of
the stories and items that the first answer shows: the attributes are those of the first push, by
their keys. -/
theorem push_again_filled (registered : env.registry = .standard)
    (laterRegistered : later.registry = .standard) (reachable : Reachable .standard store)
    (anonymous : body.Anonymous)
    (spare : ∀ submission read, env.readPush producer body store = .ok (submission, read) →
      store.entities.size + submission.mentions.length < 2 ^ 128)
    (pushed : env.push producer body store = (response, after)) (answered : response.status = 200) :
    later.push producer (body.filled response.body) after = (response, after) := by
  have disputed := (Trail.of_run reachable).disputed
  have alike := laterRegistered.trans registered.symm
  obtain ⟨submission, read, applied, stories, taken, accepted, shown, rfl⟩ :=
    push_accepted registered disputed.rows pushed answered
  have room := spare submission read taken
  have readDisputed := disputed.along ((readPush_drawsAhead taken).trail .standard)
  obtain ⟨distinct, unambiguous, unused⟩ := readPush_new registered anonymous taken room
  obtain ⟨sound, stored⟩ := submit_stored registered readDisputed.rows distinct unused accepted
  have told := submit_ids registered readDisputed.rows (congrArg Prod.fst accepted)
  -- what is filled in is read as the same submission, with nothing drawn
  have listed : (Json.ofMembers [("stories", .array stories)]).listed "stories" = stories :=
    Json.listed_ofMembers_append [] "stories" stories
  have reread : later.readPush producer (body.filled (.ofMembers [("stories", .array stories)])) after =
      .ok (submission, after) := by
    rw [readPush_congr alike]
    refine readPush_filled registered anonymous taken room sound stored ?_ later.generator
    rw [listed]
    exact shownAs_of_stored registered sound distinct stored told shown
  -- and has no effect, with the same stories to be shown
  obtain ⟨reapplied, reaccepted, _⟩ := submit_accepted_again registered laterRegistered readDisputed
    distinct.once unambiguous accepted rfl
  have retold := submit_ids laterRegistered sound (congrArg Prod.fst reaccepted)
  have reshown : reapplied.mapM (fun one => later.storyWithItems (later.submit submission after).2
      one.story.id) = .ok stories := by
    rw [reaccepted, mapM_storyWithItems, retold, ← told, ← mapM_storyWithItems,
      storyWithItems_congr alike]
    exact shown
  rw [push_of_accepted reread (congrArg Prod.fst reaccepted) reshown, reaccepted]

end Env

/-- A tag without an identifier. -/
def Json.mood (value : String) : Json := .object [("key", .text "mood"), ("value", .text value)]

/-- A story and its items, with tags that all have the same key, and without identifiers. -/
def Json.moods : Json :=
  .object [("stories", .array [.object [("title", .text "story"), ("base_version", .int 7),
    ("attributes", .array [.mood "calm", .mood "bright", .mood "calm"]),
    ("news_items", .array [
      .object [("title", .text "first"), ("attributes", .array [.mood "bright", .mood "calm"])],
      .object [("id", .null), ("title", .text "second"), ("attributes", .array [.mood "calm"])]])]])]

/-- The six tags are found again, each for its own record. -/
theorem push_again_filled_moods :
    Reachable .standard .withFiledItem ∧ Json.moods.Anonymous ∧
    ∃ response after,
      Env.push ⟨.standard, 3, 4⟩ "feed" .moods .withFiledItem = (response, after) ∧
      response.status = 200 ∧
      after.entities.size = Store.withFiledItem.entities.size + 9 ∧
      Env.push ⟨.standard, 3, 5⟩ "feed" (Json.moods.filled response.body) after =
        (response, after) := by
  have reachable : Reachable .standard .withFiledItem := reachable_following ⟨.standard, 3, 0⟩ _
  obtain ⟨⟨response, after⟩, pushed⟩ : ∃ result, Env.push ⟨.standard, 3, 4⟩ "feed" .moods
      .withFiledItem = result := ⟨_, rfl⟩
  have answered : (Env.push ⟨.standard, 3, 4⟩ "feed" .moods .withFiledItem).1.status = 200 ∧
      (Env.push ⟨.standard, 3, 4⟩ "feed" .moods .withFiledItem).2.entities.size =
        Store.withFiledItem.entities.size + 9 := by decide +kernel
  rw [pushed] at answered
  have anonymous : Json.moods.Anonymous := by decide
  have spare : ∀ submission read, Env.readPush ⟨.standard, 3, 4⟩ "feed" .moods .withFiledItem =
      .ok (submission, read) →
      Store.withFiledItem.entities.size + submission.mentions.length < 2 ^ 128 := by
    have checked : ((Env.readPush ⟨.standard, 3, 4⟩ "feed" .moods .withFiledItem).toOption.all
        fun given => decide
          (Store.withFiledItem.entities.size + given.1.mentions.length < 2 ^ 128)) = true := by
      decide +kernel
    intro submission read taken
    rw [taken] at checked
    exact of_decide_eq_true checked
  exact ⟨reachable, anonymous, response, after, pushed, answered.1, answered.2,
    Env.push_again_filled rfl rfl reachable anonymous spare pushed answered.1⟩

end Chronicle
