import Chronicle.Proofs.Application
import Mathlib.Data.List.Pairwise
import Mathlib.Data.List.TakeWhile

/-!
# Accepted submissions

An accepted submission that names each record once is applied exactly, in whatever sequence its
stories and items come. A record that has been committed is settled, and nothing that comes later
touches it (`Env.keeps_settled`): its name does not occur again, and no story of the submission
loses an item that it was sent with.
-/

namespace Chronicle

open Descriptor (standard)

/-! ## Names -/

namespace Submission

variable {submission : Submission}

/-- The items that are submitted. -/
def itemIds (submission : Submission) : List EntityId :=
  submission.stories.flatMap fun bundle => bundle.items.map Bundle.id

theorem mem_mentions {bundle : StoryBundle} (sent : bundle ∈ submission.stories)
    {mention : Mention} (listed : mention ∈ bundle.mentions) : mention ∈ submission.mentions :=
  List.mem_flatMap.mpr ⟨bundle, sent, listed⟩

theorem mention_eq_of_name (once : (submission.mentions.map Mention.name).Nodup)
    {first second : Mention} (firstListed : first ∈ submission.mentions)
    (secondListed : second ∈ submission.mentions) (same : first.name = second.name) :
    first = second :=
  List.inj_on_of_nodup_map once firstListed secondListed same

/-- A name that is mentioned with two stories belongs to one and the same. -/
theorem story_eq_of_name (once : (submission.mentions.map Mention.name).Nodup)
    {first second : StoryBundle} (firstSent : first ∈ submission.stories)
    (secondSent : second ∈ submission.stories) {mention other : Mention}
    (listed : mention ∈ first.mentions) (otherListed : other ∈ second.mentions)
    (same : mention.name = other.name) : first = second := by
  rw [mentions, List.map_flatMap, List.nodup_flatMap] at once
  refine Classical.byContradiction ?_
  intro different
  have symmetric : Std.Symm (Function.onFun List.Disjoint fun bundle : StoryBundle =>
      bundle.mentions.map Mention.name) := ⟨fun _ _ apart _ inFirst inSecond => apart inSecond inFirst⟩
  have apart := once.2.forall firstSent secondSent different
  exact apart (List.mem_map.mpr ⟨mention, listed, rfl⟩)
    (List.mem_map.mpr ⟨other, otherListed, same.symm⟩)

/-- A submission with only some of its stories. -/
def only (submission : Submission) (stories : List StoryBundle) : Submission :=
  { submission with stories := stories }

/-- The names before a story and after it are different from those that come with it. -/
theorem once_split (once : (submission.mentions.map Mention.name).Nodup)
    {earlier later : List StoryBundle} {bundle : StoryBundle}
    (split : submission.stories = earlier ++ bundle :: later) :
    ((submission.only earlier).mentions.map Mention.name).Nodup ∧
    ((submission.only later).mentions.map Mention.name).Nodup ∧
    (∀ mention ∈ bundle.mentions, ∀ other ∈ (submission.only earlier).mentions,
      other.name ≠ mention.name) ∧
    ∀ mention ∈ bundle.mentions, ∀ other ∈ (submission.only later).mentions,
      other.name ≠ mention.name := by
  have parts : submission.mentions = (submission.only earlier).mentions ++
      (bundle.mentions ++ (submission.only later).mentions) := by
    rw [mentions, split, List.flatMap_append, List.flatMap_cons]
    rfl
  rw [parts, List.map_append, List.map_append, List.nodup_append, List.nodup_append] at once
  obtain ⟨earlierOnce, ⟨_, laterOnce, apartLater⟩, apartEarlier⟩ := once
  refine ⟨earlierOnce, laterOnce, ?_, ?_⟩
  · intro mention listed other otherListed
    exact apartEarlier _ (List.mem_map_of_mem otherListed) _
      (List.mem_append_left _ (List.mem_map_of_mem listed))
  · intro mention listed other otherListed
    exact (apartLater _ (List.mem_map_of_mem listed) _ (List.mem_map_of_mem otherListed)).symm

/-- The stories that come before the first one with a record of this name. -/
def before (submission : Submission) (name : Kind × EntityId) : List StoryBundle :=
  submission.stories.takeWhile fun bundle => decide (name ∉ bundle.mentions.map Mention.name)

theorem before_unnamed {name : Kind × EntityId} {other : StoryBundle}
    (listed : other ∈ submission.before name) :
    other ∈ submission.stories ∧ name ∉ other.mentions.map Mention.name := by
  have passes := List.mem_takeWhile_imp listed
  exact ⟨List.takeWhile_subset _ listed, of_decide_eq_true passes⟩

theorem before_of_split (once : (submission.mentions.map Mention.name).Nodup)
    {earlier later : List StoryBundle} {bundle : StoryBundle}
    (split : submission.stories = earlier ++ bundle :: later) {mention : Mention}
    (listed : mention ∈ bundle.mentions) : submission.before mention.name = earlier := by
  obtain ⟨_, _, apart, _⟩ := once_split once split
  have here : mention.name ∈ bundle.mentions.map Mention.name := List.mem_map_of_mem listed
  have unnamed : ∀ one ∈ earlier, mention.name ∉ one.mentions.map Mention.name := by
    intro one isEarlier named
    obtain ⟨other, mentioned, same⟩ := List.mem_map.mp named
    exact apart mention listed other (List.mem_flatMap.mpr ⟨one, isEarlier, mentioned⟩) same
  rw [before, split, List.takeWhile_append_of_pos, List.takeWhile_cons_of_neg, List.append_nil]
  · simpa using here
  · intro one isEarlier
    exact decide_eq_true (unnamed one isEarlier)

end Submission

namespace StoryBundle

variable {bundle : StoryBundle}

/-- The only story that a story mentions is itself. -/
theorem eq_of_kind_story {mention : Mention} (listed : mention ∈ bundle.mentions)
    (kind : mention.kind = .story) : mention = ⟨.story, bundle.sent⟩ := by
  rcases List.mem_cons.mp listed with story | other
  · exact story
  · rcases List.mem_append.mp other with item | attr
    · obtain ⟨_, _, rfl⟩ := List.mem_map.mp item
      cases kind
    · obtain ⟨_, _, rfl⟩ := List.mem_map.mp attr
      cases kind

theorem mem_proposed_items {item : EntityId} :
    item ∈ bundle.sent.content.members itemRelation ↔ ∃ sent ∈ bundle.items, sent.id = item := by
  change item ∈ bundle.proposed.members itemRelation ↔ _
  rw [proposed, Content.members_setMembers_self, List.mem_map]

end StoryBundle

/-! ## Settled mentions -/

theorem Mention.Settled.of_row?_eq {before next : Store} {mention : Mention}
    (settled : mention.Settled before)
    (same : next.row? mention.sent.id = before.row? mention.sent.id) : mention.Settled next := by
  obtain ⟨row, live, kind, counts⟩ := settled
  refine ⟨row, ?_, kind, counts⟩
  rw [Store.live?_eq_some_iff] at live ⊢
  rw [same]
  exact live

/-- A settled record has the kind it is mentioned for. -/
theorem Mention.Settled.kind_eq {store : Store} {mention : Mention} (settled : mention.Settled store)
    {row : EntityRow} (found : store.row? mention.sent.id = some row) : row.kind = mention.kind := by
  obtain ⟨other, live, kind, _⟩ := settled
  obtain ⟨otherFound, _⟩ := Store.live?_eq_some_iff.mp live
  rw [found] at otherFound
  cases otherFound
  exact kind

/-- A settled record has the members that were sent. -/
theorem Mention.Settled.mem_iff {store : Store} {mention : Mention} (settled : mention.Settled store)
    {row : EntityRow} (found : store.row? mention.sent.id = some row) {relation : String}
    {member : EntityId} :
    member ∈ row.content.members relation ↔ member ∈ mention.sent.content.members relation := by
  obtain ⟨other, live, _, counts⟩ := settled
  obtain ⟨otherFound, _⟩ := Store.live?_eq_some_iff.mp live
  rw [found] at otherFound
  cases otherFound
  exact ((Descriptor.standard_normal_eq_iff _ _ _).mp counts).2 relation member

/-- A settled story lists the items that were sent with it. -/
theorem Mention.Settled.sent_of_lists {store : Store} {mention : Mention}
    (settled : mention.Settled store) {bundle : StoryBundle} (listed : mention ∈ bundle.mentions)
    (story : mention.kind = .story) {row : EntityRow}
    (found : store.row? mention.sent.id = some row) {item : EntityId}
    (lists : item ∈ row.content.members itemRelation) :
    mention = ⟨.story, bundle.sent⟩ ∧ ∃ sent ∈ bundle.items, sent.id = item := by
  have own := StoryBundle.eq_of_kind_story listed story
  rw [settled.mem_iff found, own, StoryBundle.mem_proposed_items] at lists
  exact ⟨own, lists⟩

/-- A settled story that lists an item of a submitted story is that story. -/
theorem Mention.Settled.story_of_lists {store : Store} {mention : Mention}
    (settled : mention.Settled store) {submission : Submission}
    (once : (submission.mentions.map Mention.name).Nodup) (listed : mention ∈ submission.mentions)
    (story : mention.kind = .story) {row : EntityRow}
    (found : store.row? mention.sent.id = some row) {bundle : StoryBundle}
    (sent : bundle ∈ submission.stories) {item : Bundle} (isItem : item ∈ bundle.items)
    (lists : item.id ∈ row.content.members itemRelation) : mention.sent.id = bundle.id := by
  obtain ⟨own, ownSent, mentioned⟩ := List.mem_flatMap.mp listed
  obtain ⟨same, ownItem, isOwnItem, sameItem⟩ := settled.sent_of_lists mentioned story found lists
  have bundles := Submission.story_eq_of_name once ownSent sent
    (StoryBundle.item_mem_mentions isOwnItem) (StoryBundle.item_mem_mentions isItem)
    (Prod.ext rfl sameItem)
  rw [same, ← bundles]
  rfl

namespace Env

variable {env : Env} {attribution : Attribution} {store after : Store} {submission : Submission}

theorem detach_row?_of_ne (registered : env.registry = .standard) (sound : store.SoundRows)
    {item owner other : EntityId} {outcome : Outcome}
    (detached : env.detach item attribution owner store = .ok (outcome, after))
    (different : other ≠ owner) : after.row? other = store.row? other := by
  obtain ⟨_, _, applied⟩ := detach_eq_ok detached
  exact apply_row?_of_ne registered sound applied different

/-- Every commit of the submission keeps a mention settled. -/
theorem keeps_settled (registered : env.registry = .standard)
    (once : (submission.mentions.map Mention.name).Nodup) {mention : Mention}
    (listed : mention ∈ submission.mentions) {bundle : StoryBundle}
    (sent : bundle ∈ submission.stories) : Keeps env attribution bundle (Mention.Settled · mention) := by
  constructor
  · intro other otherListed before outcome next sound settled applied
    by_cases same : other.name = mention.name
    · rw [← Submission.mention_eq_of_name once (Submission.mem_mentions sent otherListed) listed same]
      exact apply_settled registered sound other applied
    · refine settled.of_row?_eq (apply_row?_of_ne registered sound applied ?_)
      intro here
      obtain ⟨row, live, kind, _⟩ := settled
      obtain ⟨found, _⟩ := Store.live?_eq_some_iff.mp live
      rw [here] at found
      have otherKind := (apply_present registered sound applied found).1
      exact same (Prod.ext (otherKind.symm.trans kind) here.symm)
  · intro item isItem owner other earlier before outcome next settledEarlier owns sound settled
      detached
    refine settled.of_row?_eq (detach_row?_of_ne registered sound detached ?_)
    intro here
    subst here
    -- the mention is a story that lists the item, so it is the one that is being applied
    obtain ⟨row, _, found, story, _⟩ := detach_without registered sound detached
    have kind := settled.kind_eq found
    obtain ⟨earlierRow, earlierFound, lists⟩ := Store.mem_owners_iff.mp owns
    exact other (settledEarlier.story_of_lists once listed (kind.symm.trans story) earlierFound sent
      isItem lists)

/-- A submission that has been applied has settled all that it mentions. -/
theorem applyStories_settle (registered : env.registry = .standard)
    (once : (submission.mentions.map Mention.name).Nodup) {mention : Mention}
    (listed : mention ∈ submission.mentions) {applied : List AppliedStory}
    (sound : store.SoundRows)
    (done : inTurn (env.applyStory attribution) submission.stories store = .ok (applied, after)) :
    mention.Settled after := by
  obtain ⟨bundle, sent, mentioned⟩ := List.mem_flatMap.mp listed
  have keeps : ∀ other ∈ submission.stories,
      Keeps env attribution other (Mention.Settled · mention) :=
    fun other otherSent => keeps_settled registered once listed otherSent
  refine applyStories_reach registered keeps sent ?_ sound done
  intro before result next sound applied
  refine (keeps bundle sent).of_mention registered mentioned ?_ sound applied
  intro before outcome next sound once
  exact apply_settled registered sound mention once

end Env

/-! ## Who lists an item -/

/-- No record but the owner lists the item. -/
def Store.ListedOnlyBy (store : Store) (item owner : EntityId) : Prop :=
  ∀ other ∈ store.owners item itemRelation, other = owner

/-- Only stories list items. -/
theorem Store.SoundRows.story_of_owner {store : Store} (sound : store.SoundRows)
    {item owner : EntityId} (owns : owner ∈ store.owners item itemRelation) :
    ∃ row, store.row? owner = some row ∧ row.kind = .story ∧
      item ∈ row.content.members itemRelation := by
  obtain ⟨row, found, lists⟩ := Store.mem_owners_iff.mp owns
  have declared := Descriptor.declared_of_mem (sound owner row found).accepted lists
  refine ⟨row, found, ?_, lists⟩
  cases kind : row.kind with
  | story => rfl
  | newsItem =>
      rw [kind] at declared
      exact absurd declared (by decide)
  | attr =>
      rw [kind] at declared
      exact absurd declared (by decide)

namespace Env

variable {env : Env} {attribution : Attribution} {store after : Store} {submission : Submission}

/-- Taking an item out of a story makes no other story list anything, and this one not the
item. -/
theorem mem_owners_of_detach (registered : env.registry = .standard) (sound : store.SoundRows)
    {item owner : EntityId} {outcome : Outcome}
    (detached : env.detach item attribution owner store = .ok (outcome, after))
    {member other : EntityId} (owns : other ∈ after.owners member itemRelation) :
    other ∈ store.owners member itemRelation ∧ (other = owner → member ≠ item) := by
  obtain ⟨row, next, found, _, _, nextFound, without⟩ := detach_without registered sound detached
  obtain ⟨otherRow, otherFound, lists⟩ := Store.mem_owners_iff.mp owns
  by_cases same : other = owner
  · subst same
    rw [nextFound] at otherFound
    cases otherFound
    rw [without.items_eq, List.mem_filter] at lists
    obtain ⟨listed, kept⟩ := lists
    refine ⟨Store.mem_owners_iff.mpr ⟨row, found, listed⟩, ?_⟩
    intro _ taken
    simp [taken] at kept
  · rw [detach_row?_of_ne registered sound detached same] at otherFound
    exact ⟨Store.mem_owners_iff.mpr ⟨otherRow, otherFound, lists⟩, fun here => absurd here same⟩

/-- An item that has been applied is listed by no story but the one it was sent with. -/
theorem applyItem_listedOnlyBy (registered : env.registry = .standard) (sound : store.SoundRows)
    {story : EntityId} {item : Bundle} {outcome : Outcome}
    (applied : env.applyItem story attribution item store = .ok (outcome, after)) :
    after.ListedOnlyBy item.id story := by
  obtain ⟨next, _, committed, detached⟩ := applyItem_eq_ok applied
  have nextSound := apply_soundRows registered sound committed
  intro other owns
  refine Classical.byContradiction ?_
  intro different
  have steady : ∀ owner before result later, before.SoundRows →
      env.detach item.id attribution owner before = .ok (result, later) → later.SoundRows :=
    fun owner before result later sound once => detach_soundRows registered sound once
  have ownedBefore : other ∈ next.owners item.id itemRelation := by
    have shrinks : after.SoundRows ∧ (other ∈ after.owners item.id itemRelation →
        other ∈ next.owners item.id itemRelation) := by
      refine inTurn_keeps (motive := fun state => state.SoundRows ∧
        (other ∈ state.owners item.id itemRelation → other ∈ next.owners item.id itemRelation)) ?_
        ⟨nextSound, id⟩ detached
      intro owner _ before result later both once
      exact ⟨steady owner before result later both.1 once, fun owns =>
        both.2 (mem_owners_of_detach registered both.1 once owns).1⟩
    exact shrinks.2 owns
  -- so it is one of those that the item is taken out of
  have isOther : other ∈ (next.owners item.id itemRelation).filter fun owner => owner ≠ story :=
    List.mem_filter.mpr ⟨ownedBefore, decide_eq_true different⟩
  have gone : other ∉ after.owners item.id itemRelation := by
    refine inTurn_reaches Store.SoundRows (fun state => other ∉ state.owners item.id itemRelation)
      isOther ?_ ?_ ?_ nextSound detached
    · intro owner _ before result later sound once
      exact steady owner before result later sound once
    · intro before result later sound once owns
      exact (mem_owners_of_detach registered sound once owns).2 rfl rfl
    · intro owner _ before result later sound absent once owns
      exact absent (mem_owners_of_detach registered sound once owns).1
  exact gone owns

/-- Every commit of the submission leaves an item to the story it was sent with. -/
theorem keeps_listedOnlyBy (registered : env.registry = .standard)
    (once : (submission.mentions.map Mention.name).Nodup) {bundle other : StoryBundle}
    (sent : bundle ∈ submission.stories) {item : Bundle} (isItem : item ∈ bundle.items)
    (otherSent : other ∈ submission.stories) :
    Keeps env attribution other (Store.ListedOnlyBy · item.id bundle.id) := by
  constructor
  · intro mention mentioned before outcome next sound alone applied owner owns
    obtain ⟨row, found, story, lists⟩ :=
      (apply_soundRows registered sound applied).story_of_owner owns
    by_cases here : owner = mention.sent.id
    · -- the story that has been committed lists what was sent with it
      subst here
      have settled := apply_settled registered sound mention applied
      have kind := settled.kind_eq found
      exact settled.story_of_lists once (Submission.mem_mentions otherSent mentioned)
        (kind.symm.trans story) found sent isItem lists
    · rw [apply_row?_of_ne registered sound applied here] at found
      exact alone owner (Store.mem_owners_iff.mpr ⟨row, found, lists⟩)
  · intro _ _ _ _ _ before outcome next _ _ sound alone detached owner owns
    exact alone owner (mem_owners_of_detach registered sound detached owns).1

/-- A submitted item is listed by the story it was sent with, and by no other record. -/
theorem applyStories_owners (registered : env.registry = .standard)
    (once : (submission.mentions.map Mention.name).Nodup) {bundle : StoryBundle}
    (sent : bundle ∈ submission.stories) {item : Bundle} (isItem : item ∈ bundle.items)
    {applied : List AppliedStory} (sound : store.SoundRows)
    (done : inTurn (env.applyStory attribution) submission.stories store = .ok (applied, after)) :
    after.owners item.id itemRelation = [bundle.id] := by
  have keeps : ∀ other ∈ submission.stories,
      Keeps env attribution other (Store.ListedOnlyBy · item.id bundle.id) :=
    fun other otherSent => keeps_listedOnlyBy registered once sent isItem otherSent
  have alone : after.ListedOnlyBy item.id bundle.id := by
    refine applyStories_reach registered keeps sent ?_ sound done
    intro before result next sound applied
    refine (keeps bundle sent).of_item registered isItem ?_ sound applied
    intro before outcome next sound once
    exact applyItem_listedOnlyBy registered sound once
  have owns : bundle.id ∈ after.owners item.id itemRelation := by
    have storyListed : (⟨.story, bundle.sent⟩ : Mention) ∈ submission.mentions :=
      Submission.mem_mentions sent List.mem_cons_self
    have settled := applyStories_settle registered once storyListed sound done
    obtain ⟨row, live, _, _⟩ := id settled
    obtain ⟨found, _⟩ := Store.live?_eq_some_iff.mp live
    refine Store.mem_owners_iff.mpr ⟨row, found, ?_⟩
    rw [settled.mem_iff found]
    exact StoryBundle.mem_proposed_items.mpr ⟨item, isItem, rfl⟩
  refine eq_of_sorted (Dict.keys_sorted _) (List.pairwise_singleton _ _) fun owner => ?_
  rw [List.mem_singleton]
  constructor
  · exact alone owner
  · rintro rfl
    exact owns

/-! ## Records that are not named -/

/-- A commit of a mention is not about a record that is there under another name. -/
theorem apply_row?_of_unnamed (registered : env.registry = .standard) (sound : store.SoundRows)
    {mention : Mention} {outcome : Outcome} (applied : env.apply mention.kind mention.sent.id
      (some mention.sent.content) attribution store = .ok (outcome, after))
    {id : EntityId} {row : EntityRow} (found : store.row? id = some row)
    (unnamed : mention.name ≠ (row.kind, id)) : after.row? id = some row := by
  rw [← found]
  refine apply_row?_of_ne registered sound applied ?_
  intro here
  subst here
  have kind := (apply_present registered sound applied found).1
  exact unnamed (Prod.ext kind.symm rfl)

/-- Of a story that is not named, every commit leaves all but submitted items. -/
theorem keeps_without (registered : env.registry = .standard) {id : EntityId} {row : EntityRow}
    (unnamed : (row.kind, id) ∉ submission.mentions.map Mention.name) {bundle : StoryBundle}
    (sent : bundle ∈ submission.stories) :
    Keeps env attribution bundle fun state => ∃ next items, state.row? id = some next ∧
      row.Without next items ∧ ∀ item ∈ items, item ∈ submission.itemIds := by
  constructor
  · rintro mention mentioned before outcome after sound ⟨next, items, found, without, submitted⟩
      applied
    refine ⟨next, items, ?_, without, submitted⟩
    refine apply_row?_of_unnamed registered sound applied found ?_
    rw [without.kind_eq]
    intro same
    exact unnamed (List.mem_map.mpr ⟨mention, Submission.mem_mentions sent mentioned, same⟩)
  · rintro item isItem owner _ _ before outcome after _ _ sound
      ⟨next, items, found, without, submitted⟩ detached
    by_cases here : id = owner
    · subst here
      obtain ⟨old, last, oldFound, _, _, lastFound, lost⟩ :=
        detach_without registered sound detached
      rw [found] at oldFound
      cases oldFound
      refine ⟨last, _, lastFound, without.trans lost, ?_⟩
      intro other listed
      rcases List.mem_append.mp listed with own | earlier
      · rw [List.mem_singleton.mp own]
        exact List.mem_flatMap.mpr ⟨bundle, sent, List.mem_map.mpr ⟨item, isItem, rfl⟩⟩
      · exact submitted other earlier
    · refine ⟨next, items, ?_, without, submitted⟩
      rw [detach_row?_of_ne registered sound detached here, found]

/-- An item or attribute that is not named is left alone by every commit. -/
theorem keeps_row (registered : env.registry = .standard) {id : EntityId} {row : EntityRow}
    (noStory : row.kind ≠ .story)
    (unnamed : (row.kind, id) ∉ submission.mentions.map Mention.name) {bundle : StoryBundle}
    (sent : bundle ∈ submission.stories) :
    Keeps env attribution bundle fun state => state.row? id = some row := by
  constructor
  · intro mention mentioned before outcome after sound found applied
    refine apply_row?_of_unnamed registered sound applied found ?_
    intro same
    exact unnamed (List.mem_map.mpr ⟨mention, Submission.mem_mentions sent mentioned, same⟩)
  · intro _ _ owner _ _ before outcome after _ _ sound found detached
    rw [← found]
    refine detach_row?_of_ne registered sound detached ?_
    intro here
    subst here
    obtain ⟨old, _, oldFound, story, _⟩ := detach_without registered sound detached
    rw [found] at oldFound
    cases oldFound
    exact noStory story

/-- No record comes about that is not named. -/
theorem keeps_absent (registered : env.registry = .standard) {id : EntityId}
    (unnamed : ∀ mention ∈ submission.mentions, mention.sent.id ≠ id) {bundle : StoryBundle}
    (sent : bundle ∈ submission.stories) :
    Keeps env attribution bundle fun state => state.row? id = none := by
  constructor
  · intro mention mentioned before outcome after sound absent applied
    rw [← absent]
    refine apply_row?_of_ne registered sound applied ?_
    intro here
    exact unnamed mention (Submission.mem_mentions sent mentioned) here.symm
  · intro _ _ owner _ _ before outcome after _ _ sound absent detached
    rw [← absent]
    refine detach_row?_of_ne registered sound detached ?_
    intro here
    subst here
    obtain ⟨_, _, found, _⟩ := detach_without registered sound detached
    rw [absent] at found
    cases found

end Env

/-! ## Exact application -/

/-- What an accepted submission that names each record once leads to. -/
structure Submission.Applied (submission : Submission) (store after : Store) : Prop where
  /-- What is named is live, of the named kind, and counts as what was sent. -/
  settled : ∀ mention ∈ submission.mentions, ∃ row, after.row? mention.sent.id = some row ∧
    row.deleted = false ∧ row.kind = mention.kind ∧
    (standard mention.kind).normal row.content =
      (standard mention.kind).normal mention.sent.content
  /-- Each submitted item is listed by its own story alone. -/
  listed : ∀ bundle ∈ submission.stories, ∀ item ∈ bundle.items,
    after.owners item.id itemRelation = [bundle.id]
  /-- A story that is not named has lost the submitted items, and nothing else. -/
  stories : ∀ id row, store.row? id = some row → row.kind = .story →
    (row.kind, id) ∉ submission.mentions.map Mention.name →
    ∃ next, after.row? id = some next ∧ row.Without next submission.itemIds
  /-- An item or attribute that is not named has the same row as before. -/
  members : ∀ id row, store.row? id = some row → row.kind ≠ .story →
    (row.kind, id) ∉ submission.mentions.map Mention.name → after.row? id = some row
  /-- No record has come about that is not named. -/
  absent : ∀ id, store.row? id = none → (∀ mention ∈ submission.mentions, mention.sent.id ≠ id) →
    after.row? id = none
  /-- What has been recorded is put down to the producer. -/
  recorded : ∀ key snapshot, after.snapshots.get? key = some snapshot →
    store.snapshots.get? key ≠ some snapshot →
    snapshot.origin = .external submission.scope ∧ snapshot.changedBy = submission.actor
  /-- No conflict of the producer is pending for what is named. -/
  cleared : ∀ conflict ∈ after.conflicts.values, conflict.scope = submission.scope →
    ∀ mention ∈ submission.mentions, conflict.entity ≠ mention.sent.id

namespace Env

variable {env : Env} {attribution : Attribution} {store after : Store} {submission : Submission}

/-- All the items that a story has lost are gone from it. -/
theorem applyStories_without (registered : env.registry = .standard)
    (once : (submission.mentions.map Mention.name).Nodup) {applied : List AppliedStory}
    (sound : store.SoundRows)
    (done : inTurn (env.applyStory attribution) submission.stories store = .ok (applied, after))
    {id : EntityId} {row : EntityRow} (found : store.row? id = some row)
    (story : row.kind = .story)
    (unnamed : (row.kind, id) ∉ submission.mentions.map Mention.name) :
    ∃ next, after.row? id = some next ∧ row.Without next submission.itemIds := by
  obtain ⟨next, items, nextFound, without, submitted⟩ := applyStories_keeps registered
    (fun bundle sent => keeps_without registered unnamed sent) sound
    ⟨row, [], found, .refl row, nofun⟩ done
  refine ⟨next, nextFound, without.kind_eq, without.deleted_eq, without.values, without.others, ?_⟩
  rw [without.items_eq]
  refine List.filter_congr ?_
  intro member listed
  refine decide_eq_decide.mpr (not_congr ⟨submitted member, ?_⟩)
  intro isSubmitted
  refine Classical.byContradiction ?_
  intro kept
  -- a submitted item that is still there is listed by another story than its own
  obtain ⟨bundle, sent, isItem⟩ := List.mem_flatMap.mp isSubmitted
  obtain ⟨item, itemListed, rfl⟩ := List.mem_map.mp isItem
  have owners := applyStories_owners registered once sent itemListed sound done
  have owns : id ∈ after.owners item.id itemRelation := by
    refine Store.mem_owners_iff.mpr ⟨next, nextFound, ?_⟩
    rw [without.items_eq]
    exact List.mem_filter.mpr ⟨listed, decide_eq_true kept⟩
  rw [owners] at owns
  refine unnamed (List.mem_map.mpr ⟨⟨.story, bundle.sent⟩,
    Submission.mem_mentions sent List.mem_cons_self, ?_⟩)
  exact Prod.ext story.symm (List.mem_singleton.mp owns).symm

/-- An accepted submission that names each record once is applied exactly. -/
theorem submit_exact (registered : env.registry = .standard)
    (reachable : Reachable .standard store)
    (once : (submission.mentions.map Mention.name).Nodup) {applied : List AppliedStory}
    (accepted : (env.submit submission store).1 = .ok applied) :
    submission.Applied store (env.submit submission store).2 := by
  obtain ⟨judged, accepts⟩ := submit_accepts registered reachable.sound.1 accepted
  have sameRow := accepts.sheds.records.row?_eq
  have sound := accepts.sheds.records.soundRows reachable.sound.1
  have done := accepts.applied
  have settled : ∀ mention ∈ submission.mentions,
      mention.Settled (env.submit submission store).2 :=
    fun mention listed => applyStories_settle registered once listed sound done
  refine ⟨?_, ?_, ?_, ?_, ?_, ?_, ?_⟩
  · intro mention listed
    obtain ⟨row, live, kind, counts⟩ := settled mention listed
    obtain ⟨found, notDeleted⟩ := Store.live?_eq_some_iff.mp live
    exact ⟨row, found, notDeleted, kind, counts⟩
  · intro bundle sent item isItem
    exact applyStories_owners registered once sent isItem sound done
  · intro id row found story unnamed
    rw [← sameRow] at found
    exact applyStories_without registered once sound done found story unnamed
  · intro id row found noStory unnamed
    rw [← sameRow] at found
    exact applyStories_keeps registered
      (fun bundle sent => keeps_row registered noStory unnamed sent) sound found done
  · intro id missing unnamed
    rw [← sameRow] at missing
    exact applyStories_keeps registered
      (fun bundle sent => keeps_absent registered unnamed sent) sound missing done
  · intro key snapshot kept added
    have known := applyStories_snapshot registered sound done kept
    rw [show judged.snapshots = store.snapshots by rw [accepts.sheds.records]] at known
    exact known.resolve_left added
  · intro conflict pending scope mention listed here
    have afterReachable : Reachable .standard (env.submit submission store).2 :=
      reachable.perform registered (.submit submission)
    obtain ⟨key, kept⟩ := (Dict.mem_values_iff _).mp pending
    obtain ⟨_, entityKey⟩ := afterReachable.sound.2.keyed key conflict kept
    obtain ⟨owner, ownerFound, ownerKind⟩ := afterReachable.sound.2.owned key conflict kept
    obtain ⟨row, live, kind, _⟩ := settled mention listed
    obtain ⟨found, _⟩ := Store.live?_eq_some_iff.mp live
    rw [← entityKey, here, found] at ownerFound
    cases ownerFound
    rw [applyStories_conflicts registered sound done] at kept
    have passes := accepts.passes mention
      (by rw [Submission.judged_eq_mentions once]; exact listed)
    refine passes.cleared conflict ?_ scope
    rw [Store.conflict?, ← kept]
    exact congrArg _ (Prod.ext (kind.symm.trans ownerKind) (here.symm.trans entityKey))

end Env

/-- A store with an item that is filed under a story. -/
def Store.withFiledItem : Store :=
  .following ⟨.standard, 3, 0⟩
    [.commit .newsItem ⟨⟨1⟩⟩ (some ⟨.ofList [("title", .text "item")], .empty⟩)
        ⟨"editor", .direct⟩,
      .commit .story ⟨⟨2⟩⟩ (some ⟨.ofList [("title", .text "first")],
        .ofList [("news_items", [⟨⟨1⟩⟩])]⟩) ⟨"editor", .direct⟩]

/-- A new story that is sent with the item. -/
def Submission.refiling : Submission :=
  ⟨"feed", "collector", [⟨⟨⟨3⟩⟩, none, ⟨.ofList [("title", .text "second")], .empty⟩,
    [⟨⟨⟨1⟩⟩, some 1, ⟨.ofList [("title", .text "item")], .empty⟩⟩], []⟩]⟩

/-- The item moves from the one story to the other. -/
theorem refiling_exact :
    Reachable .standard .withFiledItem ∧
    (Submission.refiling.mentions.map Mention.name).Nodup ∧
    ∃ applied, (Env.submit ⟨.standard, 3, 0⟩ .refiling .withFiledItem).1 = .ok applied ∧
      Submission.refiling.Applied .withFiledItem
        (Env.submit ⟨.standard, 3, 0⟩ .refiling .withFiledItem).2 := by
  have reachable : Reachable .standard .withFiledItem := reachable_following ⟨.standard, 3, 0⟩ _
  have once : (Submission.refiling.mentions.map Mention.name).Nodup := by decide
  have carried : (Env.submit ⟨.standard, 3, 0⟩ .refiling .withFiledItem).1.isOk = true := by
    decide +kernel
  obtain ⟨applied, accepted⟩ := exists_applied_of_isOk carried
  exact ⟨reachable, once, applied, accepted, Env.submit_exact rfl reachable once accepted⟩

end Chronicle
