import Chronicle.Proofs.Acceptance
import Chronicle.Proofs.Past

/-!
# Snapshots that a submission adds

A submission is applied by many commits, and more than one of them can be about the same story: one
for each item that is sent with another story, and its own if it is sent. An item that leaves a
story adds a version to it and takes a member from it, so the sum of both stays
(`Env.detach_spends`). From this the snapshots that a record gains are counted
(`Env.submit_gains`).
-/

namespace Chronicle

open Descriptor (standard)

/-! ## One commit -/

namespace Env

variable {env : Env} {attribution : Attribution} {store after : Store}

/-- A commit of a content either finds it stored already, or adds one version. -/
theorem apply_version (registered : env.registry = .standard) (recorded : store.Recorded)
    {kind : Kind} {id : EntityId} {content : Content} {outcome : Outcome}
    (applied : env.apply kind id (some content) attribution store = .ok (outcome, after)) :
    (∃ row, store.row? id = some row ∧ after.row? id = some row ∧
      (standard kind).normal row.content = (standard kind).normal content) ∨
    (∃ next, after.row? id = some next ∧ next.version = store.counter id + 1 ∧
      (standard kind).normal next.content = (standard kind).normal content ∧
      ∀ row, store.row? id = some row →
        (standard kind).normal row.content ≠ (standard kind).normal content) := by
  obtain ⟨admits, applies⟩ := apply_applies registered recorded.rows applied
  have immaterial_iff := admits.immaterial_iff recorded.rows
  cases applies with
  | unchanged immaterial =>
      obtain ⟨row, _, found, ⟨⟩, counts⟩ := immaterial_iff.mp immaterial
      exact Or.inl ⟨row, found, found, counts.symm⟩
  | written material next writes =>
      refine Or.inr ⟨_, writes.row?_self, recorded.next_version next,
        Descriptor.standard_normal_canonical kind content, ?_⟩
      intro row found same
      rw [immaterial_iff.mpr ((Store.reflects_some_iff found).mpr same.symm)] at material
      cases material

/-- An item that leaves a story adds a version and takes a member. -/
theorem detach_spends (registered : env.registry = .standard) (recorded : store.Recorded)
    {item owner : EntityId} {outcome : Outcome}
    (detached : env.detach item attribution owner store = .ok (outcome, after)) :
    ∃ row next, store.row? owner = some row ∧ after.row? owner = some next ∧
      next.kind = row.kind ∧
      next.version + (next.content.members itemRelation).length =
        row.version + (row.content.members itemRelation).length := by
  obtain ⟨row, next, found, kind, _, nextFound, without⟩ :=
    detach_without registered recorded.rows detached
  refine ⟨row, next, found, nextFound, without.kind_eq, ?_⟩
  obtain ⟨_, _, applied⟩ := detach_eq_ok detached
  rcases apply_version registered recorded applied with
    ⟨same, sameFound, unchanged, _⟩ | ⟨last, lastFound, version, counts, differs⟩
  · rw [found] at sameFound
    cases sameFound
    rw [nextFound] at unchanged
    cases unchanged
    rfl
  · rw [nextFound] at lastFound
    cases lastFound
    -- without the item among the members nothing would have been written
    have listed : item ∈ row.content.members itemRelation := by
      by_contra absent
      exact differs row found ((without.loses.normal_eq absent .story).symm.trans counts)
    have nodup := (recorded.rows owner row found).canonical.members_nodup itemRelation
    have lost : next.content.members itemRelation =
        (row.content.members itemRelation).erase item := by
      rw [without.loses.items, nodup.erase_eq_filter]
      exact List.filter_congr fun member _ => Bool.eq_iff_iff.mpr (by simp)
    have positive := List.length_pos_of_mem listed
    rw [version, Store.counter_of_row? found, lost, List.length_erase_of_mem listed]
    omega

end Env

/-! ## Records that are not named -/

/-- Only stories have items. -/
theorem Store.SoundRows.no_items {store : Store} (sound : store.SoundRows) {id : EntityId}
    {row : EntityRow} (found : store.row? id = some row) (noStory : row.kind ≠ .story) :
    row.content.members itemRelation = [] := by
  refine List.eq_nil_iff_forall_not_mem.mpr fun item listed => noStory ?_
  obtain ⟨other, otherFound, isStory, _⟩ :=
    sound.story_of_owner (Store.mem_owners_iff.mpr ⟨row, found, listed⟩)
  rw [found] at otherFound
  cases otherFound
  exact isStory

/-- A record without items can lose none. -/
theorem EntityRow.without_self {row : EntityRow} (none : row.content.members itemRelation = [])
    (items : List EntityId) : row.Without row items := by
  refine ⟨rfl, rfl, fun _ => rfl, fun _ _ => rfl, ?_⟩
  rw [none, List.filter_nil]

namespace Env

variable {env : Env} {attribution : Attribution} {store after : Store} {submission : Submission}
  {bundle : StoryBundle}

/-- Every commit keeps the sum of the version of a story that is not named and the number of its
items. -/
theorem keeps_sum (registered : env.registry = .standard) {id : EntityId} {sum : Nat}
    (unnamed : (Kind.story, id) ∉ submission.mentions.map Mention.name)
    (sent : bundle ∈ submission.stories) :
    Keeps env attribution bundle fun state => state.Recorded ∧ ∃ next, state.row? id = some next ∧
      next.kind = .story ∧ next.version + (next.content.members itemRelation).length = sum := by
  constructor
  · rintro mention mentioned before outcome after _ ⟨recorded, next, found, kind, same⟩ applied
    refine ⟨recorded.apply registered applied, next, ?_, kind, same⟩
    refine apply_row?_of_unnamed registered recorded.rows applied found ?_
    rw [kind]
    intro named
    exact unnamed (List.mem_map.mpr ⟨mention, Submission.mem_mentions sent mentioned, named⟩)
  · rintro item _ owner _ _ before outcome after _ _ _ ⟨recorded, next, found, kind, same⟩ detached
    obtain ⟨_, _, applied⟩ := detach_eq_ok detached
    refine ⟨recorded.apply registered applied, ?_⟩
    by_cases here : id = owner
    · subst here
      obtain ⟨old, last, oldFound, lastFound, lastKind, spent⟩ :=
        detach_spends registered recorded detached
      rw [found] at oldFound
      cases oldFound
      exact ⟨last, lastFound, lastKind.trans kind, spent.trans same⟩
    · refine ⟨next, ?_, kind, same⟩
      rw [detach_row?_of_ne registered recorded.rows detached here, found]

/-- A record that is not named gains a version for each submitted item that it listed. -/
theorem applyStories_losses (registered : env.registry = .standard)
    (once : (submission.mentions.map Mention.name).Nodup) (recorded : store.Recorded)
    {applied : List AppliedStory}
    (done : inTurn (env.applyStory attribution) submission.stories store = .ok (applied, after))
    {id : EntityId} {row : EntityRow} (found : store.row? id = some row)
    (unnamed : (row.kind, id) ∉ submission.mentions.map Mention.name) :
    ∃ next, after.row? id = some next ∧ row.Without next submission.itemIds ∧
      next.version = row.version + ((row.content.members itemRelation).filter fun item =>
        decide (item ∈ submission.itemIds)).length := by
  by_cases story : row.kind = .story
  · obtain ⟨next, nextFound, without⟩ :=
      applyStories_without registered once recorded.rows done found story unnamed
    rw [story] at unnamed
    obtain ⟨_, last, lastFound, _, sum⟩ := applyStories_keeps registered
      (fun bundle sent => keeps_sum registered unnamed sent) recorded.rows
      ⟨recorded, row, found, story, rfl⟩ done
    rw [nextFound] at lastFound
    cases lastFound
    refine ⟨next, nextFound, without, ?_⟩
    -- the sum has stayed, so there are as many new versions as members that are gone
    have parts := List.length_eq_length_filter_add (l := row.content.members itemRelation)
      fun item => decide (item ∈ submission.itemIds)
    have left : next.content.members itemRelation = (row.content.members itemRelation).filter
        fun item => !decide (item ∈ submission.itemIds) := by
      rw [without.items_eq]
      exact List.filter_congr fun item _ => decide_not
    rw [left] at sum
    omega
  · have none := recorded.rows.no_items found story
    have kept := applyStories_keeps registered
      (fun bundle sent => keeps_row registered story unnamed sent) recorded.rows found done
    refine ⟨row, kept, EntityRow.without_self none _, ?_⟩
    rw [none, List.filter_nil, List.length_nil, Nat.add_zero]

end Env

/-! ## The commit of a mention -/

/-- A content counts as what was sent with a mention. -/
def Content.covers (content : Content) (mention : Mention) : Bool :=
  decide ((standard mention.kind).normal content = (standard mention.kind).normal mention.sent.content)

/-- What is stored of the record of a mention counts as what was sent. -/
def Store.covers (store : Store) (mention : Mention) : Bool :=
  (store.stored? mention.sent.id).any fun content => content.covers mention

/-- The record of a mention is as it was in an earlier store, or has been brought to its next
version by its own commit. -/
def Mention.Advances (base : Store) (mention : Mention) (state : Store) : Prop :=
  state.row? mention.sent.id = base.row? mention.sent.id ∨
    mention.Settled state ∧ state.counter mention.sent.id = base.counter mention.sent.id + 1 ∧
      base.covers mention = false

theorem Store.covers_of_row? {store : Store} {mention : Mention} {row : EntityRow}
    (found : store.row? mention.sent.id = some row) :
    store.covers mention = row.content.covers mention := by
  rw [covers, stored?_of_row? found, Option.any_some]

theorem Store.covers_of_none {store : Store} {mention : Mention}
    (absent : store.row? mention.sent.id = none) : store.covers mention = false := by
  rw [covers, stored?, absent]
  rfl

theorem Store.covers_eq_true_iff {store : Store} {mention : Mention} :
    store.covers mention = true ↔ ∃ row, store.row? mention.sent.id = some row ∧
      (standard mention.kind).normal row.content =
        (standard mention.kind).normal mention.sent.content := by
  rw [covers, stored?, Option.any_map, Option.any_eq_true]
  simp only [Content.covers, decide_eq_true_eq]

namespace Mention.Advances

variable {base before next : Store} {mention : Mention}

theorem of_row?_eq (advances : mention.Advances base before)
    (same : next.row? mention.sent.id = before.row? mention.sent.id) :
    mention.Advances base next := by
  rcases advances with early | ⟨settled, version, new⟩
  · exact Or.inl (same.trans early)
  · refine Or.inr ⟨settled.of_row?_eq same, ?_, new⟩
    rw [Store.counter, same]
    exact version

/-- Once a mention is settled, its record has a new version if what was sent was not stored. -/
theorem counter_eq (advances : mention.Advances base next) (settled : mention.Settled next) :
    next.counter mention.sent.id =
      base.counter mention.sent.id + (!base.covers mention).toNat := by
  rcases advances with early | ⟨_, version, new⟩
  · have covered : base.covers mention = true := by
      obtain ⟨row, live, _, counts⟩ := settled
      obtain ⟨found, _⟩ := Store.live?_eq_some_iff.mp live
      exact Store.covers_eq_true_iff.mpr ⟨row, early ▸ found, counts⟩
    rw [covered, Store.counter, early]
    rfl
  · rw [version, new]
    rfl

end Mention.Advances

namespace Env

variable {env : Env} {attribution : Attribution} {store after : Store} {submission : Submission}
  {bundle : StoryBundle} {mention : Mention}

/-- The commit of a mention brings its record to the next version once at most. -/
theorem apply_advances (registered : env.registry = .standard) (recorded : store.Recorded)
    {base : Store} {outcome : Outcome} (advances : mention.Advances base store)
    (applied : env.apply mention.kind mention.sent.id (some mention.sent.content) attribution store =
      .ok (outcome, after)) : mention.Advances base after := by
  rcases apply_version registered recorded applied with
    ⟨row, found, unchanged, _⟩ | ⟨last, lastFound, version, _, differs⟩
  · exact advances.of_row?_eq (unchanged.trans found.symm)
  · rcases advances with early | ⟨⟨row, live, _, counts⟩, _, _⟩
    · refine Or.inr ⟨apply_settled registered recorded.rows mention applied, ?_, ?_⟩
      · rw [Store.counter_of_row? lastFound, version, Store.counter, early, Store.counter]
      · refine Bool.eq_false_iff.mpr fun covered => ?_
        obtain ⟨row, found, counts⟩ := Store.covers_eq_true_iff.mp covered
        exact differs row (early.trans found) counts
    · exact absurd counts (differs row (Store.live?_eq_some_iff.mp live).1)

/-- Every commit either leaves the record of a mention alone or is its own, as long as no item is
taken out of it. -/
theorem keeps_advances (registered : env.registry = .standard) {base : Store}
    (alone : ∀ other ∈ bundle.mentions, other.sent.id = mention.sent.id → other = mention)
    (kind : ∀ row, base.row? mention.sent.id = some row → row.kind = mention.kind)
    (spared : mention.kind = .story → mention.sent.id = bundle.id) :
    Keeps env attribution bundle fun state => state.Recorded ∧ mention.Advances base state := by
  constructor
  · rintro other listed before outcome next _ ⟨recorded, advances⟩ applied
    refine ⟨recorded.apply registered applied, ?_⟩
    by_cases same : other.sent.id = mention.sent.id
    · obtain rfl := alone other listed same
      exact apply_advances registered recorded advances applied
    · exact advances.of_row?_eq (apply_row?_of_ne registered recorded.rows applied (Ne.symm same))
  · rintro item _ owner other _ before outcome next _ _ _ ⟨recorded, advances⟩ detached
    obtain ⟨_, _, applied⟩ := detach_eq_ok detached
    refine ⟨recorded.apply registered applied,
      advances.of_row?_eq (detach_row?_of_ne registered recorded.rows detached ?_)⟩
    intro here
    obtain ⟨row, _, found, story, _⟩ := detach_without registered recorded.rows detached
    rw [← here] at found other
    refine other (spared ?_)
    rcases advances with early | ⟨settled, _, _⟩
    · rw [← kind row (early ▸ found), story]
    · rw [← settled.kind_eq found, story]

/-! ## Records that are named -/

theorem applyStories_recorded (registered : env.registry = .standard) {bundles : List StoryBundle}
    {applied : List AppliedStory} (recorded : store.Recorded)
    (done : inTurn (env.applyStory attribution) bundles store = .ok (applied, after)) :
    after.Recorded := by
  refine applyStories_keeps (motive := Store.Recorded) registered (fun bundle _ => ?_) recorded.rows
    recorded done
  exact .of_apply fun _ _ _ _ _ _ _ recorded applied => recorded.apply registered applied

theorem applyStories_kind (registered : env.registry = .standard) {bundles : List StoryBundle}
    {applied : List AppliedStory} (sound : store.SoundRows)
    (done : inTurn (env.applyStory attribution) bundles store = .ok (applied, after))
    {id : EntityId} {row : EntityRow} (found : store.row? id = some row) :
    ∃ next, after.row? id = some next ∧ next.kind = row.kind := by
  refine applyStories_keeps (motive := fun state => ∃ next, state.row? id = some next ∧
    next.kind = row.kind) registered (fun bundle _ => ?_) sound ⟨row, found, rfl⟩ done
  refine .of_apply ?_
  rintro _ _ _ before outcome next sound ⟨old, oldFound, kind⟩ applied
  obtain ⟨last, lastFound, same⟩ := apply_kind registered sound applied oldFound
  exact ⟨last, lastFound, same.trans kind⟩

section Named

variable (registered : env.registry = .standard)
  (once : (submission.mentions.map Mention.name).Nodup) (recorded : store.Recorded)
  {applied : List AppliedStory}
  (done : inTurn (env.applyStory attribution) submission.stories store = .ok (applied, after))

include registered once recorded done

/-- No identifier is named for two kinds. -/
theorem mention_eq_of_id {first second : Mention} (firstListed : first ∈ submission.mentions)
    (secondListed : second ∈ submission.mentions) (same : first.sent.id = second.sent.id) :
    first = second := by
  obtain ⟨row, live, kind, _⟩ :=
    applyStories_settle registered once firstListed recorded.rows done
  obtain ⟨other, otherLive, otherKind, _⟩ :=
    applyStories_settle registered once secondListed recorded.rows done
  rw [same, otherLive] at live
  cases live
  exact Submission.mention_eq_of_name once firstListed secondListed
    (Prod.ext (kind.symm.trans otherKind) same)

/-- A record has the kind it is named for. -/
theorem kind_of_mention (listed : mention ∈ submission.mentions) {row : EntityRow}
    (found : store.row? mention.sent.id = some row) : row.kind = mention.kind := by
  obtain ⟨next, nextFound, kind⟩ := applyStories_kind registered recorded.rows done found
  have settled := applyStories_settle registered once listed recorded.rows done
  exact kind.symm.trans (settled.kind_eq nextFound)

/-- An item or attribute that is named gains a version if what was sent is not what is stored. -/
theorem applyStories_member (listed : mention ∈ submission.mentions)
    (noStory : mention.kind ≠ .story) :
    after.counter mention.sent.id =
      store.counter mention.sent.id + (!store.covers mention).toNat := by
  have settled := applyStories_settle registered once listed recorded.rows done
  have keeps : ∀ bundle ∈ submission.stories, Keeps env attribution bundle fun state =>
      state.Recorded ∧ mention.Advances store state := by
    intro bundle sent
    refine keeps_advances registered ?_ ?_ fun story => absurd story noStory
    · intro other otherListed same
      exact mention_eq_of_id registered once recorded done
        (Submission.mem_mentions sent otherListed) listed same
    · intro row found
      exact kind_of_mention registered once recorded done listed found
  obtain ⟨_, advances⟩ :=
    applyStories_keeps registered keeps recorded.rows ⟨recorded, Or.inl rfl⟩ done
  exact advances.counter_eq settled

end Named

end Env

/-! ## Before a story is applied -/

/-- A content without some of its items. -/
def Content.without (content : Content) (items : List EntityId) : Content :=
  content.setMembers itemRelation
    ((content.members itemRelation).filter fun item => decide (item ∉ items))

/-- The items of a record that are among some others. -/
def Store.itemsAmong (store : Store) (id : EntityId) (items : List EntityId) : List EntityId :=
  (((store.stored? id).getD .empty).members itemRelation).filter fun item => decide (item ∈ items)

/-- What is stored of the record of a mention counts as what was sent, once some items are gone. -/
def Store.coversWithout (store : Store) (items : List EntityId) (mention : Mention) : Bool :=
  (store.stored? mention.sent.id).any fun content => (content.without items).covers mention

theorem Store.itemsAmong_of_none {store : Store} {id : EntityId} (absent : store.row? id = none)
    (items : List EntityId) : store.itemsAmong id items = [] := by
  rw [itemsAmong, stored?, absent]
  rfl

theorem Store.itemsAmong_of_row? {store : Store} {id : EntityId} {row : EntityRow}
    (found : store.row? id = some row) (items : List EntityId) :
    store.itemsAmong id items =
      (row.content.members itemRelation).filter fun item => decide (item ∈ items) := by
  rw [itemsAmong, stored?_of_row? found, Option.getD_some]

/-- What is not a story has no items to lose. -/
theorem Store.SoundRows.itemsAmong_eq_nil {store : Store} (sound : store.SoundRows) {id : EntityId}
    (noStory : ∀ row, store.row? id = some row → row.kind ≠ .story) (items : List EntityId) :
    store.itemsAmong id items = [] := by
  cases found : store.row? id with
  | none => exact itemsAmong_of_none found items
  | some row =>
      rw [itemsAmong_of_row? found, sound.no_items found (noStory row found), List.filter_nil]

/-- A settled story has none of the items that were not sent with it. -/
theorem Mention.Settled.itemsAmong_eq_nil {store : Store} {bundle : StoryBundle}
    (settled : Mention.Settled store ⟨.story, bundle.sent⟩) {items : List EntityId}
    (apart : ∀ item ∈ bundle.items, item.id ∉ items) : store.itemsAmong bundle.id items = [] := by
  obtain ⟨row, live, _⟩ := id settled
  have found : store.row? bundle.id = some row := (Store.live?_eq_some_iff.mp live).1
  rw [Store.itemsAmong_of_row? found]
  refine List.filter_eq_nil_iff.mpr fun item listed among => ?_
  rw [settled.mem_iff found, StoryBundle.mem_proposed_items] at listed
  obtain ⟨sent, isItem, rfl⟩ := listed
  exact apart sent isItem (of_decide_eq_true among)

theorem Store.coversWithout_of_none {store : Store} {mention : Mention}
    (absent : store.row? mention.sent.id = none) (items : List EntityId) :
    store.coversWithout items mention = false := by
  rw [coversWithout, stored?, absent]
  rfl

theorem Store.coversWithout_of_row? {store : Store} {mention : Mention} {row : EntityRow}
    (found : store.row? mention.sent.id = some row) (items : List EntityId) :
    store.coversWithout items mention = (row.content.without items).covers mention := by
  rw [coversWithout, stored?_of_row? found, Option.any_some]

theorem EntityRow.Without.covers_eq {row next : EntityRow} {items : List EntityId}
    (without : row.Without next items) (mention : Mention) :
    next.content.covers mention = (row.content.without items).covers mention := by
  have same : (standard mention.kind).normal next.content =
      (standard mention.kind).normal (row.content.without items) := by
    refine (Descriptor.standard_normal_eq_iff _ _ _).mpr ⟨fun name => ?_, fun relation member => ?_⟩
    · rw [without.values, Content.without, Content.value_setMembers]
    · by_cases isItems : relation = itemRelation
      · rw [isItems, without.items_eq, Content.without, Content.members_setMembers_self]
      · rw [without.others relation isItems, Content.without,
          Content.members_setMembers_of_ne _ isItems]
  rw [Content.covers, Content.covers, same]

namespace Env

variable {env : Env} {attribution : Attribution} {store after : Store} {submission : Submission}
  {bundle : StoryBundle}

/-- What becomes of a record whose identifier is not named: it gains a version for each item that it
loses, and is left without these. -/
theorem applyStories_unnamed (registered : env.registry = .standard)
    (once : (submission.mentions.map Mention.name).Nodup) (recorded : store.Recorded)
    {applied : List AppliedStory}
    (done : inTurn (env.applyStory attribution) submission.stories store = .ok (applied, after))
    {id : EntityId} (unnamed : ∀ mention ∈ submission.mentions, mention.sent.id ≠ id) :
    after.counter id = store.counter id + (store.itemsAmong id submission.itemIds).length ∧
      ∀ mention : Mention, mention.sent.id = id → after.covers mention =
        store.coversWithout submission.itemIds mention := by
  cases found : store.row? id with
  | none =>
      have absent := applyStories_keeps registered
        (fun bundle sent => keeps_absent registered unnamed sent) recorded.rows found done
      refine ⟨?_, ?_⟩
      · rw [Store.counter, absent, Store.counter, found, Store.itemsAmong_of_none found]
        rfl
      · rintro mention rfl
        rw [Store.covers_of_none absent, Store.coversWithout_of_none found]
  | some row =>
      have noName : (row.kind, id) ∉ submission.mentions.map Mention.name := by
        intro named
        obtain ⟨mention, listed, same⟩ := List.mem_map.mp named
        exact unnamed mention listed (congrArg Prod.snd same)
      obtain ⟨next, nextFound, without, version⟩ :=
        applyStories_losses registered once recorded done found noName
      refine ⟨?_, ?_⟩
      · rw [Store.counter_of_row? nextFound, Store.counter_of_row? found, version,
          Store.itemsAmong_of_row? found]
      · rintro mention rfl
        rw [Store.covers_of_row? nextFound, Store.coversWithout_of_row? found, without.covers_eq]

/-- Applying a story brings it to its next version if what was sent is not what it is by then. -/
theorem applyStory_own (registered : env.registry = .standard) (recorded : store.Recorded)
    {applied : AppliedStory}
    (done : env.applyStory attribution bundle store = .ok (applied, after))
    (alone : ∀ other ∈ bundle.mentions, other.sent.id = bundle.id → other = ⟨.story, bundle.sent⟩)
    (kind : ∀ row, store.row? bundle.id = some row → row.kind = .story) :
    after.Recorded ∧ Mention.Settled after ⟨.story, bundle.sent⟩ ∧
      after.counter bundle.id =
        store.counter bundle.id + (!store.covers ⟨.story, bundle.sent⟩).toNat := by
  have settled := applyStory_settled registered recorded.rows done
  have keeps : Keeps env attribution bundle fun state =>
      state.Recorded ∧ Mention.Advances store ⟨.story, bundle.sent⟩ state :=
    keeps_advances registered alone kind fun _ => rfl
  obtain ⟨_, last, advances⟩ :=
    keeps.applyStory registered recorded.rows ⟨recorded, Or.inl rfl⟩ done
  exact ⟨last, settled, advances.counter_eq settled⟩

section Named

variable (registered : env.registry = .standard)
  (once : (submission.mentions.map Mention.name).Nodup) (recorded : store.Recorded)
  {applied : List AppliedStory}
  (done : inTurn (env.applyStory attribution) submission.stories store = .ok (applied, after))

include registered once recorded done

/-- Stories of a submission that do not name another one do not name its identifier. -/
theorem only_unnamed (sent : bundle ∈ submission.stories) {stories : List StoryBundle}
    (part : ∀ other ∈ stories, other ∈ submission.stories)
    (apart : ∀ other ∈ (submission.only stories).mentions,
      other.name ≠ Mention.name ⟨.story, bundle.sent⟩) :
    ∀ other ∈ (submission.only stories).mentions, other.sent.id ≠ bundle.id := by
  intro other listed same
  obtain ⟨source, inPart, mentioned⟩ := List.mem_flatMap.mp listed
  refine apart other listed (congrArg Mention.name ?_)
  exact mention_eq_of_id registered once recorded done
    (Submission.mem_mentions (part source inPart) mentioned)
    (Submission.mem_mentions sent List.mem_cons_self) same

/-- A story gains a version for each item that it loses to the stories before it, and one more if
what was sent is not what is left of it then. The stories after it take none of its items. -/
theorem applyStories_story {earlier later : List StoryBundle}
    (split : submission.stories = earlier ++ bundle :: later) :
    after.counter bundle.id = store.counter bundle.id +
      (store.itemsAmong bundle.id (submission.only earlier).itemIds).length +
      (!store.coversWithout (submission.only earlier).itemIds ⟨.story, bundle.sent⟩).toNat := by
  have own : (⟨.story, bundle.sent⟩ : Mention) ∈ bundle.mentions := List.mem_cons_self
  have sent : bundle ∈ submission.stories :=
    split ▸ List.mem_append_right _ List.mem_cons_self
  have listed := Submission.mem_mentions sent own
  obtain ⟨earlierOnce, laterOnce, apartEarlier, apartLater⟩ := Submission.once_split once split
  have unnamedEarlier := only_unnamed registered once recorded done sent
    (fun _ inEarlier => split ▸ List.mem_append_left _ inEarlier) (apartEarlier _ own)
  have unnamedLater := only_unnamed registered once recorded done sent
    (fun _ inLater => split ▸ List.mem_append_right _ (List.mem_cons_of_mem _ inLater))
    (apartLater _ own)
  have alone (other : Mention) (mentioned : other ∈ bundle.mentions)
      (same : other.sent.id = bundle.id) : other = ⟨.story, bundle.sent⟩ :=
    mention_eq_of_id registered once recorded done (Submission.mem_mentions sent mentioned) listed
      same
  have storySettled := applyStories_settle registered once listed recorded.rows done
  rw [split] at done
  obtain ⟨between, _, _, earlierDone, rest, _⟩ := inTurn_append_eq_ok.mp done
  obtain ⟨_, next, _, ownDone, laterDone, _⟩ := inTurn_cons_eq_ok.mp rest
  have betweenRecorded := applyStories_recorded registered recorded earlierDone
  have kind (row : EntityRow) (found : between.row? bundle.id = some row) : row.kind = .story := by
    obtain ⟨last, lastFound, same⟩ :=
      applyStories_kind registered betweenRecorded.rows rest found
    exact same.symm.trans (storySettled.kind_eq lastFound)
  obtain ⟨lost, left⟩ :=
    applyStories_unnamed registered earlierOnce recorded earlierDone unnamedEarlier
  obtain ⟨nextRecorded, settled, gained⟩ :=
    applyStory_own registered betweenRecorded ownDone alone kind
  obtain ⟨kept, _⟩ :=
    applyStories_unnamed registered laterOnce nextRecorded laterDone unnamedLater
  -- by now all its items are those that were sent with it, and these are named only once
  have noMore : next.itemsAmong bundle.id (submission.only later).itemIds = [] := by
    refine settled.itemsAmong_eq_nil fun item isItem among => ?_
    obtain ⟨other, otherSent, inOther⟩ := List.mem_flatMap.mp among
    obtain ⟨otherItem, isOther, same⟩ := List.mem_map.mp inOther
    exact apartLater _ (StoryBundle.item_mem_mentions isItem) _
      (List.mem_flatMap.mpr ⟨other, otherSent, StoryBundle.item_mem_mentions isOther⟩)
      (Prod.ext rfl same)
  rw [kept, noMore, gained, lost, left _ rfl, List.length_nil, Nat.add_zero]

end Named

end Env

/-! ## Submissions -/

/-- What is submitted before a story: all of it if the story is not. -/
def Submission.upTo (submission : Submission) (story : EntityId) : Submission :=
  submission.only (submission.before (.story, story))

namespace Store

/-- The items that a record loses to the stories that are submitted before it. -/
def losses (store : Store) (submission : Submission) (id : EntityId) : List EntityId :=
  store.itemsAmong id (submission.upTo id).itemIds

/-- Whether what is submitted for a record is not what is left of it by then. -/
def updates (store : Store) (submission : Submission) (id : EntityId) : Bool :=
  submission.mentions.any fun mention => decide (mention.sent.id = id) &&
    !store.coversWithout (submission.upTo id).itemIds mention

theorem updates_of_unnamed {store : Store} {submission : Submission} {id : EntityId}
    (unnamed : ∀ mention ∈ submission.mentions, mention.sent.id ≠ id) :
    store.updates submission id = false := by
  refine List.any_eq_false.mpr fun mention listed updated => ?_
  exact unnamed mention listed (of_decide_eq_true (Bool.and_eq_true_iff.mp updated).1)

theorem updates_of_mention {store : Store} {submission : Submission} {mention : Mention}
    (listed : mention ∈ submission.mentions)
    (alone : ∀ other ∈ submission.mentions, other.sent.id = mention.sent.id → other = mention) :
    store.updates submission mention.sent.id =
      !store.coversWithout (submission.upTo mention.sent.id).itemIds mention := by
  refine Bool.eq_iff_iff.mpr (List.any_eq_true.trans ?_)
  constructor
  · rintro ⟨other, otherListed, updated⟩
    obtain ⟨same, new⟩ := Bool.and_eq_true_iff.mp updated
    obtain rfl := alone other otherListed (of_decide_eq_true same)
    exact new
  · intro new
    exact ⟨mention, listed, Bool.and_eq_true_iff.mpr ⟨decide_eq_true rfl, new⟩⟩

end Store

namespace Submission

variable {submission : Submission}

theorem upTo_of_unnamed {id : EntityId}
    (unnamed : ∀ mention ∈ submission.mentions, mention.sent.id ≠ id) :
    submission.upTo id = submission := by
  have all : submission.before (.story, id) = submission.stories := by
    refine List.takeWhile_eq_self_iff.mpr fun bundle sent => decide_eq_true fun named => ?_
    obtain ⟨mention, mentioned, same⟩ := List.mem_map.mp named
    exact unnamed mention (mem_mentions sent mentioned) (congrArg Prod.snd same)
  rw [upTo, all]
  rfl

theorem upTo_of_split (once : (submission.mentions.map Mention.name).Nodup)
    {earlier later : List StoryBundle} {bundle : StoryBundle}
    (split : submission.stories = earlier ++ bundle :: later) :
    submission.upTo bundle.id = submission.only earlier := by
  have own : (⟨.story, bundle.sent⟩ : Mention) ∈ bundle.mentions := List.mem_cons_self
  exact congrArg submission.only (before_of_split once split own)

end Submission

namespace Env

variable {env : Env} {attribution : Attribution} {store after : Store} {submission : Submission}

/-- The versions that a record gains when a submission that names each record once is applied. -/
theorem applyStories_gains (registered : env.registry = .standard)
    (once : (submission.mentions.map Mention.name).Nodup) (recorded : store.Recorded)
    {applied : List AppliedStory}
    (done : inTurn (env.applyStory attribution) submission.stories store = .ok (applied, after))
    (id : EntityId) :
    after.counter id = store.counter id + (store.losses submission id).length +
      (store.updates submission id).toNat := by
  by_cases named : ∃ mention ∈ submission.mentions, mention.sent.id = id
  · obtain ⟨mention, listed, rfl⟩ := named
    rw [Store.updates_of_mention listed fun other otherListed same =>
      mention_eq_of_id registered once recorded done otherListed listed same]
    by_cases story : mention.kind = .story
    · obtain ⟨bundle, sent, mentioned⟩ := List.mem_flatMap.mp listed
      obtain rfl := StoryBundle.eq_of_kind_story mentioned story
      obtain ⟨earlier, later, split⟩ := List.append_of_mem sent
      change after.counter bundle.id = store.counter bundle.id +
        (store.itemsAmong bundle.id (submission.upTo bundle.id).itemIds).length +
        (!store.coversWithout (submission.upTo bundle.id).itemIds ⟨.story, bundle.sent⟩).toNat
      rw [Submission.upTo_of_split once split]
      exact applyStories_story registered once recorded done split
    · have noStory (row : EntityRow) (found : store.row? mention.sent.id = some row) :
          row.kind ≠ .story := by
        rwa [kind_of_mention registered once recorded done listed found]
      have same : store.coversWithout (submission.upTo mention.sent.id).itemIds mention =
          store.covers mention := by
        cases found : store.row? mention.sent.id with
        | none => rw [Store.covers_of_none found, Store.coversWithout_of_none found]
        | some row =>
            have unchanged := EntityRow.without_self
              (recorded.rows.no_items found (noStory row found))
              (submission.upTo mention.sent.id).itemIds
            rw [Store.covers_of_row? found, Store.coversWithout_of_row? found, unchanged.covers_eq]
      rw [Store.losses, recorded.rows.itemsAmong_eq_nil noStory, same, List.length_nil, Nat.add_zero]
      exact applyStories_member registered once recorded done listed story
  · have unnamed (mention : Mention) (listed : mention ∈ submission.mentions) :
        mention.sent.id ≠ id := fun same => named ⟨mention, listed, same⟩
    rw [Store.updates_of_unnamed unnamed, Store.losses, Submission.upTo_of_unnamed unnamed]
    exact (applyStories_unnamed registered once recorded done unnamed).1

end Env

/-- A record has as many snapshots as versions. -/
theorem Store.Recorded.length_snapshotsOf {store : Store} (recorded : store.Recorded) {kind : Kind}
    {id : EntityId} (isKind : ∀ row, store.row? id = some row → row.kind = kind) :
    (store.snapshotsOf (standard kind) id).length = store.counter id := by
  cases found : store.row? id with
  | none =>
      rw [recorded.snapshotsOf_eq, counter, found]
      rfl
  | some row =>
      obtain rfl := isKind row found
      have versions := congrArg List.length (recorded.map_version_eq found)
      rwa [List.length_map, List.length_range', ← counter_of_row? found] at versions

/-- What an accepted submission that names each record once adds to the snapshots of a record: one
for each item that it loses to the stories before it, and one more if what was sent for it is not
what is left of it by then. -/
theorem Env.submit_gains {env : Env} {submission : Submission} {store : Store}
    (registered : env.registry = .standard) (reachable : Reachable .standard store)
    (once : (submission.mentions.map Mention.name).Nodup) {applied : List AppliedStory}
    (accepted : (env.submit submission store).1 = .ok applied) {id : EntityId} {row : EntityRow}
    (found : (env.submit submission store).2.row? id = some row) :
    ((env.submit submission store).2.snapshotsOf (standard row.kind) id).length =
      (store.snapshotsOf (standard row.kind) id).length + (store.losses submission id).length +
        (store.updates submission id).toNat := by
  have recorded := reachable.recorded
  obtain ⟨judged, accepts⟩ := submit_accepts registered reachable.sound.1 accepted
  have kept := accepts.sheds.records
  have judgedRecorded := recorded.of_keepsRecords kept
  have gains := applyStories_gains registered once judgedRecorded accepts.applied id
  have isKind (first : EntityRow) (firstFound : store.row? id = some first) :
      first.kind = row.kind := by
    obtain ⟨last, lastFound, same⟩ := applyStories_kind registered judgedRecorded.rows
      accepts.applied ((kept.row?_eq id).trans firstFound)
    rw [found] at lastFound
    cases lastFound
    exact same.symm
  have isLast (last : EntityRow)
      (lastFound : (env.submit submission store).2.row? id = some last) : last.kind = row.kind := by
    rw [found] at lastFound
    cases lastFound
    rfl
  rw [(applyStories_recorded registered judgedRecorded accepts.applied).length_snapshotsOf isLast,
    recorded.length_snapshotsOf isKind]
  rw [kept] at gains
  exact gains

/-- A store with two items that are filed under a story. -/
def Store.withFiledItems : Store :=
  .following ⟨.standard, 3, 0⟩
    [.commit .newsItem ⟨⟨1⟩⟩ (some ⟨.ofList [("title", .text "wind")], .empty⟩) ⟨"editor", .direct⟩,
      .commit .newsItem ⟨⟨2⟩⟩ (some ⟨.ofList [("title", .text "hail")], .empty⟩)
        ⟨"editor", .direct⟩,
      .commit .story ⟨⟨3⟩⟩ (some ⟨.ofList [("title", .text "rain")],
        .ofList [("news_items", [⟨⟨1⟩⟩, ⟨⟨2⟩⟩])]⟩) ⟨"editor", .direct⟩]

/-- A new story that is sent with both items. -/
def Submission.gathering : Submission :=
  ⟨"feed", "collector", [⟨⟨⟨4⟩⟩, none, ⟨.ofList [("title", .text "storm")], .empty⟩,
    [⟨⟨⟨1⟩⟩, some 1, ⟨.ofList [("title", .text "wind")], .empty⟩⟩,
      ⟨⟨⟨2⟩⟩, some 1, ⟨.ofList [("title", .text "hail")], .empty⟩⟩], []⟩]⟩

/-- The same with another title for the story that they are filed under. -/
def Submission.gatheringAll : Submission :=
  { Submission.gathering with
    stories := Submission.gathering.stories ++
      [⟨⟨⟨3⟩⟩, some 1, ⟨.ofList [("title", .text "drizzle")], .empty⟩, [], []⟩] }

/-- That story gains three snapshots: it loses both items, and is given its new title. -/
theorem submit_gains_gatheringAll :
    Reachable .standard .withFiledItems ∧
    (Submission.gatheringAll.mentions.map Mention.name).Nodup ∧
    ∃ applied row, (Env.submit ⟨.standard, 3, 0⟩ .gatheringAll .withFiledItems).1 = .ok applied ∧
      (Env.submit ⟨.standard, 3, 0⟩ .gatheringAll .withFiledItems).2.row? ⟨⟨3⟩⟩ = some row ∧
      Store.withFiledItems.losses .gatheringAll ⟨⟨3⟩⟩ = [⟨⟨1⟩⟩, ⟨⟨2⟩⟩] ∧
      Store.withFiledItems.updates .gatheringAll ⟨⟨3⟩⟩ = true ∧
      ((Env.submit ⟨.standard, 3, 0⟩ .gatheringAll .withFiledItems).2.snapshotsOf
          (standard row.kind) ⟨⟨3⟩⟩).length =
        (Store.withFiledItems.snapshotsOf (standard row.kind) ⟨⟨3⟩⟩).length + 2 + 1 := by
  have reachable : Reachable .standard .withFiledItems := reachable_following ⟨.standard, 3, 0⟩ _
  have once : (Submission.gatheringAll.mentions.map Mention.name).Nodup := by decide
  have carried : (Env.submit ⟨.standard, 3, 0⟩ .gatheringAll .withFiledItems).1.isOk = true := by
    decide +kernel
  obtain ⟨applied, accepted⟩ := exists_applied_of_isOk carried
  have stored : ((Env.submit ⟨.standard, 3, 0⟩ .gatheringAll .withFiledItems).2.row?
      ⟨⟨3⟩⟩).isSome = true := by decide +kernel
  obtain ⟨row, found⟩ := Option.isSome_iff_exists.mp stored
  have lost : Store.withFiledItems.losses .gatheringAll ⟨⟨3⟩⟩ = [⟨⟨1⟩⟩, ⟨⟨2⟩⟩] := by decide +kernel
  have updated : Store.withFiledItems.updates .gatheringAll ⟨⟨3⟩⟩ = true := by decide +kernel
  have gains := Env.submit_gains rfl reachable once accepted found
  rw [lost, updated] at gains
  exact ⟨reachable, once, applied, row, accepted, found, lost, updated, gains⟩

/-- A story that only loses items gains a snapshot for each, so it is not true that a submission
adds one at most to those of a record. -/
theorem not_submit_gains_once :
    ¬ ∀ (env : Env) (store : Store) (submission : Submission) (applied : List AppliedStory)
      (kind : Kind) (id : EntityId), env.registry = .standard → Reachable .standard store →
      (submission.mentions.map Mention.name).Nodup →
      (env.submit submission store).1 = .ok applied →
      ((env.submit submission store).2.snapshotsOf (standard kind) id).length ≤
        (store.snapshotsOf (standard kind) id).length + 1 := by
  intro atMost
  have carried : (Env.submit ⟨.standard, 3, 0⟩ .gathering .withFiledItems).1.isOk = true := by
    decide +kernel
  obtain ⟨applied, accepted⟩ := exists_applied_of_isOk carried
  have bound := atMost _ _ _ applied .story ⟨⟨3⟩⟩ rfl (reachable_following ⟨.standard, 3, 0⟩ _)
    (by decide) accepted
  have before : (Store.withFiledItems.snapshotsOf (standard .story) ⟨⟨3⟩⟩).length = 1 := by
    decide +kernel
  have after : ((Env.submit ⟨.standard, 3, 0⟩ .gathering .withFiledItems).2.snapshotsOf
      (standard .story) ⟨⟨3⟩⟩).length = 3 := by decide +kernel
  change ((Env.submit ⟨.standard, 3, 0⟩ .gathering .withFiledItems).2.snapshotsOf
    (standard .story) ⟨⟨3⟩⟩).length ≤ (Store.withFiledItems.snapshotsOf _ ⟨⟨3⟩⟩).length + 1 at bound
  omega

end Chronicle
