import Chronicle.Proofs.Anonymous
import Chronicle.Proofs.Resubmission

/-!
# Storing new records

A submission whose records are all new is stored as it was sent: no two of its records are the same,
so what one commit has written no other one touches (`Env.applyStories_stored`). Each record then
links the attributes that were sent for it, under their keys (`StoryBundle.Parts.linked_of_stored`).
-/

namespace Chronicle

open Descriptor (standard)

/-! ## Different identifiers -/

/-- No identifier is mentioned twice, whatever the kind. -/
def Submission.Distinct (submission : Submission) : Prop :=
  (submission.mentions.map fun mention => mention.sent.id).Nodup

namespace Submission

variable {submission : Submission} (distinct : submission.Distinct)

include distinct

theorem mention_eq_of_id {first second : Mention} (firstListed : first ∈ submission.mentions)
    (secondListed : second ∈ submission.mentions) (same : first.sent.id = second.sent.id) :
    first = second :=
  List.inj_on_of_nodup_map distinct firstListed secondListed same

theorem Distinct.once : (submission.mentions.map Mention.name).Nodup := by
  refine .of_map Prod.snd ?_
  rw [List.map_map]
  exact distinct

theorem Distinct.story {bundle : StoryBundle} (sent : bundle ∈ submission.stories) :
    (bundle.mentions.map fun mention => mention.sent.id).Nodup := by
  rw [Distinct, mentions, List.map_flatMap, List.nodup_flatMap] at distinct
  exact distinct.1 bundle sent

theorem Distinct.items {bundle : StoryBundle} (sent : bundle ∈ submission.stories) :
    (bundle.items.map Bundle.id).Nodup := by
  have apart := distinct.story sent
  rw [StoryBundle.mentions, List.map_cons, List.map_append, List.map_map] at apart
  exact (List.nodup_append.mp apart.of_cons).1

end Submission

/-! ## Stored mentions -/

/-- The record of a mention is live, has the kind that was named, and its content is what was
sent. -/
def Mention.Stored (store : Store) (mention : Mention) : Prop :=
  ∃ row, store.live? mention.sent.id = some row ∧ row.kind = mention.kind ∧
    row.content = mention.sent.content.canonical

theorem Mention.Stored.settled {store : Store} {mention : Mention} (stored : mention.Stored store) :
    mention.Settled store := by
  obtain ⟨row, live, kind, content⟩ := stored
  refine ⟨row, live, kind, ?_⟩
  rw [content, Descriptor.standard_normal_canonical]

namespace Env

variable {env : Env} {attribution : Attribution} {store after : Store} {submission : Submission}

/-- What is committed is stored, if it is new or has been stored before. -/
theorem apply_stored (registered : env.registry = .standard) (sound : store.SoundRows)
    {mention : Mention} (fits : store.row? mention.sent.id = none ∨ mention.Stored store)
    {outcome : Outcome} (applied : env.apply mention.kind mention.sent.id
      (some mention.sent.content) attribution store = .ok (outcome, after)) :
    mention.Stored after := by
  obtain ⟨next, found, kind, live, holds⟩ := apply_row registered sound applied
  refine ⟨next, Store.live?_eq_some_iff.mpr ⟨found, live⟩, kind, ?_⟩
  rcases holds with written | ⟨unchanged, _⟩
  · exact written
  · rcases fits with absent | ⟨row, rowLive, _, content⟩
    · cases absent.symm.trans unchanged
    · obtain ⟨rowFound, _⟩ := Store.live?_eq_some_iff.mp rowLive
      cases rowFound.symm.trans unchanged
      exact content

/-- Every commit of the submission leaves a record absent, or as it was stored. -/
theorem keeps_stored (registered : env.registry = .standard) (distinct : submission.Distinct)
    {mention : Mention} (listed : mention ∈ submission.mentions) {bundle : StoryBundle}
    (sent : bundle ∈ submission.stories) :
    Keeps env attribution bundle fun state =>
      state.row? mention.sent.id = none ∨ mention.Stored state := by
  have untouched {before next : Store} (same : next.row? mention.sent.id = before.row? mention.sent.id)
      (fits : before.row? mention.sent.id = none ∨ mention.Stored before) :
      next.row? mention.sent.id = none ∨ mention.Stored next := by
    unfold Mention.Stored Store.live?
    rw [same]
    exact fits
  constructor
  · intro other otherListed before outcome next sound fits applied
    by_cases same : mention.sent.id = other.sent.id
    · obtain rfl := Submission.mention_eq_of_id distinct listed
        (Submission.mem_mentions sent otherListed) same
      exact Or.inr (apply_stored registered sound fits applied)
    · exact untouched (apply_row?_of_ne registered sound applied same) fits
  · intro item isItem owner other earlier before outcome next fitsEarlier owns sound fits detached
    refine untouched (detach_row?_of_ne registered sound detached ?_) fits
    rintro rfl
    -- the mention is a story that lists the item, so it is the one that is being applied
    obtain ⟨row, _, found, story, _⟩ := detach_without registered sound detached
    obtain ⟨earlierRow, earlierFound, lists⟩ := Store.mem_owners_iff.mp owns
    rcases fits with absent | stored
    · cases absent.symm.trans found
    · rcases fitsEarlier with absent | storedEarlier
      · cases absent.symm.trans earlierFound
      · exact other (storedEarlier.settled.story_of_lists distinct.once listed
          ((stored.settled.kind_eq found).symm.trans story) earlierFound sent isItem lists)

/-- A submission of new records that has been applied is stored as it was sent. -/
theorem applyStories_stored (registered : env.registry = .standard) (distinct : submission.Distinct)
    {mention : Mention} (listed : mention ∈ submission.mentions)
    (unused : store.row? mention.sent.id = none) {applied : List AppliedStory}
    (sound : store.SoundRows)
    (done : inTurn (env.applyStory attribution) submission.stories store = .ok (applied, after)) :
    mention.Stored after := by
  have keeps : ∀ bundle ∈ submission.stories, Keeps env attribution bundle fun state =>
      state.row? mention.sent.id = none ∨ mention.Stored state :=
    fun bundle sent => keeps_stored registered distinct listed sent
  obtain ⟨row, live, _⟩ := applyStories_settle registered distinct.once listed sound done
  obtain ⟨found, _⟩ := Store.live?_eq_some_iff.mp live
  rcases applyStories_keeps registered keeps sound (Or.inl unused) done with absent | stored
  · cases absent.symm.trans found
  · exact stored

/-- An accepted submission of new records has been stored as it was sent. -/
theorem submit_stored (registered : env.registry = .standard) (sound : store.SoundRows)
    (distinct : submission.Distinct)
    (unused : ∀ mention ∈ submission.mentions, store.row? mention.sent.id = none)
    {applied : List AppliedStory} (accepted : env.submit submission store = (.ok applied, after)) :
    after.SoundRows ∧ ∀ mention ∈ submission.mentions, mention.Stored after := by
  obtain ⟨judged, accepts⟩ := submit_accepts registered sound (congrArg Prod.fst accepted)
  have kept := accepts.sheds.records
  have judgedSound := kept.soundRows sound
  have done := accepts.applied
  rw [accepted] at done
  refine ⟨applyStories_soundRows registered judgedSound done, fun mention listed => ?_⟩
  exact applyStories_stored registered distinct listed
    ((kept.row?_eq _).trans (unused mention listed)) judgedSound done

end Env

/-! ## Keys of stored attributes -/

/-- A required text is there in an accepted content. -/
theorem Descriptor.isSome_text?_of_required {descriptor : Descriptor} {content : Content}
    (accepted : descriptor.check content = .ok ()) (spec : FieldSpec)
    (declared : descriptor.field? spec.name = some spec) (required : spec.required = true)
    (isText : spec.type = .text) : (content.value spec.name).text?.isSome := by
  have notNull := missingFault?_eq_none_iff.mp
    ((check_eq_ok_iff.mp accepted).2.1 spec (List.mem_of_find?_eq_some declared)) required
  cases found : content.fields.get? spec.name with
  | none =>
      rw [Content.value, found] at notNull
      cases notNull
  | some value =>
      obtain ⟨own, known, typed⟩ := field?_of_check accepted found
      cases declared.symm.trans known
      rw [Content.value, found, Option.getD_some] at notNull ⊢
      rw [isText] at typed
      cases value with
      | text value => rfl
      | null => cases notNull
      | integer | float | boolean | timestamp | reference => simp [FieldValue.type?] at typed

namespace Env

variable {env : Env} {store : Store}

/-- A stored attribute has the key that was sent. -/
theorem keyedAttribute?_of_stored (registered : env.registry = .standard) (sound : store.SoundRows)
    {bundle : Bundle} (stored : Mention.Stored store ⟨.attr, bundle⟩) :
    bundle.key?.isSome ∧
      env.keyedAttribute? store bundle.id = .ok (bundle.key?.map fun key => (key, bundle.id)) := by
  obtain ⟨row, live, kind, content⟩ := stored
  obtain ⟨found, _⟩ := Store.live?_eq_some_iff.mp live
  have value : row.content.value "key" = bundle.content.value "key" := by
    rw [content]
    exact Content.value_canonical bundle.content "key"
  constructor
  · have accepted := (sound _ row found).accepted
    rw [kind] at accepted
    rw [Bundle.key?, ← value]
    exact Descriptor.isSome_text?_of_required accepted ⟨"key", .text, true⟩ rfl rfl rfl
  · unfold keyedAttribute?
    rw [record?_of_sound registered sound, live]
    change Except.ok ((row.content.value "key").text?.map _) = _
    rw [value]
    rfl

/-- The owner of stored attributes links them with their keys. -/
theorem links_of_stored (registered : env.registry = .standard) (sound : store.SoundRows)
    {owner : EntityId} {row : EntityRow} (live : store.live? owner = some row)
    {attributes : List Bundle}
    (members : row.content.members attributeRelation = attributes.map Bundle.id)
    (stored : ∀ bundle ∈ attributes, Mention.Stored store ⟨.attr, bundle⟩) :
    env.Links store owner attributes := by
  have keyed : ∀ bundle ∈ attributes, bundle.key?.isSome ∧
      env.keyedAttribute? store bundle.id = .ok (bundle.key?.map fun key => (key, bundle.id)) :=
    fun bundle listed => keyedAttribute?_of_stored registered sound (stored bundle listed)
  refine ⟨fun bundle listed => (keyed bundle listed).1, ?_⟩
  have read : (attributes.map Bundle.id).mapM (env.keyedAttribute? store) =
      .ok (attributes.map fun bundle => bundle.key?.map fun key => (key, bundle.id)) := by
    rw [mapM_eq_ok_iff, List.forall₂_map_left_iff, List.forall₂_map_right_iff, List.forall₂_same]
    exact fun bundle listed => (keyed bundle listed).2
  unfold keyedAttributes
  rw [record?_of_sound registered sound, live]
  change ((row.content.members attributeRelation).mapM (env.keyedAttribute? store) >>= _) = _
  rw [members, read]
  change Except.ok ((attributes.map _).filterMap _) = _
  rw [List.filterMap_map]
  rfl

end Env

namespace StoryBundle.Parts

variable {env : Env} {store : Store} {bundle : StoryBundle} (parts : bundle.Parts)

theorem own_subset : parts.own ⊆ bundle.attributes := by
  rw [← parts.attributes_eq]
  exact List.subset_append_left _ _

theorem item_mem {item : Bundle × List Bundle} (listed : item ∈ parts.items) :
    item.1 ∈ bundle.items := by
  rw [← parts.items_eq]
  exact List.mem_map_of_mem listed

theorem item_subset {item : Bundle × List Bundle} (listed : item ∈ parts.items) :
    item.2 ⊆ bundle.attributes := by
  rw [← parts.attributes_eq]
  exact fun _ isAttribute =>
    List.mem_append_right _ (List.mem_flatMap.mpr ⟨item, listed, isAttribute⟩)

/-- A story is committed with its own attributes. -/
theorem members_sent :
    bundle.sent.content.members attributeRelation = parts.own.map Bundle.id :=
  (bundle.content.members_setMembers_of_ne (by decide : attributeRelation ≠ itemRelation) _).trans
    parts.linked

include parts in
/-- What a part of a story links has been sent with it. -/
theorem exists_mention {mention : Mention} (mentioned : mention ∈ bundle.mentions)
    {relation : RelationSpec} (declared : relation ∈ (standard mention.kind).relations)
    {member : EntityId} (isMember : member ∈ mention.sent.content.members relation.name) :
    ∃ other ∈ bundle.mentions, other.name = (relation.target, member) := by
  have sent {attributes : List Bundle} (listed : attributes ⊆ bundle.attributes)
      (isMember : member ∈ attributes.map Bundle.id) :
      ∃ other ∈ bundle.mentions, other.name = (Kind.attr, member) := by
    obtain ⟨other, isAttribute, rfl⟩ := List.mem_map.mp isMember
    exact ⟨_, StoryBundle.attr_mem_mentions (listed isAttribute), rfl⟩
  rcases List.mem_cons.mp mentioned with rfl | others
  · rcases List.mem_cons.mp declared with rfl | declared
    · obtain ⟨item, listed, rfl⟩ := StoryBundle.mem_proposed_items.mp isMember
      exact ⟨_, StoryBundle.item_mem_mentions listed, rfl⟩
    · obtain rfl := List.mem_singleton.mp declared
      refine sent parts.own_subset ?_
      rw [← parts.members_sent]
      exact isMember
  · rcases List.mem_append.mp others with isItem | isAttribute
    · obtain ⟨item, listed, rfl⟩ := List.mem_map.mp isItem
      obtain rfl := List.mem_singleton.mp declared
      rw [← parts.items_eq] at listed
      obtain ⟨part, isPart, rfl⟩ := List.mem_map.mp listed
      refine sent (parts.item_subset isPart) ?_
      rw [← parts.itemsLinked part isPart]
      exact isMember
    · obtain ⟨_, _, rfl⟩ := List.mem_map.mp isAttribute
      cases declared

/-- A story whose parts are all stored links its attributes, and so do its items. -/
theorem linked_of_stored (registered : env.registry = .standard) (sound : store.SoundRows)
    (apart : (bundle.mentions.map fun mention => mention.sent.id).Nodup)
    (stored : ∀ mention ∈ bundle.mentions, mention.Stored store) : parts.Linked env store := by
  have ids := parts.ids_perm.nodup_iff.mpr apart
  rw [StoryBundle.Parts.ids, List.nodup_cons, List.nodup_append, List.nodup_flatMap] at ids
  obtain ⟨_, ownIds, ⟨itemIds, _⟩, _⟩ := ids
  constructor
  · obtain ⟨row, live, _, content⟩ := stored _ List.mem_cons_self
    refine Env.links_of_stored registered sound live ?_ fun one listed =>
      stored _ (StoryBundle.attr_mem_mentions (parts.own_subset listed))
    rw [content, Content.members_canonical, parts.members_sent, distinct_eq_self ownIds]
  · intro item listed
    obtain ⟨row, live, _, content⟩ :=
      stored _ (StoryBundle.item_mem_mentions (parts.item_mem listed))
    refine Env.links_of_stored registered sound live ?_ fun one isAttribute =>
      stored _ (StoryBundle.attr_mem_mentions (parts.item_subset listed isAttribute))
    rw [content, Content.members_canonical, parts.itemsLinked item listed,
      distinct_eq_self (itemIds item listed).of_cons]

end StoryBundle.Parts

/-- If each record links only what is sent with it, no identifier is used for two kinds. -/
theorem Submission.Distinct.unambiguous {submission : Submission} (distinct : submission.Distinct)
    (parts : ∀ bundle ∈ submission.stories, Nonempty bundle.Parts) : submission.Unambiguous := by
  have named : ∀ use ∈ submission.mentions.flatMap Mention.uses,
      ∃ mention ∈ submission.mentions, mention.name = use := by
    intro use isUse
    obtain ⟨mention, listed, used⟩ := List.mem_flatMap.mp isUse
    obtain ⟨bundle, sent, mentioned⟩ := List.mem_flatMap.mp listed
    obtain ⟨parts⟩ := parts bundle sent
    rcases List.mem_cons.mp used with rfl | links
    · exact ⟨mention, listed, rfl⟩
    · obtain ⟨relation, declared, inRelation⟩ := List.mem_flatMap.mp links
      obtain ⟨member, isMember, rfl⟩ := List.mem_map.mp inRelation
      obtain ⟨other, otherListed, same⟩ := parts.exists_mention mentioned declared isMember
      exact ⟨other, mem_mentions sent otherListed, same⟩
  intro first isFirst second isSecond same
  obtain ⟨mention, listed, rfl⟩ := named first isFirst
  obtain ⟨other, otherListed, rfl⟩ := named second isSecond
  rw [mention_eq_of_id distinct listed otherListed same]

end Chronicle
