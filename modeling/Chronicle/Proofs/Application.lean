import Chronicle.Proofs.Passing

/-!
# Applying a submission

A submission is applied by commits, one after another: of the records that it mentions, and of
the stories that an item is taken out of. What each of these commits keeps is kept when a story
has been applied (`Env.Keeps.applyStory`). A commit settles its own record (`Env.apply_settled`)
and touches no other; taking an item out of a story leaves the rest of it as it was
(`Env.detach_without`).
-/

namespace Chronicle

open Descriptor (standard)

/-! ## One commit -/

/-- The record of a mention is live, has the kind that was named, and its content counts as
what was sent. -/
def Mention.Settled (store : Store) (mention : Mention) : Prop :=
  ∃ row, store.live? mention.sent.id = some row ∧ row.kind = mention.kind ∧
    (standard mention.kind).normal row.content =
      (standard mention.kind).normal mention.sent.content

namespace Env

section Commit

variable {env : Env} {kind : Kind} {id : EntityId} {content : Content}
  {attribution : Attribution} {store after : Store} {outcome : Outcome}

/-- The row of a record that has been committed: it holds what was proposed, or is the one that
was there and counts as that. -/
theorem apply_row (registered : env.registry = .standard) (sound : store.SoundRows)
    (applied : env.apply kind id (some content) attribution store = .ok (outcome, after)) :
    ∃ next, after.row? id = some next ∧ next.kind = kind ∧ next.deleted = false ∧
      (next.content = content.canonical ∨
        store.row? id = some next ∧
          (standard kind).normal next.content = (standard kind).normal content) := by
  obtain ⟨admits, applies⟩ := apply_applies registered sound applied
  cases applies with
  | unchanged immaterial =>
      obtain ⟨row, _, found, ⟨⟩, counts⟩ := (admits.immaterial_iff sound).mp immaterial
      obtain ⟨sameKind, live⟩ := admits.present row found
      exact ⟨row, found, sameKind, live, Or.inr ⟨found, counts.symm⟩⟩
  | written material next writes =>
      exact ⟨_, writes.row?_self, rfl, rfl, Or.inl rfl⟩

theorem apply_row?_of_ne (registered : env.registry = .standard) (sound : store.SoundRows)
    {proposed : Option Content}
    (applied : env.apply kind id proposed attribution store = .ok (outcome, after))
    {other : EntityId} (different : other ≠ id) : after.row? other = store.row? other := by
  obtain ⟨_, applies⟩ := apply_applies registered sound applied
  cases applies with
  | unchanged immaterial => rfl
  | written material next writes => exact writes.row?_of_ne different

/-- A record that is there has the kind under which it is committed, and is live. -/
theorem apply_present (registered : env.registry = .standard) (sound : store.SoundRows)
    {proposed : Option Content}
    (applied : env.apply kind id proposed attribution store = .ok (outcome, after))
    {row : EntityRow} (found : store.row? id = some row) :
    row.kind = kind ∧ row.deleted = false :=
  (apply_applies registered sound applied).1.present row found

/-- A commit settles what it was about. -/
theorem apply_settled (registered : env.registry = .standard) (sound : store.SoundRows)
    (mention : Mention) (applied : env.apply mention.kind mention.sent.id
      (some mention.sent.content) attribution store = .ok (outcome, after)) :
    mention.Settled after := by
  obtain ⟨next, found, kind, live, holds⟩ := apply_row registered sound applied
  refine ⟨next, Store.live?_eq_some_iff.mpr ⟨found, live⟩, kind, ?_⟩
  rcases holds with written | ⟨_, same⟩
  · rw [written, Descriptor.standard_normal_canonical]
  · exact same

/-- A snapshot that a commit adds is put down to whom the commit is. -/
theorem apply_snapshot (registered : env.registry = .standard) (sound : store.SoundRows)
    {proposed : Option Content}
    (applied : env.apply kind id proposed attribution store = .ok (outcome, after))
    {key : String × EntityId × Nat} {snapshot : Snapshot}
    (kept : after.snapshots.get? key = some snapshot) :
    store.snapshots.get? key = some snapshot ∨
      snapshot.origin = attribution.origin ∧ snapshot.changedBy = attribution.actor := by
  obtain ⟨_, applies⟩ := apply_applies registered sound applied
  cases applies with
  | unchanged immaterial => exact Or.inl kept
  | written material next writes =>
      rename_i version
      rw [writes.snapshots] at kept
      by_cases own : key = ((standard kind).historyTable, id, version)
      · rw [own, Dict.get?_insert_self] at kept
        cases kept
        exact Or.inr ⟨rfl, rfl⟩
      · rw [Dict.get?_insert_of_ne _ own] at kept
        exact Or.inl kept

end Commit

end Env

/-! ## Taking items out of a story -/

/-- The second content is the first one without an item. -/
structure Content.Loses (content proposed : Content) (item : EntityId) : Prop where
  values : ∀ name, proposed.value name = content.value name
  others : ∀ relation, relation ≠ itemRelation →
    proposed.members relation = content.members relation
  items : proposed.members itemRelation =
    (content.members itemRelation).filter fun member => decide (member ≠ item)

theorem Descriptor.declares_items :
    ((standard .story).relation? itemRelation).isSome = true := by decide

/-- What a story lists as items has to be items. -/
theorem Descriptor.target_items :
    ∀ spec ∈ (standard .story).relations, spec.name = itemRelation → spec.target = .newsItem := by
  decide

/-- What a story is committed with when an item is taken out of it. -/
theorem Content.loses_item (content : Content) (item : EntityId) :
    content.Loses (match content.relations.get? itemRelation with
      | none => content
      | some members => content.setMembers itemRelation
          (members.filter fun member => decide (member ≠ item))) item := by
  cases listed : content.relations.get? itemRelation with
  | none =>
      refine ⟨fun _ => rfl, fun _ _ => rfl, ?_⟩
      rw [Content.members, listed]
      rfl
  | some members =>
      refine ⟨content.value_setMembers _ _, ?_, ?_⟩
      · intro relation other
        exact content.members_setMembers_of_ne other _
      · rw [content.members_setMembers_self, Content.members_eq_of_get? listed]

namespace Content.Loses

variable {content proposed : Content} {item : EntityId}

theorem mem_members_iff (loses : content.Loses proposed item) {relation : String}
    {member : EntityId} : member ∈ proposed.members relation ↔
      member ∈ content.members relation ∧ ¬ (relation = itemRelation ∧ member = item) := by
  by_cases isItems : relation = itemRelation
  · rw [isItems, loses.items, List.mem_filter, decide_eq_true_eq, ne_eq, eq_self, true_and]
  · rw [loses.others relation isItems, and_iff_left fun both => isItems both.1]

/-- Without an item that it does not list, a content counts as what it is. -/
theorem normal_eq (loses : content.Loses proposed item)
    (absent : item ∉ content.members itemRelation) (kind : Kind) :
    (standard kind).normal proposed = (standard kind).normal content := by
  refine (Descriptor.standard_normal_eq_iff _ _ _).mpr ⟨loses.values, fun relation member => ?_⟩
  rw [loses.mem_members_iff, and_iff_left_of_imp]
  rintro listed ⟨rfl, rfl⟩
  exact absent listed

/-- All members of a story are of the right kinds if they are without one that is an item. -/
theorem memberFault?_eq_none (loses : content.Loses proposed item) {store : Store}
    (isItem : ∀ row, store.row? item = some row → row.kind = .newsItem)
    (fits : store.memberFault? (standard .story) proposed = none) :
    store.memberFault? (standard .story) content = none := by
  rw [Store.memberFault?_eq_none_iff] at fits ⊢
  intro spec declared member listed row found
  by_cases own : spec.name = itemRelation ∧ member = item
  · obtain ⟨isItems, rfl⟩ := own
    rw [isItem row found, Descriptor.target_items spec declared isItems]
  · exact fits spec declared member (loses.mem_members_iff.mpr ⟨listed, own⟩) row found

end Content.Loses

/-- The second row is that of the same record without some of its items. -/
structure EntityRow.Without (row next : EntityRow) (items : List EntityId) : Prop where
  kind_eq : next.kind = row.kind
  deleted_eq : next.deleted = row.deleted
  values : ∀ name, next.content.value name = row.content.value name
  others : ∀ relation, relation ≠ itemRelation →
    next.content.members relation = row.content.members relation
  items_eq : next.content.members itemRelation =
    (row.content.members itemRelation).filter fun member => decide (member ∉ items)

namespace EntityRow.Without

variable {first second third : EntityRow} {earlier later : List EntityId}

theorem refl (row : EntityRow) : row.Without row [] := by
  refine ⟨rfl, rfl, fun _ => rfl, fun _ _ => rfl, ?_⟩
  simp

theorem trans (early : first.Without second earlier) (late : second.Without third later) :
    first.Without third (later ++ earlier) := by
  refine ⟨late.kind_eq.trans early.kind_eq, late.deleted_eq.trans early.deleted_eq, ?_, ?_, ?_⟩
  · intro name
    rw [late.values, early.values]
  · intro relation other
    rw [late.others relation other, early.others relation other]
  · rw [late.items_eq, early.items_eq, List.filter_filter]
    refine List.filter_congr ?_
    intro member _
    simp

theorem mem_members {row next : EntityRow} {items : List EntityId} (without : row.Without next items)
    {relation : String} {member : EntityId} (listed : member ∈ next.content.members relation) :
    member ∈ row.content.members relation := by
  by_cases isItems : relation = itemRelation
  · rw [isItems, without.items_eq] at listed
    rw [isItems]
    exact (List.mem_filter.mp listed).1
  · rwa [without.others relation isItems] at listed

/-- Without a single item, a row holds the content without it. -/
theorem loses {row next : EntityRow} {item : EntityId} (without : row.Without next [item]) :
    row.content.Loses next.content item := by
  refine ⟨without.values, without.others, without.items_eq.trans ?_⟩
  exact List.filter_congr fun member _ => by simp

end EntityRow.Without

namespace Env

variable {env : Env} {attribution : Attribution} {store after : Store}

/-- Taking an item out of a live story is a commit of its content without the item. -/
theorem detach_eq_apply (registered : env.registry = .standard) (sound : store.SoundRows)
    {owner : EntityId} {row : EntityRow} (found : store.row? owner = some row)
    (story : row.kind = .story) (live : row.deleted = false) (item : EntityId)
    (attribution : Attribution) :
    ∃ proposed, row.content.Loses proposed item ∧ (standard .story).check proposed = .ok () ∧
      env.detach item attribution owner store =
        env.apply .story owner (some proposed) attribution store := by
  have accepted := (sound owner row found).accepted
  rw [story] at accepted
  have read : env.live store .story owner = .ok (row.record owner) :=
    (live_eq_ok registered sound).mpr ⟨row, found, live, story, rfl⟩
  refine ⟨_, row.content.loses_item item, ?_, ?_⟩
  · split
    · exact accepted
    · exact Descriptor.check_setMembers accepted Descriptor.declares_items _
  · unfold detach
    rw [read]
    rfl

/-- Taking an item out of a story that is live leaves the rest of the story as it was. -/
theorem detach_without (registered : env.registry = .standard) (sound : store.SoundRows)
    {item owner : EntityId} {outcome : Outcome}
    (detached : env.detach item attribution owner store = .ok (outcome, after)) :
    ∃ row next, store.row? owner = some row ∧ row.kind = .story ∧ row.deleted = false ∧
      after.row? owner = some next ∧ row.Without next [item] := by
  obtain ⟨story, live, _⟩ := detach_eq_ok detached
  obtain ⟨row, found, notDeleted, kind, rfl⟩ := (live_eq_ok registered sound).mp live
  obtain ⟨proposed, loses, _, commits⟩ :=
    detach_eq_apply registered sound found kind notDeleted item attribution
  rw [commits] at detached
  have canonical := (sound owner row found).canonical
  obtain ⟨next, nextFound, nextKind, nextLive, holds⟩ := apply_row registered sound detached
  refine ⟨row, next, found, kind, notDeleted, nextFound, ?_⟩
  have kept : (row.content.members itemRelation).filter (fun member => decide (member ≠ item)) =
      (row.content.members itemRelation).filter fun member => decide (member ∉ [item]) := by
    refine List.filter_congr ?_
    intro member _
    simp
  rcases holds with written | ⟨unchanged, counts⟩
  · refine ⟨nextKind.trans kind.symm, nextLive.trans notDeleted.symm, ?_, ?_, ?_⟩
    · intro name
      rw [written, Content.value_canonical, loses.values]
    · intro relation other
      rw [written, Content.members_canonical, loses.others relation other,
        distinct_eq_self (canonical.members_nodup relation)]
    · rw [written, Content.members_canonical, loses.items, kept,
        distinct_eq_self ((canonical.members_nodup itemRelation).filter _)]
  · -- nothing was written, so the item was not listed
    rw [found] at unchanged
    cases unchanged
    have absent : item ∉ row.content.members itemRelation := by
      intro listed
      have same := ((Descriptor.standard_normal_eq_iff _ _ _).mp counts).2 itemRelation item
      rw [loses.mem_members_iff] at same
      exact (same.mp listed).2 ⟨rfl, rfl⟩
    refine ⟨rfl, rfl, fun _ => rfl, fun _ _ => rfl, ?_⟩
    refine (List.filter_eq_self.mpr ?_).symm
    intro member listed
    refine decide_eq_true ?_
    intro same
    rw [List.mem_singleton.mp same] at listed
    exact absent listed

/-! ## Keeping -/

/-- What each commit keeps while a story is applied: those of the records that it mentions, and
those that take one of its items out of another story that listed it. -/
structure Keeps (env : Env) (attribution : Attribution) (bundle : StoryBundle)
    (motive : Store → Prop) : Prop where
  mention : ∀ mention ∈ bundle.mentions, ∀ before outcome next, before.SoundRows → motive before →
    env.apply mention.kind mention.sent.id (some mention.sent.content) attribution before =
      .ok (outcome, next) → motive next
  detach : ∀ item ∈ bundle.items, ∀ owner, owner ≠ bundle.id → ∀ earlier before outcome next,
    motive earlier → owner ∈ earlier.owners item.id itemRelation → before.SoundRows →
    motive before → env.detach item.id attribution owner before = .ok (outcome, next) →
    motive next

theorem detach_soundRows (registered : env.registry = .standard) (sound : store.SoundRows)
    {item owner : EntityId} {outcome : Outcome}
    (detached : env.detach item attribution owner store = .ok (outcome, after)) :
    after.SoundRows := by
  obtain ⟨_, _, applied⟩ := detach_eq_ok detached
  exact apply_soundRows registered sound applied

namespace Keeps

variable {bundle : StoryBundle} {motive : Store → Prop}

/-- What every commit keeps is kept while a story is applied. -/
theorem of_apply (each : ∀ kind id content before outcome next, before.SoundRows →
      motive before → env.apply kind id (some content) attribution before = .ok (outcome, next) →
      motive next) : Keeps env attribution bundle motive := by
  constructor
  · intro mention _ before outcome next sound kept applied
    exact each _ _ _ before outcome next sound kept applied
  · intro item _ owner _ earlier before outcome next _ _ sound kept detached
    obtain ⟨_, _, applied⟩ := detach_eq_ok detached
    exact each _ _ _ before outcome next sound kept applied

/-- Every commit keeps the rows sound, whatever else. -/
theorem always : Keeps env attribution bundle fun _ => True :=
  of_apply fun _ _ _ _ _ _ _ _ _ => trivial

theorem attr (keeps : Keeps env attribution bundle motive)
    (registered : env.registry = .standard) {sent : Bundle} (listed : sent ∈ bundle.attributes)
    {outcome : Outcome} (sound : store.SoundRows) (kept : motive store)
    (applied : env.apply .attr sent.id (some sent.content) attribution store =
      .ok (outcome, after)) : after.SoundRows ∧ motive after := by
  refine ⟨apply_soundRows registered sound applied, ?_⟩
  exact keeps.mention ⟨.attr, sent⟩ (StoryBundle.attr_mem_mentions listed) store outcome after sound
    kept applied

/-- Taking an item out of the stories that listed it keeps what each of these commits keeps. -/
theorem detaches (keeps : Keeps env attribution bundle motive)
    (registered : env.registry = .standard) {sent : Bundle} (listed : sent ∈ bundle.items)
    {outcomes : List Outcome} (sound : store.SoundRows) (kept : motive store)
    (detached : inTurn (env.detach sent.id attribution)
      ((store.owners sent.id itemRelation).filter fun owner => owner ≠ bundle.id) store =
        .ok (outcomes, after)) : after.SoundRows ∧ motive after := by
  refine inTurn_keeps (motive := fun state => state.SoundRows ∧ motive state) ?_ ⟨sound, kept⟩
    detached
  intro owner isOwner before result next both once
  obtain ⟨owns, other⟩ := List.mem_filter.mp isOwner
  exact ⟨detach_soundRows registered both.1 once,
    keeps.detach sent listed owner (of_decide_eq_true other) store before result next kept owns
      both.1 both.2 once⟩

theorem item (keeps : Keeps env attribution bundle motive)
    (registered : env.registry = .standard) {sent : Bundle} (listed : sent ∈ bundle.items)
    {outcome : Outcome} (sound : store.SoundRows) (kept : motive store)
    (applied : env.applyItem bundle.id attribution sent store = .ok (outcome, after)) :
    after.SoundRows ∧ motive after := by
  obtain ⟨next, _, committed, detached⟩ := applyItem_eq_ok applied
  refine keeps.detaches registered listed (apply_soundRows registered sound committed) ?_ detached
  exact keeps.mention ⟨.newsItem, sent⟩ (StoryBundle.item_mem_mentions listed) store outcome next
    sound kept committed

theorem attributes (keeps : Keeps env attribution bundle motive)
    (registered : env.registry = .standard) {sent : List Bundle}
    (listed : ∀ one ∈ sent, one ∈ bundle.attributes) {outcomes : List Outcome}
    (sound : store.SoundRows) (kept : motive store)
    (applied : inTurn (fun sent : Bundle =>
      env.apply .attr sent.id (some sent.content) attribution) sent store =
        .ok (outcomes, after)) : after.SoundRows ∧ motive after :=
  inTurn_keeps (motive := fun state => state.SoundRows ∧ motive state)
    (fun one inSent _ _ _ both once =>
      keeps.attr registered (listed one inSent) both.1 both.2 once)
    ⟨sound, kept⟩ applied

theorem items (keeps : Keeps env attribution bundle motive)
    (registered : env.registry = .standard) {sent : List Bundle}
    (listed : ∀ one ∈ sent, one ∈ bundle.items) {outcomes : List Outcome}
    (sound : store.SoundRows) (kept : motive store)
    (applied : inTurn (env.applyItem bundle.id attribution) sent store = .ok (outcomes, after)) :
    after.SoundRows ∧ motive after :=
  inTurn_keeps (motive := fun state => state.SoundRows ∧ motive state)
    (fun one inSent _ _ _ both once =>
      keeps.item registered (listed one inSent) both.1 both.2 once)
    ⟨sound, kept⟩ applied

theorem story (keeps : Keeps env attribution bundle motive)
    (registered : env.registry = .standard) {outcome : Outcome} (sound : store.SoundRows)
    (kept : motive store)
    (applied : env.apply .story bundle.id (some bundle.proposed) attribution store =
      .ok (outcome, after)) : after.SoundRows ∧ motive after :=
  ⟨apply_soundRows registered sound applied,
    keeps.mention ⟨.story, bundle.sent⟩ List.mem_cons_self store outcome after sound kept applied⟩

/-- What each commit keeps is kept when the story has been applied. -/
theorem applyStory (keeps : Keeps env attribution bundle motive)
    (registered : env.registry = .standard) {applied : AppliedStory} (sound : store.SoundRows)
    (kept : motive store) (done : env.applyStory attribution bundle store = .ok (applied, after)) :
    after.SoundRows ∧ motive after := by
  obtain ⟨afterAttributes, afterItems, attributesDone, itemsDone, storyDone⟩ :=
    applyStory_eq_ok done
  obtain ⟨sound, kept⟩ := keeps.attributes registered (fun _ listed => listed) sound kept
    attributesDone
  obtain ⟨sound, kept⟩ := keeps.items registered (fun _ listed => listed) sound kept itemsDone
  exact keeps.story registered sound kept storyDone

/-- The parts of a story that was applied, each of them from rows that are sound. -/
theorem parts (registered : env.registry = .standard) {applied : AppliedStory}
    (sound : store.SoundRows) (done : env.applyStory attribution bundle store = .ok (applied, after)) :
    ∃ afterAttributes afterItems,
      inTurn (fun sent : Bundle => env.apply .attr sent.id (some sent.content) attribution)
        bundle.attributes store = .ok (applied.attributes, afterAttributes) ∧
      inTurn (env.applyItem bundle.id attribution) bundle.items afterAttributes =
        .ok (applied.items, afterItems) ∧
      env.apply .story bundle.id (some bundle.proposed) attribution afterItems =
        .ok (applied.story, after) ∧
      afterAttributes.SoundRows ∧ afterItems.SoundRows := by
  obtain ⟨afterAttributes, afterItems, attributesDone, itemsDone, storyDone⟩ :=
    applyStory_eq_ok done
  have always : Keeps env attribution bundle fun _ => True := .always
  obtain ⟨attributesSound, _⟩ := always.attributes registered (fun _ listed => listed) sound
    trivial attributesDone
  obtain ⟨itemsSound, _⟩ := always.items registered (fun _ listed => listed) attributesSound
    trivial itemsDone
  exact ⟨afterAttributes, afterItems, attributesDone, itemsDone, storyDone, attributesSound,
    itemsSound⟩

/-- What an item brings about and each commit keeps is so when its story has been applied. -/
theorem of_item (keeps : Keeps env attribution bundle motive)
    (registered : env.registry = .standard) {sent : Bundle} (listed : sent ∈ bundle.items)
    (reach : ∀ before outcome next, before.SoundRows →
      env.applyItem bundle.id attribution sent before = .ok (outcome, next) → motive next)
    {applied : AppliedStory} (sound : store.SoundRows)
    (done : env.applyStory attribution bundle store = .ok (applied, after)) : motive after := by
  obtain ⟨afterAttributes, afterItems, _, itemsDone, storyDone, attributesSound, itemsSound⟩ :=
    parts registered sound done
  have always : Keeps env attribution bundle fun _ => True := .always
  have reached : motive afterItems := by
    refine inTurn_reaches Store.SoundRows motive listed ?_ reach ?_ attributesSound itemsDone
    · intro other otherListed before outcome next sound once
      exact (always.item registered otherListed sound trivial once).1
    · intro other otherListed before outcome next sound kept once
      exact (keeps.item registered otherListed sound kept once).2
  exact (keeps.story registered itemsSound reached storyDone).2

/-- What an attribute brings about and each commit keeps is so when its story has been applied. -/
theorem of_attr (keeps : Keeps env attribution bundle motive)
    (registered : env.registry = .standard) {sent : Bundle} (listed : sent ∈ bundle.attributes)
    (reach : ∀ before outcome next, before.SoundRows →
      env.apply .attr sent.id (some sent.content) attribution before = .ok (outcome, next) →
      motive next)
    {applied : AppliedStory} (sound : store.SoundRows)
    (done : env.applyStory attribution bundle store = .ok (applied, after)) : motive after := by
  obtain ⟨afterAttributes, afterItems, attributesDone, itemsDone, storyDone, attributesSound,
    itemsSound⟩ := parts registered sound done
  have reached : motive afterAttributes := by
    refine inTurn_reaches Store.SoundRows motive listed ?_ reach ?_ sound attributesDone
    · intro other _ before outcome next sound once
      exact apply_soundRows registered sound once
    · intro other otherListed before outcome next sound kept once
      exact (keeps.attr registered otherListed sound kept once).2
  obtain ⟨_, itemsKept⟩ := keeps.items registered (fun _ listed => listed) attributesSound reached
    itemsDone
  exact (keeps.story registered itemsSound itemsKept storyDone).2

/-- What the story itself brings about is so when it has been applied. -/
theorem of_story (registered : env.registry = .standard)
    (reach : ∀ before outcome next, before.SoundRows →
      env.apply .story bundle.id (some bundle.proposed) attribution before =
        .ok (outcome, next) → motive next)
    {applied : AppliedStory} (sound : store.SoundRows)
    (done : env.applyStory attribution bundle store = .ok (applied, after)) : motive after := by
  obtain ⟨_, afterItems, _, _, storyDone, _, itemsSound⟩ := parts registered sound done
  exact reach afterItems applied.story after itemsSound storyDone

/-- What the commit of a mention brings about and each commit keeps is so when its story has been
applied. -/
theorem of_mention (keeps : Keeps env attribution bundle motive)
    (registered : env.registry = .standard) {mention : Mention}
    (listed : mention ∈ bundle.mentions)
    (reach : ∀ before outcome next, before.SoundRows →
      env.apply mention.kind mention.sent.id (some mention.sent.content) attribution before =
        .ok (outcome, next) → motive next)
    {applied : AppliedStory} (sound : store.SoundRows)
    (done : env.applyStory attribution bundle store = .ok (applied, after)) : motive after := by
  rcases List.mem_cons.mp listed with rfl | others
  · exact of_story registered reach sound done
  · rcases List.mem_append.mp others with isItem | isAttr
    · obtain ⟨sent, sentListed, rfl⟩ := List.mem_map.mp isItem
      refine keeps.of_item registered sentListed ?_ sound done
      intro before outcome next sound once
      obtain ⟨between, _, committed, detached⟩ := applyItem_eq_ok once
      exact (keeps.detaches registered sentListed (apply_soundRows registered sound committed)
        (reach before outcome between sound committed) detached).2
    · obtain ⟨sent, sentListed, rfl⟩ := List.mem_map.mp isAttr
      exact keeps.of_attr registered sentListed reach sound done

end Keeps

theorem applyStory_soundRows (registered : env.registry = .standard) {applied : AppliedStory}
    (sound : store.SoundRows)
    (done : env.applyStory attribution bundle store = .ok (applied, after)) : after.SoundRows :=
  (Keeps.always.applyStory registered sound trivial done).1

/-- A story that has been applied is settled. -/
theorem applyStory_settled (registered : env.registry = .standard) {applied : AppliedStory}
    (sound : store.SoundRows)
    (done : env.applyStory attribution bundle store = .ok (applied, after)) :
    Mention.Settled after ⟨.story, bundle.sent⟩ := by
  refine Keeps.of_story registered (motive := (Mention.Settled · ⟨.story, bundle.sent⟩)) ?_ sound done
  intro before outcome next sound once
  exact apply_settled registered sound ⟨.story, bundle.sent⟩ once

/-- What a story brings about and each commit keeps is so when all stories have been applied. -/
theorem applyStories_reach (registered : env.registry = .standard) {motive : Store → Prop}
    {bundles : List StoryBundle} (keeps : ∀ bundle ∈ bundles, Keeps env attribution bundle motive)
    {bundle : StoryBundle} (sent : bundle ∈ bundles)
    (reach : ∀ before applied next, before.SoundRows →
      env.applyStory attribution bundle before = .ok (applied, next) → motive next)
    {applied : List AppliedStory} (sound : store.SoundRows)
    (done : inTurn (env.applyStory attribution) bundles store = .ok (applied, after)) :
    motive after := by
  refine inTurn_reaches Store.SoundRows motive sent ?_ reach ?_ sound done
  · intro other _ before result next sound once
    exact applyStory_soundRows registered sound once
  · intro other otherSent before result next sound kept once
    exact ((keeps other otherSent).applyStory registered sound kept once).2

theorem applyStories_soundRows (registered : env.registry = .standard) {bundles : List StoryBundle}
    {applied : List AppliedStory} (sound : store.SoundRows)
    (done : inTurn (env.applyStory attribution) bundles store = .ok (applied, after)) :
    after.SoundRows :=
  inTurn_keeps (motive := Store.SoundRows)
    (fun _ _ _ _ _ sound once => applyStory_soundRows registered sound once) sound done

/-- What each commit keeps is kept when a list of stories has been applied. -/
theorem applyStories_keeps (registered : env.registry = .standard) {motive : Store → Prop}
    {bundles : List StoryBundle} (keeps : ∀ bundle ∈ bundles, Keeps env attribution bundle motive)
    {applied : List AppliedStory} (sound : store.SoundRows) (kept : motive store)
    (done : inTurn (env.applyStory attribution) bundles store = .ok (applied, after)) :
    motive after := by
  have both : after.SoundRows ∧ motive after := by
    refine inTurn_keeps (motive := fun state => state.SoundRows ∧ motive state) ?_ ⟨sound, kept⟩
      done
    intro bundle listed before result next both once
    exact (keeps bundle listed).applyStory registered both.1 both.2 once
  exact both.2

/-- What is recorded while stories are applied is put down to whom they come from. -/
theorem applyStories_snapshot (registered : env.registry = .standard) {bundles : List StoryBundle}
    {applied : List AppliedStory} (sound : store.SoundRows)
    (done : inTurn (env.applyStory attribution) bundles store = .ok (applied, after))
    {key : String × EntityId × Nat} {snapshot : Snapshot}
    (kept : after.snapshots.get? key = some snapshot) :
    store.snapshots.get? key = some snapshot ∨
      snapshot.origin = attribution.origin ∧ snapshot.changedBy = attribution.actor := by
  have each : ∀ bundle ∈ bundles, Keeps env attribution bundle fun state =>
      ∀ snapshot, state.snapshots.get? key = some snapshot →
        store.snapshots.get? key = some snapshot ∨
          snapshot.origin = attribution.origin ∧ snapshot.changedBy = attribution.actor := by
    intro bundle _
    refine .of_apply ?_
    intro kind id content before outcome next sound known committed snapshot kept
    rcases apply_snapshot registered sound committed kept with earlier | own
    · exact known snapshot earlier
    · exact Or.inr own
  exact applyStories_keeps registered each sound (fun _ earlier => Or.inl earlier) done snapshot kept

theorem applyStories_conflicts (registered : env.registry = .standard)
    {bundles : List StoryBundle} {applied : List AppliedStory} (sound : store.SoundRows)
    (done : inTurn (env.applyStory attribution) bundles store = .ok (applied, after)) :
    after.conflicts = store.conflicts := by
  refine applyStories_keeps (motive := fun state => state.conflicts = store.conflicts) registered
    ?_ sound rfl done
  intro bundle _
  refine .of_apply ?_
  intro kind id content before outcome next sound same committed
  rw [apply_conflicts registered sound committed, same]

end Env

end Chronicle
