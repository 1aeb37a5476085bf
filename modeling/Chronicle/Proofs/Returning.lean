import Chronicle.Editor
import Chronicle.Proofs.Commuting
import Chronicle.Proofs.Completion
import Chronicle.Proofs.Gains
import Chronicle.Proofs.Resubmission

/-!
# Sending back what was read

A story that was read comes with its items, as they are stored (`Env.storyBundleOf_current`). Sent
back, it diverges nowhere, and none of its own commits finds anything to change
(`Reclaims.apply`). But an item that is sent with it leaves the other stories that list it, so these
may change (`Reclaims.detach`), and if one of them cannot be written, all is refused.
-/

namespace Chronicle

open Descriptor (standard)

/-! ## A story that was read -/

/-- The records of a story are sent as they are stored, each of them once. -/
structure StoryBundle.Current (store : Store) (bundle : StoryBundle) : Prop where
  settled : ∀ mention ∈ bundle.mentions, mention.Settled store
  accepted : ∀ mention ∈ bundle.mentions,
    (standard mention.kind).check mention.sent.content = .ok ()
  once : (bundle.mentions.map Mention.name).Nodup

theorem StoryBundle.forall_mentions {bundle : StoryBundle} {motive : Mention → Prop} :
    (∀ mention ∈ bundle.mentions, motive mention) ↔
      motive ⟨.story, bundle.sent⟩ ∧ (∀ item ∈ bundle.items, motive ⟨.newsItem, item⟩) ∧
        ∀ sent ∈ bundle.attributes, motive ⟨.attr, sent⟩ := by
  rw [mentions, List.forall_mem_cons, List.forall_mem_append, List.forall_mem_map,
    List.forall_mem_map]

/-- Without its items and with them again, a content is what it was. -/
theorem Content.members_erase_setMembers (content : Content) (relation other : String) :
    (Content.setMembers { content with relations := content.relations.erase relation } relation
      (content.members relation)).members other = content.members other := by
  by_cases same : other = relation
  · rw [same, members_setMembers_self]
  · rw [members_setMembers_of_ne _ same, members, members, Dict.get?_erase_of_ne _ same]

namespace Env

variable {env : Env} {store : Store}

theorem bundleOf_eq_ok (registered : env.registry = .standard) (sound : store.SoundRows)
    {kind : Kind} {id : EntityId} {sent : Bundle} :
    env.bundleOf store kind id = .ok sent ↔
      ∃ row, store.row? id = some row ∧ row.deleted = false ∧ row.kind = kind ∧
        sent = ⟨id, some row.version, row.content⟩ := by
  unfold bundleOf
  simp only [bind_eq_ok, pure_eq_ok, live_eq_ok registered sound]
  constructor
  · rintro ⟨_, ⟨row, found, live, sameKind, rfl⟩, rfl⟩
    exact ⟨row, found, live, sameKind, rfl⟩
  · rintro ⟨row, found, live, sameKind, rfl⟩
    exact ⟨_, ⟨row, found, live, sameKind, rfl⟩, rfl⟩

/-- What was read of a story are its row and those of its items. -/
theorem storyBundleOf_eq_ok (registered : env.registry = .standard) (sound : store.SoundRows)
    {id : EntityId} {bundle : StoryBundle} :
    env.storyBundleOf store id = .ok bundle ↔
      ∃ row items, store.row? id = some row ∧ row.deleted = false ∧ row.kind = .story ∧
        List.Forall₂ (fun member item => env.bundleOf store .newsItem member = .ok item)
          (row.content.members itemRelation) items ∧
        bundle = ⟨id, some row.version,
          { row.content with relations := row.content.relations.erase itemRelation }, items, []⟩ := by
  unfold storyBundleOf
  simp only [bind_eq_ok, pure_eq_ok, live_eq_ok registered sound, mapM_eq_ok_iff]
  constructor
  · rintro ⟨_, ⟨row, found, live, sameKind, rfl⟩, items, read, rfl⟩
    exact ⟨row, items, found, live, sameKind, read, rfl⟩
  · rintro ⟨row, items, found, live, sameKind, read, rfl⟩
    exact ⟨_, ⟨row, found, live, sameKind, rfl⟩, items, read, rfl⟩

/-- A story that was read is the one that was asked for, as it is stored. -/
theorem storyBundleOf_current (registered : env.registry = .standard) (sound : store.SoundRows)
    {id : EntityId} {bundle : StoryBundle} (read : env.storyBundleOf store id = .ok bundle) :
    bundle.id = id ∧ bundle.Current store := by
  obtain ⟨row, items, found, live, story, itemsRead, rfl⟩ :=
    (storyBundleOf_eq_ok registered sound).mp read
  have ids : row.content.members itemRelation = items.map Bundle.id := by
    rw [← List.forall₂_eq_eq_eq, List.forall₂_map_right_iff]
    refine itemsRead.imp fun member item given => ?_
    obtain ⟨_, _, _, _, rfl⟩ := (bundleOf_eq_ok registered sound).mp given
    rfl
  have stored : ∀ item ∈ items, ∃ itemRow, store.row? item.id = some itemRow ∧
      itemRow.deleted = false ∧ itemRow.kind = .newsItem ∧ item.content = itemRow.content := by
    intro item listed
    obtain ⟨member, _, given⟩ := exists_of_forall₂ itemsRead.flip listed
    obtain ⟨itemRow, itemFound, itemLive, itemKind, rfl⟩ := (bundleOf_eq_ok registered sound).mp given
    exact ⟨itemRow, itemFound, itemLive, itemKind, rfl⟩
  have rowSound := sound id row found
  have rowAccepted := rowSound.accepted
  rw [story] at rowAccepted
  refine ⟨rfl, StoryBundle.forall_mentions.mpr ⟨?_, fun item listed => ?_, nofun⟩,
    StoryBundle.forall_mentions.mpr ⟨?_, fun item listed => ?_, nofun⟩, ?_⟩
  · refine ⟨row, Store.live?_eq_some_iff.mpr ⟨found, live⟩, story, ?_⟩
    refine (Descriptor.standard_normal_eq_iff _ _ _).mpr ⟨fun _ => rfl, fun relation member => ?_⟩
    rw [StoryBundle.sent, StoryBundle.proposed, ← ids, Content.members_erase_setMembers]
  · obtain ⟨itemRow, itemFound, itemLive, itemKind, same⟩ := stored item listed
    exact ⟨itemRow, Store.live?_eq_some_iff.mpr ⟨itemFound, itemLive⟩, itemKind, by rw [same]⟩
  · exact Descriptor.check_setMembers (Descriptor.check_erase rowAccepted itemRelation)
      Descriptor.declares_items _
  · obtain ⟨itemRow, itemFound, _, itemKind, same⟩ := stored item listed
    have accepted := (sound item.id itemRow itemFound).accepted
    rwa [itemKind, ← same] at accepted
  · have nodup := rowSound.canonical.members_nodup itemRelation
    rw [ids] at nodup
    rw [StoryBundle.mentions, List.map_cons, List.map_nil, List.append_nil, List.nodup_cons,
      List.map_map]
    refine ⟨fun named => ?_, List.Nodup.of_map Prod.snd ?_⟩
    · obtain ⟨_, _, same⟩ := List.mem_map.mp named
      cases (congrArg Prod.fst same :)
    · rwa [List.map_map]

/-! ## Judging what is settled -/

/-- A submission of which all is settled passes, whatever conflicts are withdrawn on the way. -/
theorem judges_settled (registered : env.registry = .standard) (disputed : store.Disputed)
    (submission : Submission)
    (accepted : ∀ mention ∈ submission.mentions,
      (standard mention.kind).check mention.sent.content = .ok ())
    (settled : ∀ mention ∈ submission.mentions, mention.Settled store) :
    ∃ answers judged, env.Judges submission store answers judged ∧
      ∀ answer ∈ answers, answer = none := by
  have each : ∀ turn ∈ submission.turns, ∀ before,
      (before.Disputed ∧ store.KeepsRecords before) →
      ∃ answer next, env.take submission.scope turn before = .ok (answer, next) ∧
        answer = none ∧ (next.Disputed ∧ store.KeepsRecords next) := by
    rintro turn listed before ⟨beforeDisputed, kept⟩
    obtain ⟨quiet, fits⟩ := Submission.quiet_of_settled settled listed
    have taken : env.take submission.scope turn before =
        .ok (none, before.leftBy submission.scope turn) :=
      (take_quiet registered beforeDisputed (Submission.turns_accepted accepted turn listed)
        ((kept.told?_eq turn).trans quiet)).mpr ⟨kept.fits_iff.mpr fits, rfl, rfl⟩
    exact ⟨none, _, taken, rfl, take_disputed registered beforeDisputed taken,
      kept.trans (take_keepsRecords taken)⟩
  obtain ⟨answers, judged, taken, none, _⟩ :=
    inTurn_carried _ (fun _ answer => answer = none) each ⟨disputed, .refl store⟩
  refine ⟨answers, judged, ⟨accepted, taken⟩, fun answer told => ?_⟩
  obtain ⟨_, _, same⟩ := exists_of_forall₂ none.flip told
  exact same

end Env

/-! ## Stories that share an item -/

/-- Another story lists an item of this one. -/
def StoryBundle.SharedBy (store : Store) (bundle : StoryBundle) (other : EntityId) : Prop :=
  other ≠ bundle.id ∧ ∃ item ∈ bundle.items, other ∈ store.owners item.id itemRelation

/-- All that has happened to a store is that such stories have lost items. The version of such a story
and the number of its items have kept their sum. -/
structure StoryBundle.Reclaims (store : Store) (bundle : StoryBundle) (state : Store) : Prop where
  sound : store.SoundRows
  chained : state.Chained
  elsewhere : store.AgreesOn (fun other => ¬ bundle.SharedBy store other) state
  lost : ∀ other row, bundle.SharedBy store other → store.row? other = some row →
    ∃ next items, state.row? other = some next ∧ row.Without next items ∧
      (∀ item ∈ items, item ∈ bundle.items.map Bundle.id) ∧
      next.version + (next.content.members itemRelation).length =
        row.version + (row.content.members itemRelation).length

/-- Whether the members of a content are of the right kinds depends on nothing but the kinds of
records. -/
theorem Store.memberFault?_congr {first second : Store}
    (kinds : ∀ id, (second.row? id).map EntityRow.kind = (first.row? id).map EntityRow.kind)
    (descriptor : Descriptor) (content : Content) :
    second.memberFault? descriptor content = first.memberFault? descriptor content := by
  refine congrArg (fun fault? => descriptor.relations.findSome? fault?) (funext fun spec => ?_)
  refine findSome?_congr fun member _ => ?_
  have same := kinds member
  cases found : first.row? member with
  | none =>
      rw [found, Option.map_none, Option.map_eq_none_iff] at same
      rw [same]
  | some row =>
      rw [found] at same
      obtain ⟨other, otherFound, kind⟩ := Option.map_eq_some_iff.mp same
      rw [otherFound]
      dsimp only
      rw [kind]

theorem Store.KeepsRecords.agreesOn {store after : Store} (kept : store.KeepsRecords after)
    (within : EntityId → Prop) : store.AgreesOn within after :=
  ⟨fun id _ => kept.row?_eq id,
    fun table id version _ => congrArg (fun state => state.snapshots.get? (table, id, version)) kept,
    fun table owner member version _ =>
      congrArg (fun state => state.links.get? (table, owner, member, version)) kept⟩

section Sharing

variable {store state : Store} {bundle : StoryBundle} {other : EntityId}

theorem StoryBundle.not_sharedBy_iff : (∀ other, ¬ bundle.SharedBy store other) ↔
    ∀ item ∈ bundle.items, store.ListedOnlyBy item.id bundle.id := by
  constructor
  · intro unshared item listed owner owns
    by_contra different
    exact unshared owner ⟨different, item, listed, owns⟩
  · rintro alone owner ⟨different, item, listed, owns⟩
    exact different (alone item listed owner owns)

/-- A record that shares an item is a live story. -/
theorem StoryBundle.SharedBy.exists_row (sound : store.SoundRows)
    (shared : bundle.SharedBy store other) :
    ∃ row, store.row? other = some row ∧ row.kind = .story ∧ row.deleted = false := by
  obtain ⟨_, item, _, owns⟩ := shared
  obtain ⟨row, found, story, lists⟩ := sound.story_of_owner owns
  refine ⟨row, found, story, Bool.eq_false_iff.mpr fun deleted => ?_⟩
  rw [(sound other row found).emptied deleted] at lists
  cases lists

/-- There are items that a story shares. -/
theorem StoryBundle.SharedBy.itemsAmong_pos (shared : bundle.SharedBy store other) :
    0 < (store.itemsAmong other (bundle.items.map Bundle.id)).length := by
  obtain ⟨_, item, listed, owns⟩ := shared
  obtain ⟨row, found, lists⟩ := Store.mem_owners_iff.mp owns
  rw [Store.itemsAmong_of_row? found]
  exact List.length_pos_of_mem
    (List.mem_filter.mpr ⟨lists, decide_eq_true (List.mem_map_of_mem listed)⟩)

/-- Without the items that it shares, a story is another one. -/
theorem StoryBundle.SharedBy.row_ne (shared : bundle.SharedBy store other) {row next : EntityRow}
    (found : store.row? other = some row)
    (without : row.Without next (bundle.items.map Bundle.id)) : next ≠ row := by
  rintro rfl
  obtain ⟨_, item, listed, owns⟩ := shared
  obtain ⟨_, sameFound, lists⟩ := Store.mem_owners_iff.mp owns
  cases found.symm.trans sameFound
  rw [without.items_eq, List.mem_filter] at lists
  exact of_decide_eq_true lists.2 (List.mem_map_of_mem listed)

/-- The records of a story that was read do not share an item with it. -/
theorem StoryBundle.Current.not_sharedBy (current : bundle.Current store) (sound : store.SoundRows)
    {mention : Mention} (listed : mention ∈ bundle.mentions) :
    ¬ bundle.SharedBy store mention.sent.id := by
  intro shared
  obtain ⟨row, found, story, _⟩ := shared.exists_row sound
  have kind := (current.settled mention listed).kind_eq found
  have own := StoryBundle.eq_of_kind_story listed (kind.symm.trans story)
  exact shared.1 (congrArg (fun mention => mention.sent.id) own)

namespace StoryBundle.Reclaims

theorem of_keepsRecords (sound : store.SoundRows) (chained : state.Chained)
    (kept : store.KeepsRecords state) (bundle : StoryBundle) : bundle.Reclaims store state :=
  ⟨sound, chained, kept.agreesOn _, fun other row _ found =>
    ⟨row, [], (kept.row?_eq other).trans found, .refl row, nofun, rfl⟩⟩

variable (reclaims : bundle.Reclaims store state)

include reclaims

theorem recorded : state.Recorded := reclaims.chained.traced.recorded

theorem kinds (id : EntityId) :
    (state.row? id).map EntityRow.kind = (store.row? id).map EntityRow.kind := by
  by_cases shared : bundle.SharedBy store id
  · obtain ⟨row, found, _⟩ := shared.exists_row reclaims.sound
    obtain ⟨next, _, nextFound, without, _⟩ := reclaims.lost id row shared found
    rw [nextFound, found, Option.map_some, Option.map_some, without.kind_eq]
  · rw [reclaims.elsewhere.rows id shared]

theorem linked_iff {mention : Mention} : mention.Linked state ↔ mention.Linked store := by
  rw [Mention.Linked, Mention.Linked, Store.memberFault?_congr reclaims.kinds]

theorem settled (current : bundle.Current store) {mention : Mention}
    (listed : mention ∈ bundle.mentions) : mention.Settled state :=
  (current.settled mention listed).of_row?_eq
    (reclaims.elsewhere.rows _ (current.not_sharedBy reclaims.sound listed))

/-- No story has come to list an item. -/
theorem mem_owners {item : EntityId} (owns : other ∈ state.owners item itemRelation) :
    other ∈ store.owners item itemRelation := by
  obtain ⟨next, nextFound, lists⟩ := Store.mem_owners_iff.mp owns
  by_cases shared : bundle.SharedBy store other
  · obtain ⟨row, found, _⟩ := shared.exists_row reclaims.sound
    obtain ⟨last, items, lastFound, without, _⟩ := reclaims.lost other row shared found
    cases nextFound.symm.trans lastFound
    rw [without.items_eq] at lists
    exact Store.mem_owners_iff.mpr ⟨row, found, (List.mem_filter.mp lists).1⟩
  · rw [reclaims.elsewhere.rows other shared] at nextFound
    exact Store.mem_owners_iff.mpr ⟨next, nextFound, lists⟩

/-! ### Commits -/

section Commits

variable {env : Env} {attribution : Attribution} {mention : Mention} {outcome : Outcome}
  {next : Store}

/-- A commit of what is mentioned changes nothing, and is only carried out if it is linked. -/
theorem apply (registered : env.registry = .standard) (current : bundle.Current store)
    (listed : mention ∈ bundle.mentions)
    (applied : env.apply mention.kind mention.sent.id (some mention.sent.content) attribution state =
      .ok (outcome, next)) : next = state ∧ outcome.IsNoop ∧ mention.Linked store := by
  have rows := reclaims.recorded.rows
  have linked : mention.Linked state :=
    (Env.apply_applies registered rows applied).1.members _ rfl
  obtain ⟨other, again, noop⟩ := Env.apply_settled_again registered rows
    ⟨current.accepted mention listed, linked, reclaims.settled current listed⟩
  cases applied.symm.trans again
  exact ⟨rfl, noop, reclaims.linked_iff.mp linked⟩

theorem apply_carried (registered : env.registry = .standard) (current : bundle.Current store)
    (listed : mention ∈ bundle.mentions) (linked : mention.Linked store) :
    ∃ outcome, env.apply mention.kind mention.sent.id (some mention.sent.content) attribution
      state = .ok (outcome, state) ∧ outcome.IsNoop :=
  Env.apply_settled_again registered reclaims.recorded.rows ⟨current.accepted mention listed,
    reclaims.linked_iff.mpr linked, reclaims.settled current listed⟩

/-- An item leaves another story that lists it. -/
theorem detach (registered : env.registry = .standard) {item : Bundle}
    (listed : item ∈ bundle.items) (shared : bundle.SharedBy store other)
    (detached : env.detach item.id attribution other state = .ok (outcome, next)) :
    bundle.Reclaims store next := by
  obtain ⟨_, _, applied⟩ := Env.detach_eq_ok detached
  have elsewhere := (Env.apply_elsewhere registered reclaims.recorded.rows applied).records
  refine ⟨reclaims.sound, reclaims.chained.move registered (.applied applied),
    reclaims.elsewhere.trans (elsewhere.mono fun id unshared same => ?_), ?_⟩
  · subst same
    exact unshared shared
  · intro id row idShared found
    obtain ⟨last, items, lastFound, without, own, sum⟩ := reclaims.lost id row idShared found
    by_cases here : id = other
    · subst here
      obtain ⟨_, new, sameLast, newFound, _, spent⟩ :=
        Env.detach_spends registered reclaims.recorded detached
      cases lastFound.symm.trans sameLast
      obtain ⟨_, _, sameLast, _, _, sameNew, taken⟩ :=
        Env.detach_without registered reclaims.recorded.rows detached
      cases lastFound.symm.trans sameLast
      cases newFound.symm.trans sameNew
      refine ⟨new, [item.id] ++ items, newFound, without.trans taken, ?_, spent.trans sum⟩
      exact List.forall_mem_cons.mpr ⟨List.mem_map_of_mem listed, own⟩
    · refine ⟨last, items, ?_, without, own, sum⟩
      rw [elsewhere.rows id here, lastFound]

end Commits

end StoryBundle.Reclaims

namespace Env

variable {env : Env} {attribution : Attribution} {applied : AppliedStory} {after : Store}

/-- Nothing else happens while the story is applied. -/
theorem keeps_reclaims (registered : env.registry = .standard) (current : bundle.Current store) :
    Keeps env attribution bundle (bundle.Reclaims store) := by
  constructor
  · intro mention listed before outcome next _ reclaims applied
    obtain ⟨rfl, _⟩ := reclaims.apply registered current listed applied
    exact reclaims
  · intro item listed owner different earlier before outcome next earlierReclaims owns _ reclaims
      detached
    exact reclaims.detach registered listed
      ⟨different, item, listed, earlierReclaims.mem_owners owns⟩ detached

/-- A story that was read is applied without effect on its own records. -/
theorem applyStory_noop (registered : env.registry = .standard) (current : bundle.Current store)
    (reclaims : bundle.Reclaims store state)
    (done : env.applyStory attribution bundle state = .ok (applied, after)) :
    applied.IsNoop ∧ ∀ mention ∈ bundle.mentions, mention.Linked store := by
  have keeps : Keeps env attribution bundle (bundle.Reclaims store) :=
    keeps_reclaims registered current
  obtain ⟨afterAttributes, afterItems, attributesDone, itemsDone, storyDone⟩ := applyStory_eq_ok done
  -- each part starts where nothing but losses of other stories has happened
  obtain ⟨attributes, attributesReclaims⟩ := inTurn_answered (bundle.Reclaims store)
    (fun sent outcome => outcome.IsNoop ∧ Mention.Linked store ⟨.attr, sent⟩)
    (fun sent listed before outcome next kept once =>
      ⟨(kept.apply registered current (StoryBundle.attr_mem_mentions listed) once).2,
        (keeps.attr registered listed kept.recorded.rows kept once).2⟩)
    reclaims attributesDone
  obtain ⟨items, itemsReclaims⟩ := inTurn_answered (bundle.Reclaims store)
    (fun sent outcome => outcome.IsNoop ∧ Mention.Linked store ⟨.newsItem, sent⟩)
    (fun sent listed before outcome next kept once => by
      obtain ⟨_, _, committed, _⟩ := applyItem_eq_ok once
      exact ⟨(kept.apply registered current (StoryBundle.item_mem_mentions listed) committed).2,
        (keeps.item registered listed kept.recorded.rows kept once).2⟩)
    attributesReclaims itemsDone
  have story : (⟨.story, bundle.sent⟩ : Mention) ∈ bundle.mentions := List.mem_cons_self
  obtain ⟨_, storyNoop, storyLinked⟩ := itemsReclaims.apply registered current story storyDone
  refine ⟨⟨storyNoop, ?_, ?_⟩, StoryBundle.forall_mentions.mpr ⟨storyLinked, ?_, ?_⟩⟩
  · intro outcome answered
    obtain ⟨_, _, noop, _⟩ := exists_of_forall₂ items.flip answered
    exact noop
  · intro outcome answered
    obtain ⟨_, _, noop, _⟩ := exists_of_forall₂ attributes.flip answered
    exact noop
  · intro sent listed
    obtain ⟨_, _, _, linked⟩ := exists_of_forall₂ items listed
    exact linked
  · intro sent listed
    obtain ⟨_, _, _, linked⟩ := exists_of_forall₂ attributes listed
    exact linked

end Env

end Sharing

/-! ## Stories that can do without an item -/

/-- A story can be written without some of its items: the clock has a time for it, its members are of
the right kinds, and its version can rise so far. -/
structure Env.Releases (env : Env) (store : Store) (room : Nat) (other : EntityId) : Prop where
  started : ¬ env.now < 0
  linked : ∀ row, store.row? other = some row →
    store.memberFault? (standard .story) row.content = none
  bounded : store.counter other + room < versionLimit

/-- As long as a story lists one of some items, it has had fewer new versions than it lists of
them in the beginning. -/
theorem EntityRow.Without.version_lt {row next : EntityRow} {lost items : List EntityId}
    (without : row.Without next lost) (own : ∀ item ∈ lost, item ∈ items)
    (sum : next.version + (next.content.members itemRelation).length =
      row.version + (row.content.members itemRelation).length)
    {item : EntityId} (listed : item ∈ next.content.members itemRelation) (among : item ∈ items) :
    next.version < row.version +
      ((row.content.members itemRelation).filter fun item => decide (item ∈ items)).length := by
  have others : ((next.content.members itemRelation).filter fun item => !decide (item ∈ items)) =
      (row.content.members itemRelation).filter fun item => !decide (item ∈ items) := by
    rw [without.items_eq, List.filter_filter]
    refine List.filter_congr fun member _ => ?_
    by_cases isOwn : member ∈ items
    · simp [isOwn]
    · have kept : member ∉ lost := fun gone => isOwn (own member gone)
      simp [isOwn, kept]
  have nextParts := List.length_eq_length_filter_add (l := next.content.members itemRelation)
    fun item => decide (item ∈ items)
  have rowParts := List.length_eq_length_filter_add (l := row.content.members itemRelation)
    fun item => decide (item ∈ items)
  have positive : 0 < ((next.content.members itemRelation).filter fun item =>
      decide (item ∈ items)).length :=
    List.length_pos_of_mem (List.mem_filter.mpr ⟨listed, decide_eq_true among⟩)
  rw [others] at nextParts
  omega

section Releasing

variable {store state : Store} {bundle : StoryBundle} {other : EntityId} {env : Env}
  {attribution : Attribution}

/-- A story that can do without the items, with room enough, loses each of them when it is sent with
the other. -/
theorem StoryBundle.Reclaims.detach_carried (reclaims : bundle.Reclaims store state)
    (registered : env.registry = .standard) {item : Bundle} (listed : item ∈ bundle.items)
    (shared : bundle.SharedBy store other)
    (releases : env.Releases store
      (store.itemsAmong other (bundle.items.map Bundle.id)).length other) :
    ∃ outcome next, env.detach item.id attribution other state = .ok (outcome, next) := by
  have rows := reclaims.recorded.rows
  obtain ⟨row, found, story, notDeleted⟩ := shared.exists_row reclaims.sound
  obtain ⟨last, lost, lastFound, without, own, sum⟩ := reclaims.lost other row shared found
  have lastKind := without.kind_eq.trans story
  have lastLive := without.deleted_eq.trans notDeleted
  obtain ⟨proposed, loses, accepted, commits⟩ :=
    Env.detach_eq_apply registered rows lastFound lastKind lastLive item.id attribution
  have admits : state.Admits .story other (some proposed) := by
    refine ⟨?_, ?_, ?_, fun _ => Option.some_ne_none _⟩
    · rintro _ ⟨⟩
      exact accepted
    · rintro _ ⟨⟩
      rw [Store.memberFault?_congr reclaims.kinds]
      exact Store.memberFault?_of_fewer (releases.linked row found) fun relation member named =>
        without.mem_members (loses.mem_members_iff.mp named).1
    · intro again againFound
      cases lastFound.symm.trans againFound
      exact ⟨lastKind, lastLive⟩
  have bounded : (Env.changeTo state .story other (some proposed)).isMaterial = true →
      state.counter other + 1 < versionLimit := by
    intro material
    -- nothing is written unless the story still lists the item
    have lists : item.id ∈ last.content.members itemRelation := by
      by_contra absent
      have immaterial := (admits.immaterial_iff rows).mpr
        ((Store.reflects_some_iff lastFound).mpr (loses.normal_eq absent .story))
      exact Bool.noConfusion (material.symm.trans immaterial)
    have enough := releases.bounded
    rw [Store.counter_of_row? found, Store.itemsAmong_of_row? found] at enough
    rw [Store.counter_of_row? lastFound]
    have earlier := without.version_lt own sum lists (List.mem_map_of_mem listed)
    omega
  rw [commits]
  exact Env.apply_carried registered releases.started reclaims.chained admits bounded

namespace Env

/-- A story that was read is applied if its members are of the right kinds and other stories can do
without its items, with room enough. -/
theorem applyStory_carried (registered : env.registry = .standard) (current : bundle.Current store)
    (reclaims : bundle.Reclaims store state)
    (linked : ∀ mention ∈ bundle.mentions, mention.Linked store)
    (releases : ∀ other, bundle.SharedBy store other →
      env.Releases store (store.itemsAmong other (bundle.items.map Bundle.id)).length other) :
    ∃ applied after, env.applyStory attribution bundle state = .ok (applied, after) := by
  have commits (before : Store) (kept : bundle.Reclaims store before) (mention : Mention)
      (listed : mention ∈ bundle.mentions) : ∃ outcome, env.apply mention.kind mention.sent.id
        (some mention.sent.content) attribution before = .ok (outcome, before) ∧ outcome.IsNoop :=
    kept.apply_carried registered current listed (linked mention listed)
  have items : ∀ item ∈ bundle.items, ∀ before, bundle.Reclaims store before →
      ∃ outcome next, env.applyItem bundle.id attribution item before = .ok (outcome, next) ∧
        True ∧ bundle.Reclaims store next := by
    intro item listed before kept
    obtain ⟨outcome, committed, _⟩ := commits before kept _ (StoryBundle.item_mem_mentions listed)
    have leaves : ∀ owner ∈ (before.owners item.id itemRelation).filter
        (fun owner => owner ≠ bundle.id), ∀ between, bundle.Reclaims store between →
        ∃ outcome next, env.detach item.id attribution owner between = .ok (outcome, next) ∧
          True ∧ bundle.Reclaims store next := by
      intro owner owns between still
      obtain ⟨isOwner, different⟩ := List.mem_filter.mp owns
      have shared : bundle.SharedBy store owner :=
        ⟨of_decide_eq_true different, item, listed, kept.mem_owners isOwner⟩
      obtain ⟨outcome, next, detached⟩ :=
        still.detach_carried registered listed shared (releases owner shared)
      exact ⟨outcome, next, detached, trivial, still.detach registered listed shared detached⟩
    obtain ⟨outcomes, next, detached, _, keptNext⟩ := inTurn_carried _ _ leaves kept
    refine ⟨outcome, next, ?_, trivial, keptNext⟩
    unfold applyItem
    simp only [bind_eq_ok, Prod.exists]
    exact ⟨outcome, before, committed, outcomes, next, detached, rfl⟩
  have attributes : ∃ outcomes, inTurn
      (fun sent : Bundle => env.apply .attr sent.id (some sent.content) attribution)
      bundle.attributes state = .ok (outcomes, state) ∧ ∀ outcome ∈ outcomes, outcome.IsNoop :=
    inTurn_still fun sent listed => commits state reclaims _ (StoryBundle.attr_mem_mentions listed)
  obtain ⟨attributeOutcomes, attributesDone, _⟩ := attributes
  obtain ⟨itemOutcomes, afterItems, itemsDone, _, itemsReclaims⟩ :=
    inTurn_carried _ _ items reclaims
  obtain ⟨storyOutcome, storyDone, _⟩ :=
    commits afterItems itemsReclaims ⟨.story, bundle.sent⟩ List.mem_cons_self
  refine ⟨⟨storyOutcome, itemOutcomes, attributeOutcomes⟩, afterItems, ?_⟩
  unfold applyStory
  simp only [bind_eq_ok, Prod.exists]
  exact ⟨attributeOutcomes, state, attributesDone, itemOutcomes, afterItems, itemsDone,
    storyOutcome, afterItems, storyDone, rfl⟩

/-- A story that shares an item is as it was until it is written, and can be written then. -/
theorem keeps_releasable (registered : env.registry = .standard) (current : bundle.Current store)
    {row : EntityRow} (story : row.kind = .story) (live : row.deleted = false) :
    Keeps env attribution bundle fun state => bundle.Reclaims store state ∧
      (state.row? other = some row ∨
        ¬ env.now < 0 ∧ store.memberFault? (standard .story) row.content = none) := by
  have keeps : Keeps env attribution bundle (bundle.Reclaims store) :=
    keeps_reclaims registered current
  constructor
  · rintro mention listed before outcome next sound ⟨reclaims, still⟩ applied
    obtain ⟨rfl, _⟩ := reclaims.apply registered current listed applied
    exact ⟨reclaims, still⟩
  · rintro item listed owner different earlier before outcome next ⟨earlierReclaims, _⟩ owns sound
      ⟨reclaims, still⟩ detached
    refine ⟨keeps.detach item listed owner different earlier before outcome next earlierReclaims owns
      sound reclaims detached, ?_⟩
    rcases still with same | able
    · by_cases here : other = owner
      · subst here
        obtain ⟨proposed, loses, _, commits⟩ :=
          detach_eq_apply registered sound same story live item.id attribution
        rw [commits] at detached
        obtain ⟨admits, applies⟩ := apply_applies registered sound detached
        cases applies with
        | unchanged immaterial => exact Or.inl same
        | written material next writes =>
            refine Or.inr ⟨writes.started, loses.memberFault?_eq_none ?_ ?_⟩
            · intro itemRow itemFound
              exact (current.settled _ (StoryBundle.item_mem_mentions listed)).kind_eq itemFound
            · rw [← Store.memberFault?_congr reclaims.kinds]
              exact admits.members proposed rfl
      · refine Or.inl ?_
        rw [detach_row?_of_ne registered sound detached here, same]
    · exact Or.inr able

end Env

end Releasing

/-! ## A submission of one story -/

theorem Submission.mentions_alone (scope : Scope) (actor : Actor) (bundle : StoryBundle) :
    Submission.mentions ⟨scope, actor, [bundle]⟩ = bundle.mentions := List.append_nil _

theorem Submission.itemIds_alone (scope : Scope) (actor : Actor) (bundle : StoryBundle) :
    Submission.itemIds ⟨scope, actor, [bundle]⟩ = bundle.items.map Bundle.id := List.append_nil _

namespace Env

variable {env : Env} {scope : Scope} {actor : Actor} {store judged after : Store}
  {bundle : StoryBundle}

theorem Judges.reclaims {submission : Submission} {answers : List (Option ConflictSummary)}
    (judges : env.Judges submission store answers judged) (registered : env.registry = .standard)
    (chained : store.Chained) (bundle : StoryBundle) : bundle.Reclaims store judged :=
  .of_keepsRecords chained.traced.recorded.rows
    (chained.along registered (.of_inTurn (fun _ _ _ _ => take_trail) judges.taken))
    (inTurn_take_keepsRecords judges.taken) bundle

/-- A story that was accepted alone has been judged, and then applied. -/
theorem submit_alone_eq_ok (registered : env.registry = .standard) {applied : List AppliedStory} :
    env.submit ⟨scope, actor, [bundle]⟩ store = (.ok applied, after) ↔
      ∃ answers judged story, env.Judges ⟨scope, actor, [bundle]⟩ store answers judged ∧
        (∀ answer ∈ answers, answer = none) ∧
        env.applyStory ⟨actor, .external scope⟩ bundle judged = .ok (story, after) ∧
        applied = [story] := by
  rw [submit_eq_ok registered]
  constructor
  · rintro ⟨answers, judged, judges, quiet, done⟩
    obtain ⟨story, _, _, once, rest, rfl⟩ := inTurn_cons_eq_ok.mp done
    obtain ⟨rfl, rfl⟩ := inTurn_nil_eq_ok.mp rest
    exact ⟨answers, judged, story, judges, quiet, once, rfl⟩
  · rintro ⟨answers, judged, story, judges, quiet, once, rfl⟩
    exact ⟨answers, judged, judges, quiet,
      inTurn_cons_eq_ok.mpr ⟨story, after, [], once, inTurn_nil_eq_ok.mpr ⟨rfl, rfl⟩, rfl⟩⟩

/-- A story that shared items has lost all of them, and its version and the number of its items have
kept their sum. -/
theorem applyStory_lost (registered : env.registry = .standard) (current : bundle.Current store)
    (sound : store.SoundRows) (recorded : judged.Recorded) (kept : store.KeepsRecords judged)
    {attribution : Attribution} {applied : AppliedStory}
    (done : env.applyStory attribution bundle judged = .ok (applied, after)) {other : EntityId}
    {row : EntityRow} (shared : bundle.SharedBy store other) (found : store.row? other = some row) :
    ∃ next, after.row? other = some next ∧ row.Without next (bundle.items.map Bundle.id) ∧
      next.version = row.version + (store.itemsAmong other (bundle.items.map Bundle.id)).length := by
  have unnamed : (row.kind, other) ∉ bundle.mentions.map Mention.name := by
    intro named
    obtain ⟨mention, listed, same⟩ := List.mem_map.mp named
    refine current.not_sharedBy sound listed ?_
    rwa [show mention.sent.id = other from congrArg Prod.snd same]
  have alone : inTurn (env.applyStory attribution) (Submission.mk "" "" [bundle]).stories judged =
      .ok ([applied], after) := inTurn_cons_eq_ok.mpr ⟨applied, after, [], done, rfl, rfl⟩
  obtain ⟨next, nextFound, without, version⟩ := applyStories_losses registered
    (by rw [Submission.mentions_alone]; exact current.once) recorded alone
    ((kept.row?_eq other).trans found) (by rw [Submission.mentions_alone]; exact unnamed)
  rw [Submission.itemIds_alone] at without version
  refine ⟨next, nextFound, without, ?_⟩
  rw [version, Store.itemsAmong_of_row? found]

/-- What shared items with a story that was applied could do without them, and had a version left. -/
theorem releases_of_applied (registered : env.registry = .standard) (current : bundle.Current store)
    (reclaims : bundle.Reclaims store judged) (kept : store.KeepsRecords judged)
    {attribution : Attribution} {applied : AppliedStory}
    (done : env.applyStory attribution bundle judged = .ok (applied, after)) {other : EntityId}
    (shared : bundle.SharedBy store other) : env.Releases store 1 other := by
  obtain ⟨row, found, story, live⟩ := shared.exists_row reclaims.sound
  obtain ⟨next, nextFound, without, version⟩ :=
    applyStory_lost registered current reclaims.sound reclaims.recorded kept done shared found
  obtain ⟨afterSound, _, still⟩ :=
    (keeps_releasable registered current story live).applyStory registered
      reclaims.recorded.rows ⟨reclaims, Or.inl ((kept.row?_eq other).trans found)⟩ done
  have written : ¬ env.now < 0 ∧ store.memberFault? (standard .story) row.content = none := by
    refine still.resolve_left fun same => ?_
    cases nextFound.symm.trans same
    exact shared.row_ne found without rfl
  refine ⟨written.1, fun again againFound => ?_, ?_⟩
  · cases found.symm.trans againFound
    exact written.2
  · rw [Store.counter_of_row? found]
    have positive := shared.itemsAmong_pos
    have below := (afterSound other next nextFound).bounded
    omega

end Env

/-- What comes of a story that is sent back as it was read. -/
structure StoryBundle.SentBack (env : Env) (scope : Scope) (actor : Actor) (store : Store)
    (bundle : StoryBundle) : Prop where
  /-- It is accepted only if the members of its records are of the right kinds, and every other story
  that lists one of its items can do without. -/
  needs : ∀ applied after, env.submit ⟨scope, actor, [bundle]⟩ store = (.ok applied, after) →
    (∀ mention ∈ bundle.mentions, mention.Linked store) ∧
      ∀ other, bundle.SharedBy store other → env.Releases store 1 other
  /-- Then it is accepted, unless another story has hardly any versions left. -/
  accepted : (∀ mention ∈ bundle.mentions, mention.Linked store) →
    (∀ other, bundle.SharedBy store other →
      env.Releases store (store.itemsAmong other (bundle.items.map Bundle.id)).length other) →
    ∃ applied after, env.submit ⟨scope, actor, [bundle]⟩ store = (.ok applied, after)
  /-- Nothing of it is changed, -/
  noop : ∀ applied after, env.submit ⟨scope, actor, [bundle]⟩ store = (.ok applied, after) →
    ∀ story ∈ applied, story.IsNoop
  /-- but the other stories lose exactly its items, and their versions rise. -/
  shared : ∀ applied after, env.submit ⟨scope, actor, [bundle]⟩ store = (.ok applied, after) →
    ∀ other row, bundle.SharedBy store other → store.row? other = some row →
      ∃ next, after.row? other = some next ∧ row.Without next (bundle.items.map Bundle.id) ∧
        row.version < next.version
  /-- All other records keep their states, versions and histories, whatever the answer is. -/
  elsewhere : store.AgreesOn (fun other => ¬ bundle.SharedBy store other)
    (env.submit ⟨scope, actor, [bundle]⟩ store).2
  /-- So no record at all is changed if no other story lists an item of it. -/
  unchanged_iff :
    (∃ applied after, env.submit ⟨scope, actor, [bundle]⟩ store = (.ok applied, after) ∧
        (∀ story ∈ applied, story.IsNoop) ∧ store.AgreesOn (fun _ => True) after) ↔
      (∀ mention ∈ bundle.mentions, mention.Linked store) ∧
        ∀ item ∈ bundle.items, store.ListedOnlyBy item.id bundle.id

namespace StoryBundle.Current

variable {env : Env} {store after : Store} {bundle : StoryBundle} {scope : Scope} {actor : Actor}

theorem submit_back_needs (current : bundle.Current store) (registered : env.registry = .standard)
    (chained : store.Chained) {applied : List AppliedStory}
    (accepted : env.submit ⟨scope, actor, [bundle]⟩ store = (.ok applied, after)) :
    (∀ mention ∈ bundle.mentions, mention.Linked store) ∧
      ∀ other, bundle.SharedBy store other → env.Releases store 1 other := by
  obtain ⟨_, judged, story, judges, _, done, rfl⟩ := (Env.submit_alone_eq_ok registered).mp accepted
  have reclaims := judges.reclaims registered chained bundle
  exact ⟨(Env.applyStory_noop registered current reclaims done).2, fun other shared =>
    Env.releases_of_applied registered current reclaims (Env.inTurn_take_keepsRecords judges.taken)
      done shared⟩

theorem submit_back_accepted (current : bundle.Current store) (registered : env.registry = .standard)
    (disputed : store.Disputed) (chained : store.Chained)
    (linked : ∀ mention ∈ bundle.mentions, mention.Linked store)
    (releases : ∀ other, bundle.SharedBy store other →
      env.Releases store (store.itemsAmong other (bundle.items.map Bundle.id)).length other) :
    ∃ applied after, env.submit ⟨scope, actor, [bundle]⟩ store = (.ok applied, after) := by
  obtain ⟨answers, judged, judges, quiet⟩ := Env.judges_settled registered disputed
    ⟨scope, actor, [bundle]⟩ (by rw [Submission.mentions_alone]; exact current.accepted)
    (by rw [Submission.mentions_alone]; exact current.settled)
  obtain ⟨story, after, done⟩ := Env.applyStory_carried registered current
    (judges.reclaims registered chained bundle) linked releases
  exact ⟨[story], after, (Env.submit_alone_eq_ok registered).mpr
    ⟨answers, judged, story, judges, quiet, done, rfl⟩⟩

theorem elsewhere (current : bundle.Current store) (registered : env.registry = .standard)
    (chained : store.Chained) : store.AgreesOn (fun other => ¬ bundle.SharedBy store other)
      (env.submit ⟨scope, actor, [bundle]⟩ store).2 := by
  cases answered : env.submit ⟨scope, actor, [bundle]⟩ store with
  | mk answer after =>
      cases answer with
      | ok applied =>
          obtain ⟨_, judged, story, judges, _, done, rfl⟩ :=
            (Env.submit_alone_eq_ok registered).mp answered
          have reclaims := judges.reclaims registered chained bundle
          exact ((Env.keeps_reclaims registered current).applyStory registered reclaims.recorded.rows
            reclaims done).2.elsewhere
      | error refusal =>
          by_cases told : ∃ conflicts, refusal = .conflicting conflicts
          · obtain ⟨conflicts, rfl⟩ := told
            obtain ⟨_, answers, judges, _⟩ := (Env.submit_eq_conflicting registered).mp answered
            exact (Env.inTurn_take_keepsRecords judges.taken).agreesOn _
          · have same : after = store := by
              have refused := Env.submit_of_refused (congrArg Prod.fst answered)
                fun conflicts same => told ⟨conflicts, same⟩
              rwa [answered] at refused
            rw [same]
            exact .refl _ store

/-- A story that is sent as it is stored. -/
theorem submit_back (current : bundle.Current store) (registered : env.registry = .standard)
    (disputed : store.Disputed) (chained : store.Chained) (scope : Scope) (actor : Actor) :
    bundle.SentBack env scope actor store := by
  have noop : ∀ applied after, env.submit ⟨scope, actor, [bundle]⟩ store = (.ok applied, after) →
      ∀ story ∈ applied, story.IsNoop := by
    intro applied after accepted
    obtain ⟨_, judged, story, judges, _, done, rfl⟩ := (Env.submit_alone_eq_ok registered).mp accepted
    have reclaims := judges.reclaims registered chained bundle
    exact List.forall_mem_singleton.mpr (Env.applyStory_noop registered current reclaims done).1
  have lost : ∀ applied after, env.submit ⟨scope, actor, [bundle]⟩ store = (.ok applied, after) →
      ∀ other row, bundle.SharedBy store other → store.row? other = some row →
        ∃ next, after.row? other = some next ∧ row.Without next (bundle.items.map Bundle.id) ∧
          row.version < next.version := by
    intro applied after accepted other row shared found
    obtain ⟨_, judged, story, judges, _, done, rfl⟩ := (Env.submit_alone_eq_ok registered).mp accepted
    have reclaims := judges.reclaims registered chained bundle
    obtain ⟨next, nextFound, without, version⟩ := Env.applyStory_lost registered current
      reclaims.sound reclaims.recorded (Env.inTurn_take_keepsRecords judges.taken) done shared found
    have positive := shared.itemsAmong_pos
    exact ⟨next, nextFound, without, by omega⟩
  have elsewhere : store.AgreesOn (fun other => ¬ bundle.SharedBy store other)
      (env.submit ⟨scope, actor, [bundle]⟩ store).2 := current.elsewhere registered chained
  refine ⟨fun _ _ => current.submit_back_needs registered chained,
    current.submit_back_accepted registered disputed chained, noop, lost, elsewhere, ?_⟩
  rw [← StoryBundle.not_sharedBy_iff]
  constructor
  · rintro ⟨applied, after, accepted, _, agrees⟩
    refine ⟨(current.submit_back_needs registered chained accepted).1, fun other shared => ?_⟩
    obtain ⟨row, found, _⟩ := shared.exists_row chained.traced.recorded.rows
    obtain ⟨next, nextFound, without, _⟩ := lost applied after accepted other row shared found
    rw [agrees.rows other trivial, found] at nextFound
    cases nextFound
    exact shared.row_ne found without rfl
  · rintro ⟨linked, unshared⟩
    obtain ⟨applied, after, accepted⟩ := current.submit_back_accepted registered disputed chained linked
      fun other shared => absurd shared (unshared other)
    rw [accepted] at elsewhere
    exact ⟨applied, after, accepted, noop applied after accepted,
      elsewhere.mono fun other _ => unshared other⟩

end StoryBundle.Current

/-- In every store that a run can lead to, a live story is read as it is stored, and this is what
comes of it if it is sent back as it was read, by whom and at what time ever. -/
theorem Reachable.sent_back {store : Store} (reachable : Reachable .standard store) {env later : Env}
    (registered : env.registry = .standard) (laterRegistered : later.registry = .standard)
    {id : EntityId} {bundle : StoryBundle} (read : env.storyBundleOf store id = .ok bundle)
    (scope : Scope) (actor : Actor) :
    bundle.id = id ∧ bundle.SentBack later scope actor store := by
  obtain ⟨same, current⟩ := Env.storyBundleOf_current registered reachable.sound.1 read
  exact ⟨same, current.submit_back laterRegistered (Trail.of_run reachable).disputed
    reachable.chained scope actor⟩

/-- A store with an item that two stories list. -/
def Store.withSharedItem : Store :=
  Operation.perform ⟨.standard, 3, 0⟩ .withFiledItem
    (.commit .story ⟨⟨3⟩⟩ (some ⟨.ofList [("title", .text "second")],
      .ofList [("news_items", [⟨⟨1⟩⟩])]⟩) ⟨"editor", .direct⟩)

/-- The first of them as it is read. -/
def StoryBundle.filed : StoryBundle :=
  ⟨⟨⟨2⟩⟩, some 1, ⟨.ofList [("title", .text "first")], .empty⟩,
    [⟨⟨⟨1⟩⟩, some 1, ⟨.ofList [("title", .text "item")], .empty⟩⟩], []⟩

theorem StoryBundle.read_filed :
    Env.storyBundleOf ⟨.standard, 3, 0⟩ .withSharedItem ⟨⟨2⟩⟩ = .ok .filed :=
  eq_ok_of_toOption (by decide +kernel)

/-- The first story is sent back without effect, and the second loses the item. -/
theorem sent_back_withSharedItem :
    Reachable .standard .withSharedItem ∧
    Env.storyBundleOf ⟨.standard, 3, 0⟩ .withSharedItem ⟨⟨2⟩⟩ = .ok .filed ∧
    StoryBundle.filed.SentBack ⟨.standard, 7, 1⟩ "feed" "collector" .withSharedItem ∧
    ∃ applied after, Env.submit ⟨.standard, 7, 1⟩ ⟨"feed", "collector", [.filed]⟩ .withSharedItem =
        (.ok applied, after) ∧
      (∀ story ∈ applied, story.IsNoop) ∧ after.counter ⟨⟨3⟩⟩ = 2 := by
  have reachable : Reachable .standard .withSharedItem :=
    .step (reachable_following ⟨.standard, 3, 0⟩ _) 3 0 _
  have sentBack : StoryBundle.filed.SentBack ⟨.standard, 7, 1⟩ "feed" "collector" .withSharedItem :=
    (reachable.sent_back rfl rfl StoryBundle.read_filed "feed" "collector").2
  have carried : (Env.submit ⟨.standard, 7, 1⟩ ⟨"feed", "collector", [.filed]⟩
      .withSharedItem).1.isOk = true := by decide +kernel
  have written : (Env.submit ⟨.standard, 7, 1⟩ ⟨"feed", "collector", [.filed]⟩
      .withSharedItem).2.counter ⟨⟨3⟩⟩ = 2 := by decide +kernel
  obtain ⟨applied, accepted⟩ := exists_applied_of_isOk carried
  exact ⟨reachable, StoryBundle.read_filed, sentBack, applied, _, Prod.ext accepted rfl,
    sentBack.noop applied _ (Prod.ext accepted rfl), written⟩

/-- So it is not true that no record is changed by what is sent back. -/
theorem not_sent_back_unchanged :
    ¬ ∀ (store : Store) (env later : Env) (id : EntityId) (bundle : StoryBundle) (scope : Scope)
      (actor : Actor), Reachable .standard store → env.registry = .standard →
      later.registry = .standard → env.storyBundleOf store id = .ok bundle →
      ∃ applied after, later.submit ⟨scope, actor, [bundle]⟩ store = (.ok applied, after) ∧
        (∀ story ∈ applied, story.IsNoop) ∧ store.AgreesOn (fun _ => True) after := by
  intro unchanged
  obtain ⟨applied, after, accepted, _, agrees⟩ := unchanged .withSharedItem ⟨.standard, 3, 0⟩
    ⟨.standard, 7, 1⟩ ⟨⟨2⟩⟩ .filed "feed" "collector"
    (.step (reachable_following ⟨.standard, 3, 0⟩ _) 3 0 _) rfl rfl StoryBundle.read_filed
  have same := congrArg (Option.map EntityRow.version) (agrees.rows ⟨⟨3⟩⟩ trivial)
  rw [show after = (Env.submit ⟨.standard, 7, 1⟩ ⟨"feed", "collector", [.filed]⟩
    .withSharedItem).2 by rw [accepted]] at same
  revert same
  decide +kernel

end Chronicle
