import Chronicle.Proofs.Chains
import Mathlib.Data.List.Nodup

/-!
# Members that are accounted for

Where a relation has a log, each member that comes or leaves with a version is told of exactly once:
by a link row if it is live, and in the answer if it is not (`Env.Writes.accounts`). Nothing else
tells of a member, and nothing that belongs to another record is touched. Under the standard
registry this is what every commit comes down to that finds something to change
(`Reachable.commit_accounts`).
-/

namespace Chronicle

open Descriptor (standard)

/-! ## Links that are left out -/

/-- What is told of a member that is not live. -/
def LinkEvent.skip (event : LinkEvent) (owner : EntityId) : SkippedLink :=
  ⟨event.relation, owner, event.member⟩

namespace Env

section Writing

variable {env : Env} {owner : EntityId} {version : Nat} {actor : Actor} {now : Int64}

/-- A member is told of in the answer exactly if it is not live. -/
theorem writeLink_skipped {event : LinkEvent} {store after : Store} {skipped : Option SkippedLink}
    (written : env.writeLink owner version actor now event store = .ok (skipped, after)) :
    skipped = if (store.liveVersion? event.member).isNone then some (event.skip owner) else none := by
  unfold writeLink at written
  split at written
  · rename_i absent
    cases written
    rw [absent]
    rfl
  · rename_i memberVersion live
    simp only [bind_eq_ok, ofStore_eq_ok, pure_eq_ok, Prod.mk.injEq] at written
    obtain ⟨_, _, _, _, rfl, _⟩ := written
    rw [live]
    rfl

theorem writeLinks_skipped {events : List LinkEvent} {store after : Store}
    {skipped : List (Option SkippedLink)}
    (carried : inTurn (env.writeLink owner version actor now) events store = .ok (skipped, after)) :
    (skipped.filterMap fun link => link) =
      (events.filter fun event => (store.liveVersion? event.member).isNone).map
        fun event => event.skip owner := by
  induction events generalizing store skipped with
  | nil =>
      obtain ⟨rfl, _⟩ := inTurn_nil_eq_ok.mp carried
      rfl
  | cons event rest ih =>
      obtain ⟨first, next, others, written, later, rfl⟩ := inTurn_cons_eq_ok.mp carried
      -- link rows do not tell which records are live
      have live (member : EntityId) : next.liveVersion? member = store.liveVersion? member := by
        rw [writeLink_frame written]
        rfl
      have tail := ih later
      simp only [live] at tail
      rw [writeLink_skipped written, List.filter_cons]
      cases (store.liveVersion? event.member).isNone with
      | true => exact congrArg (event.skip owner :: ·) tail
      | false => exact tail

/-- A link row is added to those of its owner, in the table of its log. -/
theorem writeLink_elsewhere {event : LinkEvent} {store after : Store} {skipped : Option SkippedLink}
    (own : env.registry.linkTable event.log = .own event.log.table)
    (written : env.writeLink owner version actor now event store = .ok (skipped, after))
    (key : String × EntityId × EntityId × Nat)
    (elsewhere : key.1 = event.log.table → key.2.1 ≠ owner) :
    after.links.get? key = store.links.get? key ∧ after.places.get? key = store.places.get? key := by
  unfold writeLink at written
  split at written
  · cases written
    exact ⟨rfl, rfl⟩
  · simp only [bind_eq_ok, ofStore_eq_ok, pure_eq_ok, Prod.mk.injEq, own] at written
    obtain ⟨last, _, next, inserted, _, rfl⟩ := written
    simp only [Store.insertLink, bind_eq_ok] at inserted
    obtain ⟨_, _, _, _, _, _, inserted⟩ := inserted
    change (if _ then _ else _) = _ at inserted
    split at inserted
    · cases inserted
    · cases inserted
      have apart : key ≠ (event.log.table, owner, event.member, last + 1) := by
        rintro rfl
        exact elsewhere rfl rfl
      exact ⟨Dict.get?_insert_of_ne _ apart _, Dict.get?_insert_of_ne _ apart _⟩

end Writing

end Env

/-! ## What a version comes down to -/

/-- A member is listed under a relation on one side only. -/
def Content.moves (before after : Content) (relation : String) (member : EntityId) : Bool :=
  decide (member ∈ before.members relation) != decide (member ∈ after.members relation)

namespace Content

variable {before after : Content} {relation : String} {member : EntityId}

theorem moves_eq_true_iff : before.moves after relation member = true ↔
    ¬ (member ∈ before.members relation ↔ member ∈ after.members relation) := by
  rw [moves, bne_iff_ne, ne_eq, decide_eq_decide]

/-- A member of a link comes if the link is new, and leaves otherwise. -/
theorem moves_of_link {linked : Bool} (inNew : member ∈ after.members relation ↔ linked = true)
    (inOld : member ∈ before.members relation ↔ linked = false) :
    before.moves after relation member = true := by
  rw [moves_eq_true_iff, inNew, inOld]
  cases linked <;> simp

end Content

namespace Env

/-- All that is different after a version of a record. `accounted` says of each relation with a log
that a member that comes or leaves is told of once, by a new link row of this version or in the
answer, and that no other member is. -/
structure Accounts (env : Env) (kind : Kind) (id : EntityId) (proposed : Option Content)
    (attribution : Attribution) (version : Nat) (store : Store) (outcome : Outcome)
    (after : Store) : Prop where
  told : outcome.id = id ∧ outcome.kind = kind ∧ outcome.version = version ∧
    outcome.change = changeTo store kind id proposed
  row : after.row? id = some (versionRow env store kind id proposed version)
  otherRows : ∀ other, other ≠ id → after.row? other = store.row? other
  free : store.recorded? kind id version = none
  snapshots : after.snapshots = store.snapshots.insert ((standard kind).historyTable, id, version)
    (versionSnapshot env store kind id proposed attribution version)
  accounted : ∀ relation log, (standard kind).log? relation = some log → ∀ member,
    ∃ added, after.linkRows log.table id member = store.linkRows log.table id member ++ added ∧
      added.length + outcome.skipped.count ⟨relation, id, member⟩ =
        (((store.stored? id).getD .empty).moves (proposed.getD .empty) relation member).toNat ∧
      ∀ link ∈ added, link.ownerVersion = version ∧
        after.liveVersion? member = some link.memberVersion ∧
        (link.linked = true ↔ member ∈ (proposed.getD .empty).members relation)
  skipped : ∀ skip ∈ outcome.skipped, skip.owner = id ∧
    ((standard kind).log? skip.relation).isSome = true
  otherLinks : ∀ key : String × EntityId × EntityId × Nat,
    (key.2.1 = id → ∀ relation log, (standard kind).log? relation = some log → log.table ≠ key.1) →
    after.links.get? key = store.links.get? key ∧ after.places.get? key = store.places.get? key
  conflicts : after.conflicts = store.conflicts
  supply : after.supply = store.supply

namespace Writes

variable {env : Env} {kind : Kind} {id : EntityId} {proposed : Option Content}
  {attribution : Attribution} {version : Nat} {store after : Store} {outcome : Outcome}

/-- The answer tells of the members that come or leave and are not live. -/
theorem skipped_eq (writes : Writes env kind id proposed attribution version store outcome after) :
    outcome.skipped =
      (((standard kind).linkEvents (changeTo store kind id proposed)).filter fun event =>
        (after.liveVersion? event.member).isNone).map fun event => event.skip id := by
  obtain ⟨skipped, carried, rfl⟩ := writes.links
  have live (member : EntityId) : after.liveVersion? member =
      (versioned env store kind id proposed attribution version).liveVersion? member := by
    rw [writes.frame]
    rfl
  simp only [live]
  exact writeLinks_skipped carried

theorem mem_skipped_iff (admits : store.Admits kind id proposed)
    (writes : Writes env kind id proposed attribution version store outcome after)
    {skip : SkippedLink} :
    skip ∈ outcome.skipped ↔ skip.owner = id ∧
      ((standard kind).log? skip.relation).isSome = true ∧
      after.liveVersion? skip.member = none ∧
      ((store.stored? id).getD .empty).moves (proposed.getD .empty) skip.relation skip.member =
        true := by
  rw [writes.skipped_eq, List.mem_map]
  simp only [List.mem_filter, mem_linkEvents_iff admits, members_versionContent,
    Option.isNone_iff_eq_none]
  constructor
  · rintro ⟨event, ⟨⟨logged, inNew, inOld⟩, absent⟩, rfl⟩
    exact ⟨rfl, Option.isSome_iff_exists.mpr ⟨_, logged⟩, absent, Content.moves_of_link inNew inOld⟩
  · obtain ⟨relation, owner, member⟩ := skip
    rintro ⟨rfl, logged, absent, moved⟩
    obtain ⟨log, logged⟩ := Option.isSome_iff_exists.mp logged
    refine ⟨⟨relation, log, member, decide (member ∈ (proposed.getD .empty).members relation)⟩,
      ⟨⟨logged, decide_eq_true_iff.symm, ?_⟩, absent⟩, rfl⟩
    rw [decide_eq_false_iff_not]
    exact (not_iff_comm.mp (not_iff.mp (Content.moves_eq_true_iff.mp moved))).symm

/-- Nobody is told of twice in one answer. -/
theorem skipped_nodup (admits : store.Admits kind id proposed)
    (writes : Writes env kind id proposed attribution version store outcome after) :
    outcome.skipped.Nodup := by
  rw [writes.skipped_eq, List.Nodup, List.pairwise_map]
  refine List.Pairwise.filter _ ?_
  refine List.Pairwise.imp_of_mem ?_
    (Descriptor.linkEvents_once kind _ _)
  intro first second firstListed secondListed apart same
  obtain ⟨sameRelation, _, sameMember⟩ := SkippedLink.mk.inj same
  have logged := ((mem_linkEvents_iff admits).mp firstListed).1
  have otherLogged := ((mem_linkEvents_iff admits).mp secondListed).1
  rw [sameRelation, otherLogged] at logged
  exact apart (congrArg LinkLog.table (Option.some.inj logged).symm) sameMember

/-- Link rows are added to those of the record, in the tables of its relations. -/
theorem links_elsewhere (registered : env.registry = .standard)
    (admits : store.Admits kind id proposed)
    (writes : Writes env kind id proposed attribution version store outcome after)
    {key : String × EntityId × EntityId × Nat}
    (elsewhere : key.2.1 = id → ∀ relation log, (standard kind).log? relation = some log →
      log.table ≠ key.1) :
    after.links.get? key = store.links.get? key ∧ after.places.get? key = store.places.get? key := by
  obtain ⟨skipped, carried, _⟩ := writes.links
  refine inTurn_keeps (motive := fun next => next.links.get? key = store.links.get? key ∧
    next.places.get? key = store.places.get? key) ?_ ⟨rfl, rfl⟩ carried
  intro event listed before result next kept written
  have logged := ((mem_linkEvents_iff admits).mp listed).1
  obtain ⟨links, places⟩ := writeLink_elsewhere (linkTable_of_event registered admits event listed)
    written key fun table own => elsewhere own _ _ logged table.symm
  exact ⟨links.trans kept.1, places.trans kept.2⟩

/-- A member that comes or leaves is told of once, and no other member is. -/
theorem accounted (registered : env.registry = .standard) (admits : store.Admits kind id proposed)
    (keyed : store.KeyedLinks)
    (writes : Writes env kind id proposed attribution version store outcome after)
    {relation : String} {log : LinkLog} (logged : (standard kind).log? relation = some log)
    (member : EntityId) (numbered : Store.Numbered (store.linkRows log.table id member)) :
    ∃ added, after.linkRows log.table id member = store.linkRows log.table id member ++ added ∧
      added.length + outcome.skipped.count ⟨relation, id, member⟩ =
        (((store.stored? id).getD .empty).moves (proposed.getD .empty) relation member).toNat ∧
      ∀ link ∈ added, link.ownerVersion = version ∧
        after.liveVersion? member = some link.memberVersion ∧
        (link.linked = true ↔ member ∈ (proposed.getD .empty).members relation) := by
  obtain ⟨added, rows, given, otherwise⟩ :=
    writes.exists_added registered admits keyed logged member numbered
  rw [members_versionContent] at given otherwise
  refine ⟨added.toList, rows, ?_, ?_⟩
  · have told : ⟨relation, id, member⟩ ∈ outcome.skipped ↔ _ := writes.mem_skipped_iff admits
    rw [logged] at told
    rw [(writes.skipped_nodup admits).count]
    cases added with
    | some link =>
        obtain ⟨_, _, live, inNew, inOld⟩ := given link rfl
        rw [if_neg fun listed => absurd (told.mp listed).2.2.1 (by rw [live]; exact nofun),
          Content.moves_of_link inNew inOld]
        rfl
    | none =>
        cases moved : ((store.stored? id).getD .empty).moves (proposed.getD .empty) relation
          member with
        | false =>
            rw [if_neg fun listed => absurd (told.mp listed).2.2.2 (by rw [moved]; exact nofun)]
            rfl
        | true =>
            have absent : after.liveVersion? member = none :=
              (otherwise rfl).resolve_right fun steady =>
                Content.moves_eq_true_iff.mp moved steady.symm
            rw [if_pos (told.mpr ⟨rfl, rfl, absent, moved⟩)]
            rfl
  · intro link listed
    obtain ⟨_, here, live, inNew, _⟩ := given link (Option.mem_toList.mp listed)
    exact ⟨here, live, inNew.symm⟩

/-- A version that has been written is accounted for. -/
theorem accounts (registered : env.registry = .standard) (admits : store.Admits kind id proposed)
    (keyed : store.KeyedLinks) (tallies : store.Tallies kind id)
    (writes : Writes env kind id proposed attribution version store outcome after) :
    Accounts env kind id proposed attribution version store outcome after where
  told := by
    obtain ⟨skipped, _, rfl⟩ := writes.links
    exact ⟨rfl, rfl, rfl, rfl⟩
  row := writes.row?_self
  otherRows := fun _ different => writes.row?_of_ne different
  free := writes.free
  snapshots := writes.snapshots
  accounted := fun relation log logged member =>
    writes.accounted registered admits keyed logged member (tallies.numbered relation log logged member)
  skipped := fun skip listed =>
    have told := (writes.mem_skipped_iff admits).mp listed
    ⟨told.1, told.2.1⟩
  otherLinks := fun _ elsewhere => writes.links_elsewhere registered admits elsewhere
  conflicts := writes.conflicts
  supply := writes.supply

end Writes

end Env

/-! ## Commits -/

namespace Env

variable {env : Env} {kind : Kind} {id : EntityId} {proposed : Option Content}
  {attribution : Attribution} {store after : Store} {outcome : Outcome}

/-- A commit leaves everything alone if the proposed content is held already, and otherwise adds
the next version. -/
theorem apply_accounts (registered : env.registry = .standard) (chained : store.Chained)
    (applied : env.apply kind id proposed attribution store = .ok (outcome, after)) :
    (store.Reflects kind id proposed →
      after = store ∧ outcome.version = store.counter id ∧ outcome.change.isMaterial = false ∧
        outcome.skipped = []) ∧
    (¬ store.Reflects kind id proposed →
      Accounts env kind id proposed attribution (store.counter id + 1) store outcome after) := by
  have recorded := chained.traced.recorded
  obtain ⟨admits, applies⟩ := apply_applies registered recorded.rows applied
  have immaterial_iff := admits.immaterial_iff recorded.rows
  cases applies with
  | unchanged immaterial =>
      exact ⟨fun _ => ⟨rfl, rfl, immaterial, rfl⟩,
        fun differs => absurd (immaterial_iff.mp immaterial) differs⟩
  | written material next writes =>
      refine ⟨fun reflects => ?_, fun _ => ?_⟩
      · rw [immaterial_iff.mpr reflects] at material
        cases material
      · rw [← recorded.next_version next]
        exact writes.accounts registered admits chained.keyed (chained.tallies admits)

end Env

/-- A commit touches one record, and accounts for each member that comes or leaves. -/
theorem Reachable.commit_accounts {env : Env} (registered : env.registry = .standard)
    {store : Store} (reachable : Reachable .standard store) {kind : Kind} {id : EntityId}
    {proposed : Option Content} {attribution : Attribution} {outcome : Outcome} {after : Store}
    (committed : env.commit kind id proposed attribution store = (.ok outcome, after)) :
    (store.Reflects kind id proposed →
      after = store ∧ outcome.version = store.counter id ∧ outcome.change.isMaterial = false ∧
        outcome.skipped = []) ∧
    (¬ store.Reflects kind id proposed →
      env.Accounts kind id proposed attribution (store.counter id + 1) store outcome after) :=
  Env.apply_accounts registered reachable.chained (transact_eq_ok.mp committed)

/-- A store with a story that has two tags, one of which was deleted since. -/
def Store.withDeletedMember : Store :=
  .following ⟨.standard, 3, 0⟩
    [.commit .attr ⟨⟨1⟩⟩ (some ⟨.ofList [("key", .text "rain")], .empty⟩) ⟨"editor", .direct⟩,
      .commit .attr ⟨⟨2⟩⟩ (some ⟨.ofList [("key", .text "wind")], .empty⟩) ⟨"editor", .direct⟩,
      .commit .story ⟨⟨3⟩⟩ (some ⟨.ofList [("title", .text "storm")],
        .ofList [("attributes", [⟨⟨1⟩⟩, ⟨⟨2⟩⟩])]⟩) ⟨"editor", .direct⟩,
      .delete .attr ⟨⟨2⟩⟩ ⟨"editor", .direct⟩]

/-- The story with an item and a tag that do not exist instead of its tags. -/
def Content.withUnknownMembers : Content :=
  ⟨.ofList [("title", .text "storm")],
    .ofList [("attributes", [⟨⟨4⟩⟩]), ("news_items", [⟨⟨5⟩⟩])]⟩

/-- The story with its tags in another sequence. -/
def Content.withSwappedTags : Content :=
  ⟨.ofList [("title", .text "storm")], .ofList [("attributes", [⟨⟨2⟩⟩, ⟨⟨1⟩⟩])]⟩

/-- The tag that is live gets a link row, the other two are told of, and the item is neither: its
relation has no log. Giving the story its tags in another sequence changes nothing. -/
theorem commit_accounts_withDeletedMember :
    Reachable .standard .withDeletedMember ∧
    (∃ outcome after, Env.commit ⟨.standard, 3, 0⟩ .story ⟨⟨3⟩⟩ (some .withUnknownMembers)
        ⟨"editor", .direct⟩ .withDeletedMember = (.ok outcome, after) ∧
      Env.Accounts ⟨.standard, 3, 0⟩ .story ⟨⟨3⟩⟩ (some .withUnknownMembers) ⟨"editor", .direct⟩ 2
        .withDeletedMember outcome after ∧
      outcome.skipped = [⟨"attributes", ⟨⟨3⟩⟩, ⟨⟨4⟩⟩⟩, ⟨"attributes", ⟨⟨3⟩⟩, ⟨⟨2⟩⟩⟩] ∧
      (after.linkRows "story_attribute_history" ⟨⟨3⟩⟩ ⟨⟨1⟩⟩).map LinkRow.linked = [true, false]) ∧
    ∃ outcome, Env.commit ⟨.standard, 3, 0⟩ .story ⟨⟨3⟩⟩ (some .withSwappedTags)
        ⟨"editor", .direct⟩ .withDeletedMember = (.ok outcome, .withDeletedMember) ∧
      outcome.version = 1 := by
  have reachable : Reachable .standard .withDeletedMember :=
    reachable_following ⟨.standard, 3, 0⟩ _
  refine ⟨reachable, ?_, ?_⟩
  · have carried : ((Env.apply ⟨.standard, 3, 0⟩ .story ⟨⟨3⟩⟩ (some .withUnknownMembers)
        ⟨"editor", .direct⟩ .withDeletedMember).toOption.map fun done => (done.1.skipped,
          (done.2.linkRows "story_attribute_history" ⟨⟨3⟩⟩ ⟨⟨1⟩⟩).map LinkRow.linked)) =
        some ([⟨"attributes", ⟨⟨3⟩⟩, ⟨⟨4⟩⟩⟩, ⟨"attributes", ⟨⟨3⟩⟩, ⟨⟨2⟩⟩⟩], [true, false]) := by
      decide +kernel
    obtain ⟨⟨outcome, after⟩, given, same⟩ := Option.map_eq_some_iff.mp carried
    have committed := transact_eq_ok.mpr (eq_ok_of_toOption given)
    obtain ⟨skipped, links⟩ := Prod.mk.inj same
    refine ⟨outcome, after, committed, ?_, skipped, links⟩
    have counter : Store.withDeletedMember.counter ⟨⟨3⟩⟩ = 1 := by decide +kernel
    have accounts := (Reachable.commit_accounts rfl reachable committed).2 (by decide +kernel)
    rwa [counter] at accounts
  · have carried : (Env.apply ⟨.standard, 3, 0⟩ .story ⟨⟨3⟩⟩ (some .withSwappedTags)
        ⟨"editor", .direct⟩ .withDeletedMember).toOption.isSome = true := by decide +kernel
    obtain ⟨⟨outcome, after⟩, given⟩ := Option.isSome_iff_exists.mp carried
    have committed := transact_eq_ok.mpr (eq_ok_of_toOption given)
    obtain ⟨same, version, _⟩ :=
      (Reachable.commit_accounts rfl reachable committed).1 (by decide +kernel)
    rw [same] at committed
    have counter : Store.withDeletedMember.counter ⟨⟨3⟩⟩ = 1 := by decide +kernel
    exact ⟨outcome, committed, version.trans counter⟩

end Chronicle
