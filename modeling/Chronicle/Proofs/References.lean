import Chronicle.Proofs.Past

/-!
# Recorded versions

Snapshots and link rows name versions of members, which were read from the rows of these members
at the moment of writing (`Store.Wrote.live_of_ref`, `Store.Wrote.live_of_link`). A version that a
record had while it was live stays in its history (`Store.Remembers.hadLive`), so every version that
is recorded anywhere resolves, and the versions of one member come in the order in which it lived
(`Reachable.versions_resolve`).
-/

namespace Chronicle

open Descriptor (standard)

namespace Store

/-! ## Versions of live records -/

/-- The history of a record, in the kind of its row, has a version, which is not a deletion. -/
def HadLive (store : Store) (id : EntityId) (version : Nat) : Prop :=
  ∃ row snapshot, store.row? id = some row ∧
    store.recorded? row.kind id version = some snapshot ∧ snapshot.change ≠ .deleted

theorem Recorded.hadLive {store : Store} (recorded : store.Recorded) {id : EntityId}
    {version : Nat} (live : store.liveVersion? id = some version) : store.HadLive id version := by
  obtain ⟨row, found, notDeleted, rfl⟩ := liveVersion?_eq_some_iff.mp live
  obtain ⟨snapshot, kept⟩ := recorded.complete id row found row.version
    (recorded.rows id row found).positive (Nat.le_refl _)
  refine ⟨row, snapshot, found, kept, fun deleted => ?_⟩
  rw [((recorded.fits_of_recorded? found kept).deleted.mp deleted).1] at notDeleted
  cases notDeleted

theorem Remembers.hadLive {first second : Store} (remembers : first.Remembers second)
    (recorded : first.Recorded) {id : EntityId} {version : Nat}
    (had : first.HadLive id version) : second.HadLive id version := by
  obtain ⟨row, snapshot, found, kept, notDeleted⟩ := had
  obtain ⟨next, nextFound, kind, _⟩ := remembers.rows id row found
  refine ⟨next, snapshot, nextFound, ?_, notDeleted⟩
  rw [kind, remembers.recorded _ _ _ (recorded.le_counter kept), kept]

/-- A snapshot that lists a member is not that of a deletion. -/
theorem Traced.change_of_lists {store : Store} (traced : store.Traced) {kind : Kind}
    {id : EntityId} {version : Nat} {snapshot : Snapshot}
    (kept : store.recorded? kind id version = some snapshot) {relation : String}
    {member : EntityId} (listed : member ∈ snapshot.content.members relation) :
    snapshot.change ≠ .deleted := by
  intro deleted
  obtain ⟨row, found, rfl, fits⟩ := traced.recorded.row_of_recorded? kept
  obtain ⟨isDeleted, rfl⟩ := fits.deleted.mp deleted
  have emptied := (traced.recorded.rows id row found).emptied isDeleted relation
  rw [← Content.mem_members_canonical, ← (traced.last id row snapshot found kept).1, emptied]
    at listed
  cases listed

/-! ## Versions that are written down -/

namespace Wrote

variable {store before after : Store} {id : EntityId} {version : Nat}

/-- What a snapshot says of a member was so at the moment of its version. -/
theorem live_of_ref (wrote : store.Wrote id version before after) {kind : Kind}
    {snapshot : Snapshot} (kept : store.recorded? kind id version = some snapshot)
    {relation : String} {ref : MemberRef} (listed : ref ∈ snapshot.refs relation) :
    ref.version = after.liveVersion? ref.id := by
  obtain ⟨env, own, proposed, attribution, outcome, registered, admits, next, writes⟩ :=
    wrote.writes
  rw [wrote.remembers.recorded _ _ _ (Nat.le_of_eq wrote.reached.symm)] at kept
  obtain ⟨row, found, sameKind, _⟩ := wrote.chained_after.traced.recorded.row_of_recorded? kept
  rw [writes.row?_self] at found
  cases found
  change own = kind at sameKind
  subst sameKind
  rw [writes.recorded?_self] at kept
  cases kept
  rw [writes.refs_self admits] at listed
  obtain ⟨member, _, rfl⟩ := List.mem_map.mp listed
  rfl

/-- What a link row says of a member was so at the moment of the version of its owner. -/
theorem live_of_link (wrote : store.Wrote id version before after) {table : String}
    {member : EntityId} {link : LinkRow} (listed : link ∈ store.linkRows table id member)
    (here : link.ownerVersion = version) :
    after.liveVersion? member = some link.memberVersion := by
  obtain ⟨env, kind, proposed, attribution, outcome, registered, admits, next, writes⟩ :=
    wrote.writes
  have chained := wrote.early.chained
  obtain ⟨more, grown, later⟩ := wrote.remembers.links table id member
  have reached := wrote.reached
  have early : link ∈ after.linkRows table id member := by
    rw [grown] at listed
    rcases List.mem_append.mp listed with known | added
    · exact known
    · have beyond := later link added
      omega
  have notBefore : link ∉ before.linkRows table id member := fun known => by
    have bound := chained.ownerVersion_le known
    omega
  rcases writes.linkRows_cases registered chained admits table id member with
    same | ⟨_, new, added, _, live⟩
  · exact absurd (same ▸ early) notBefore
  · rw [added] at early
    rcases List.mem_append.mp early with known | isNew
    · exact absurd known notBefore
    · rwa [List.mem_singleton.mp isNew]

end Wrote

/-! ## The tables of link rows -/

/-- Each link row stands in a table in which the kind of its owner has links written down. -/
def LogsLinks (store : Store) : Prop :=
  ∀ table owner member, ∀ link ∈ store.linkRows table owner member, ∃ row relation log,
    store.row? owner = some row ∧ (standard row.kind).log? relation = some log ∧
      log.table = table

theorem LogsLinks.move {env : Env} (registered : env.registry = .standard) {store after : Store}
    (chained : store.Chained) (logs : store.LogsLinks) (move : Move env store after) :
    after.LogsLinks := by
  have remembers := chained.remembers_move registered move
  intro table owner member link listed
  have old (before : link ∈ store.linkRows table owner member) : ∃ row relation log,
      after.row? owner = some row ∧ (standard row.kind).log? relation = some log ∧
        log.table = table := by
    obtain ⟨row, relation, log, found, logged, same⟩ := logs table owner member link before
    obtain ⟨next, nextFound, kind, _⟩ := remembers.rows owner row found
    exact ⟨next, relation, log, nextFound, kind ▸ logged, same⟩
  rcases move.applied_or_keepsRecords with ⟨kind, id, _, _, _, applied⟩ | kept
  · obtain ⟨admits, applies⟩ :=
      Env.apply_applies registered chained.traced.recorded.rows applied
    cases applies with
    | unchanged immaterial => exact old listed
    | written material next writes =>
        by_cases own : owner = id ∧ ∃ relation log, (standard kind).log? relation = some log ∧
            log.table = table
        · obtain ⟨rfl, relation, log, logged, same⟩ := own
          exact ⟨_, relation, log, writes.row?_self, logged, same⟩
        · refine old (writes.linkRows_of_quiet registered admits chained.keyed ?_ ▸ listed)
          intro same event written here _
          exact absurd
            ⟨same, _, _, ((Env.Writes.mem_linkEvents_iff admits).mp written).1, here⟩ own
  · rw [kept] at listed
    exact old listed

/-- The history of an owner has the version in which a member came or left; one in which a member
came is not a deletion. -/
theorem Chained.owner_recorded {store : Store} (chained : store.Chained) (logs : store.LogsLinks)
    {table : String} {owner member : EntityId} {link : LinkRow}
    (listed : link ∈ store.linkRows table owner member) :
    ∃ row snapshot, store.row? owner = some row ∧
      store.recorded? row.kind owner link.ownerVersion = some snapshot ∧
        (link.linked = true → snapshot.change ≠ .deleted) := by
  obtain ⟨row, relation, log, found, logged, rfl⟩ := logs table owner member link listed
  have linkage := chained.linkage ⟨row.kind, owner, relation, member⟩ log row found rfl logged
  obtain ⟨snapshot, kept, lists⟩ := linkage.recorded listed
  exact ⟨row, snapshot, found, kept, fun linked =>
    chained.traced.change_of_lists kept (lists linked)⟩

/-! ## The versions of one member -/

/-- The versions of a member that are recorded in the snapshots of an owner, one after another;
there is none where the member was not live. -/
def memberVersions (store : Store) (tie : Tie) : List (Option Nat) :=
  (store.snapshotsOf (standard tie.kind) tie.owner).flatMap fun snapshot =>
    ((snapshot.refs tie.relation).filter fun ref => ref.id = tie.member).map MemberRef.version

/-- How far the recorded versions of a member have come: none before it existed, then those that
it went through, and none again since it was deleted. -/
structure Succession (store : Store) (member : EntityId) (recorded : List (Option Nat))
    (early : Nat) (versions : List Nat) (late : Nat) : Prop where
  split : recorded =
    List.replicate early none ++ versions.map some ++ List.replicate late none
  ascends : versions.Pairwise (· ≤ ·)
  unborn : store.row? member = none → versions = [] ∧ late = 0
  current : ∀ version, store.liveVersion? member = some version →
    late = 0 ∧ ∀ earlier ∈ versions, earlier ≤ version

namespace Succession

variable {store after : Store} {member : EntityId} {recorded : List (Option Nat)} {early late : Nat}
  {versions : List Nat}

/-- What was recorded so far may have been recorded of a member that has gone on since. -/
theorem of_remembers (succession : store.Succession member recorded early versions late)
    (remembers : store.Remembers after) :
    after.Succession member recorded early versions late := by
  refine ⟨succession.split, succession.ascends, ?_, ?_⟩
  · intro absent
    refine succession.unborn (Option.eq_none_iff_forall_ne_some.mpr fun row found => ?_)
    obtain ⟨next, nextFound, _⟩ := remembers.rows member row found
    rw [absent] at nextFound
    cases nextFound
  · intro version live
    obtain ⟨next, nextFound, notDeleted, rfl⟩ := liveVersion?_eq_some_iff.mp live
    cases found : store.row? member with
    | none =>
        obtain ⟨rfl, noneLate⟩ := succession.unborn found
        exact ⟨noneLate, nofun⟩
    | some row =>
        cases wasLive : row.deleted with
        | true =>
            rw [remembers.deleted member row found wasLive] at nextFound
            cases nextFound
            rw [wasLive] at notDeleted
            cases notDeleted
        | false =>
            obtain ⟨noneLate, bounded⟩ := succession.current row.version
              (liveVersion?_eq_some_iff.mpr ⟨row, found, wasLive, rfl⟩)
            obtain ⟨later, laterFound, _, mono⟩ := remembers.rows member row found
            rw [nextFound] at laterFound
            cases laterFound
            exact ⟨noneLate, fun earlier passed => Nat.le_trans (bounded earlier passed) mono⟩

/-- The version that a member has now may come next, any number of times. -/
theorem extend (succession : store.Succession member recorded early versions late) (count : Nat) :
    ∃ early versions late, store.Succession member
      (recorded ++ List.replicate count (store.liveVersion? member)) early versions late := by
  obtain ⟨rfl, ascends, unborn, current⟩ := succession
  cases live : store.liveVersion? member with
  | some version =>
      obtain ⟨rfl, bounded⟩ := current version live
      refine ⟨early, versions ++ List.replicate count version, 0, ?_, ?_, ?_, ?_⟩
      · simp
      · refine List.pairwise_append.mpr ⟨ascends, ?_, ?_⟩
        · exact List.pairwise_replicate.mpr (Or.inr (Nat.le_refl _))
        · intro earlier passed now listed
          rw [(List.mem_replicate.mp listed).2]
          exact bounded earlier passed
      · intro absent
        obtain ⟨row, found, _⟩ := liveVersion?_eq_some_iff.mp live
        rw [absent] at found
        cases found
      · intro same isSame
        rw [live] at isSame
        cases isSame
        refine ⟨rfl, fun earlier passed => ?_⟩
        rcases List.mem_append.mp passed with passed | listed
        · exact bounded earlier passed
        · exact Nat.le_of_eq (List.mem_replicate.mp listed).2
  | none =>
      have noLonger {version : Nat} (isLive : store.liveVersion? member = some version) : False := by
        rw [live] at isLive
        cases isLive
      cases found : store.row? member with
      | none =>
          obtain ⟨rfl, rfl⟩ := unborn found
          refine ⟨early + count, [], 0, ?_, .nil, fun _ => ⟨rfl, rfl⟩,
            fun _ isLive => (noLonger isLive).elim⟩
          simp
      | some row =>
          refine ⟨early, versions, late + count, ?_, ascends, ?_,
            fun _ isLive => (noLonger isLive).elim⟩
          · simp
          · intro absent
            rw [found] at absent
            cases absent

end Succession

end Store

/-- Each move adds to the recorded versions of a member, if anything, the one that it has then. -/
theorem Trail.memberVersions_move {env : Env} {store after : Store}
    (early : Trail .standard .empty store) (registered : env.registry = .standard)
    (move : Move env store after) (tie : Tie) :
    ∃ count, after.memberVersions tie =
      store.memberVersions tie ++ List.replicate count (after.liveVersion? tie.member) := by
  have chained := early.chained
  have recorded := chained.traced.recorded
  have nextRecorded := (chained.move registered move).traced.recorded
  rw [Store.memberVersions, (chained.remembers_move registered move).snapshotsOf_eq_append recorded
    nextRecorded, List.flatMap_append]
  refine ⟨_, congrArg _ (List.eq_replicate_iff.mpr ⟨rfl, fun version listed => ?_⟩)⟩
  obtain ⟨snapshot, added, inSnapshot⟩ := List.mem_flatMap.mp listed
  obtain ⟨number, isNew, kept⟩ := List.mem_filterMap.mp added
  obtain ⟨ref, inRefs, rfl⟩ := List.mem_map.mp inSnapshot
  obtain ⟨inRefs, about⟩ := List.mem_filter.mp inRefs
  have bounds := List.mem_range'_1.mp isNew
  have wrote : after.Wrote tie.owner number store after :=
    move.wrote registered early (by omega) (nextRecorded.le_counter kept)
  rw [wrote.live_of_ref kept inRefs, of_decide_eq_true about]

theorem Trail.succession {store : Store} (trail : Trail .standard .empty store) (tie : Tie) :
    ∃ early versions late,
      store.Succession tie.member (store.memberVersions tie) early versions late := by
  induction trail with
  | start => exact ⟨0, [], 0, rfl, .nil, fun _ => ⟨rfl, rfl⟩, nofun⟩
  | @move store after env trail registered move ih =>
      obtain ⟨early, versions, late, succession⟩ := ih
      obtain ⟨count, grown⟩ := trail.memberVersions_move registered move tie
      rw [grown]
      exact (succession.of_remembers (trail.chained.remembers_move registered move)).extend count

/-! ## Reachable stores -/

/-- Each version that is recorded is one that its record had while it was live, except where an
owner was deleted; and the versions of a member under an owner come in their order. -/
structure Store.Resolves (store : Store) : Prop where
  refs : ∀ snapshot ∈ store.snapshots.values, ∀ relation, ∀ ref ∈ snapshot.refs relation,
    ∀ version, ref.version = some version → store.HadLive ref.id version
  members : ∀ link ∈ store.links.values, store.HadLive link.member link.memberVersion
  owners : ∀ link ∈ store.links.values, link.linked = true →
    store.HadLive link.owner link.ownerVersion
  leavers : ∀ link ∈ store.links.values, ∃ row snapshot, store.row? link.owner = some row ∧
    store.recorded? row.kind link.owner link.ownerVersion = some snapshot
  succession : ∀ tie, ∃ (early : Nat) (versions : List Nat) (late : Nat),
    store.memberVersions tie =
        List.replicate early none ++ versions.map some ++ List.replicate late none ∧
      versions.Pairwise (· ≤ ·)

/-- In every store that a run can lead to, every version that is recorded resolves. -/
theorem Reachable.versions_resolve {store : Store} (reachable : Reachable .standard store) :
    store.Resolves := by
  have trail := Trail.of_run reachable
  have chained := trail.chained
  have recorded := chained.traced.recorded
  have logs : store.LogsLinks := (reachable.keeps
    (motive := fun store => store.Chained ∧ store.LogsLinks) ⟨Store.chained_empty, nofun⟩
    fun _ _ _ registered both move =>
      ⟨both.1.move registered move, Store.LogsLinks.move registered both.1 both.2 move⟩).2
  -- what was live at the moment of a version is remembered
  have live {id : EntityId} {version : Nat} {before after : Store}
      (wrote : store.Wrote id version before after) {member : EntityId} {memberVersion : Nat}
      (nowLive : after.liveVersion? member = some memberVersion) :
      store.HadLive member memberVersion :=
    wrote.remembers.hadLive wrote.chained_after.traced.recorded
      (wrote.chained_after.traced.recorded.hadLive nowLive)
  have listed {link : LinkRow} (inTable : link ∈ store.links.values) :
      ∃ table, link ∈ store.linkRows table link.owner link.member := by
    obtain ⟨⟨table, owner, member, version⟩, found⟩ := (Dict.mem_values_iff _).mp inTable
    obtain ⟨rfl, rfl, rfl⟩ := chained.keyed _ _ _ _ _ found
    exact ⟨table, Store.mem_linkRows_iff.mpr ⟨_, found⟩⟩
  refine ⟨?_, ?_, ?_, ?_, ?_⟩
  · intro snapshot inTable relation ref inRefs version same
    obtain ⟨⟨table, id, number⟩, found⟩ := (Dict.mem_values_iff _).mp inTable
    obtain ⟨row, rowFound, fits⟩ := recorded.fits _ _ _ _ found
    rw [fits.table_eq] at found
    change store.recorded? row.kind id number = some snapshot at found
    obtain ⟨before, after, wrote⟩ := trail.exists_wrote fits.first (recorded.le_counter found)
    exact live wrote ((wrote.live_of_ref found inRefs).symm.trans same)
  · intro link inTable
    obtain ⟨table, inRows⟩ := listed inTable
    obtain ⟨row, snapshot, found, kept, _⟩ := chained.owner_recorded logs inRows
    obtain ⟨before, after, wrote⟩ := trail.exists_wrote (recorded.fits_of_recorded? found kept).first
      (recorded.le_counter kept)
    exact live wrote (wrote.live_of_link inRows rfl)
  · intro link inTable linked
    obtain ⟨table, inRows⟩ := listed inTable
    obtain ⟨row, snapshot, found, kept, notDeleted⟩ := chained.owner_recorded logs inRows
    exact ⟨row, snapshot, found, kept, notDeleted linked⟩
  · intro link inTable
    obtain ⟨table, inRows⟩ := listed inTable
    obtain ⟨row, snapshot, found, kept, _⟩ := chained.owner_recorded logs inRows
    exact ⟨row, snapshot, found, kept⟩
  · intro tie
    obtain ⟨early, versions, late, succession⟩ := trail.succession tie
    exact ⟨early, versions, late, succession.split, succession.ascends⟩

/-- A store with a story that was there before its item and has outlived it, and that had a tag
when it was deleted. -/
def Store.withOutlivedItem : Store :=
  .following ⟨.standard, 3, 0⟩
    [.commit .story ⟨⟨1⟩⟩ (some ⟨.ofList [("title", .text "rain")],
        .ofList [("news_items", [⟨⟨2⟩⟩])]⟩) ⟨"editor", .direct⟩,
      .commit .newsItem ⟨⟨2⟩⟩ (some ⟨.ofList [("title", .text "wind")], .empty⟩) ⟨"editor", .direct⟩,
      .commit .attr ⟨⟨3⟩⟩ (some ⟨.ofList [("key", .text "draft")], .empty⟩) ⟨"editor", .direct⟩,
      .commit .story ⟨⟨1⟩⟩ (some ⟨.ofList [("title", .text "storm")],
        .ofList [("news_items", [⟨⟨2⟩⟩]), ("attributes", [⟨⟨3⟩⟩])]⟩) ⟨"editor", .direct⟩,
      .commit .newsItem ⟨⟨2⟩⟩ (some ⟨.ofList [("title", .text "gale")], .empty⟩) ⟨"editor", .direct⟩,
      .modify .story ⟨⟨1⟩⟩ ⟨"editor", .direct⟩ fun content =>
        content.setField "title" (.text "hail"),
      .delete .newsItem ⟨⟨2⟩⟩ ⟨"editor", .direct⟩,
      .modify .story ⟨⟨1⟩⟩ ⟨"editor", .direct⟩ fun content =>
        content.setField "title" (.text "calm"),
      .delete .story ⟨⟨1⟩⟩ ⟨"editor", .direct⟩]

/-- The item was missing, went through two versions and was deleted; the tag left with the version
in which the story was deleted. -/
theorem versions_resolve_withOutlivedItem :
    Reachable .standard .withOutlivedItem ∧
    (Store.withOutlivedItem.memberVersions ⟨.story, ⟨⟨1⟩⟩, "news_items", ⟨⟨2⟩⟩⟩ =
        [none, some 1, some 2, none] ∧
      Store.withOutlivedItem.links.values.map (fun link => (link.linked, link.ownerVersion)) =
        [(true, 2), (false, 5)]) ∧
    Store.withOutlivedItem.Resolves := by
  have reachable : Reachable .standard .withOutlivedItem :=
    reachable_following ⟨.standard, 3, 0⟩ _
  exact ⟨reachable, ⟨by decide +kernel, by decide +kernel⟩, reachable.versions_resolve⟩

end Chronicle
