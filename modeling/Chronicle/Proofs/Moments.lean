import Chronicle.Proofs.Chains

/-!
# The moment of a version

Each version of a record is written by one commit on the way to a store (`Store.Wrote`). What the
tables held right after it they still hold: snapshots and link rows are not changed any more, and
later link rows name later versions of their owner (`Store.Remembers`). So what was live at that
moment can be told from the link rows of every later store.
-/

namespace Chronicle

open Descriptor (standard)

/-! ## What is kept of the past -/

/-- What a later store still has of an earlier one: the records with their kinds, the snapshots of
the versions that had been reached, the records that had been deleted, and the link rows. Rows
that are added name later versions of their owner, and no members that had been deleted. -/
structure Store.Remembers (earlier later : Store) : Prop where
  rows : ∀ id row, earlier.row? id = some row →
    ∃ next, later.row? id = some next ∧ next.kind = row.kind ∧ row.version ≤ next.version
  recorded : ∀ kind id version, version ≤ earlier.counter id →
    later.recorded? kind id version = earlier.recorded? kind id version
  deleted : ∀ id row, earlier.row? id = some row → row.deleted = true → later.row? id = some row
  links : ∀ table owner member, ∃ more,
    later.linkRows table owner member = earlier.linkRows table owner member ++ more ∧
    ∀ link ∈ more, earlier.counter owner < link.ownerVersion
  silent : ∀ table owner member row, earlier.row? member = some row → row.deleted = true →
    later.linkRows table owner member = earlier.linkRows table owner member

namespace Store.Remembers

variable {first second third : Store}

theorem refl (store : Store) : store.Remembers store :=
  ⟨fun _ row found => ⟨row, found, rfl, Nat.le_refl _⟩, fun _ _ _ _ => rfl, fun _ _ found _ => found,
    fun _ _ _ => ⟨[], (List.append_nil _).symm, nofun⟩, fun _ _ _ _ _ _ => rfl⟩

/-- No record goes back to an earlier version. -/
theorem counters (remembers : first.Remembers second) (id : EntityId) :
    first.counter id ≤ second.counter id := by
  cases found : first.row? id with
  | none =>
      rw [counter, found]
      exact Nat.zero_le _
  | some row =>
      obtain ⟨next, nextFound, _, mono⟩ := remembers.rows id row found
      rwa [counter_of_row? found, counter_of_row? nextFound]

theorem trans (early : first.Remembers second) (late : second.Remembers third) :
    first.Remembers third := by
  refine ⟨?_, ?_, ?_, ?_, ?_⟩
  · intro id row found
    obtain ⟨next, nextFound, kind, mono⟩ := early.rows id row found
    obtain ⟨last, lastFound, lastKind, lastMono⟩ := late.rows id next nextFound
    exact ⟨last, lastFound, lastKind.trans kind, Nat.le_trans mono lastMono⟩
  · intro kind id version reached
    rw [late.recorded kind id version (Nat.le_trans reached (early.counters id)),
      early.recorded kind id version reached]
  · intro id row found deleted
    exact late.deleted id row (early.deleted id row found deleted) deleted
  · intro table owner member
    obtain ⟨more, grown, later⟩ := early.links table owner member
    obtain ⟨evenMore, grownMore, evenLater⟩ := late.links table owner member
    refine ⟨more ++ evenMore, by rw [grownMore, grown, List.append_assoc], ?_⟩
    intro link listed
    rcases List.mem_append.mp listed with listed | listed
    · exact later link listed
    · exact Nat.lt_of_le_of_lt (early.counters owner) (evenLater link listed)
  · intro table owner member row found deleted
    rw [late.silent table owner member row (early.deleted member row found deleted) deleted,
      early.silent table owner member row found deleted]

theorem of_keepsRecords (kept : first.KeepsRecords second) : first.Remembers second := by
  rw [kept]
  have same := refl first
  exact ⟨same.rows, same.recorded, same.deleted, same.links, same.silent⟩

theorem lists_iff (remembers : first.Remembers second) {tie : Tie} {version : Nat}
    (reached : version ≤ first.counter tie.owner) :
    second.Lists tie version ↔ first.Lists tie version :=
  lists_congr (remembers.recorded _ _ _ reached)

/-- A record that is at the same version as before is as it was. -/
theorem row_eq (remembers : first.Remembers second) (traced : first.Traced)
    (nextTraced : second.Traced) {id : EntityId} {row next : EntityRow}
    (found : first.row? id = some row) (nextFound : second.row? id = some next)
    (same : next.version = row.version) : next = row := by
  have recorded := traced.recorded
  have positive := (recorded.rows id row found).positive
  have kind : next.kind = row.kind := by
    obtain ⟨other, otherFound, otherKind, _⟩ := remembers.rows id row found
    rw [nextFound] at otherFound
    cases otherFound
    exact otherKind
  have still {version : Nat} {snapshot : Snapshot} (reached : version ≤ row.version)
      (kept : first.recorded? row.kind id version = some snapshot) :
      second.recorded? next.kind id version = some snapshot := by
    rw [← counter_of_row? found] at reached
    rw [kind, remembers.recorded _ _ _ reached, kept]
  obtain ⟨created, createdKept⟩ := recorded.complete id row found 1 (Nat.le_refl _) positive
  have createdAt := traced.first id row created found createdKept
  have nextCreatedAt := nextTraced.first id next created nextFound (still positive createdKept)
  obtain ⟨snapshot, kept⟩ :=
    recorded.complete id row found row.version positive (Nat.le_refl _)
  have nextKept : second.recorded? next.kind id next.version = some snapshot := by
    rw [same]
    exact still (Nat.le_refl _) kept
  obtain ⟨content, updatedAt⟩ := traced.last id row snapshot found kept
  obtain ⟨nextContent, nextUpdatedAt⟩ := nextTraced.last id next snapshot nextFound nextKept
  have deleted : next.deleted = row.deleted := by
    have fits := (recorded.fits_of_recorded? found kept).deleted
    have nextFits := (nextTraced.recorded.fits_of_recorded? nextFound nextKept).deleted
    refine Bool.eq_iff_iff.mpr ?_
    rw [fits] at nextFits
    simpa using nextFits.symm
  obtain ⟨_, _, _, _, _, _⟩ := row
  obtain ⟨_, _, _, _, _, _⟩ := next
  simp only [EntityRow.mk.injEq]
  exact ⟨kind, same, nextCreatedAt.trans createdAt.symm, nextUpdatedAt.trans updatedAt.symm,
    deleted, nextContent.trans content.symm⟩

end Store.Remembers

namespace Env.Writes

variable {env : Env} {kind : Kind} {id : EntityId} {proposed : Option Content}
  {attribution : Attribution} {version : Nat} {store after : Store} {outcome : Outcome}

theorem counter_self
    (writes : Writes env kind id proposed attribution version store outcome after) :
    after.counter id = version := by
  rw [Store.counter_of_row? writes.row?_self]
  rfl

theorem counter_of_ne
    (writes : Writes env kind id proposed attribution version store outcome after)
    {other : EntityId} (different : other ≠ id) : after.counter other = store.counter other := by
  rw [Store.counter, writes.row?_of_ne different, Store.counter]

theorem remembers (registered : env.registry = .standard) (chained : store.Chained)
    (admits : store.Admits kind id proposed) (next : version = store.counter id + 1)
    (writes : Writes env kind id proposed attribution version store outcome after) :
    store.Remembers after := by
  have deleted (other : EntityId) (row : EntityRow) (found : store.row? other = some row)
      (isDeleted : row.deleted = true) : after.row? other = some row := by
    have different : other ≠ id := by
      rintro rfl
      rw [(admits.present row found).2] at isDeleted
      cases isDeleted
    rw [writes.row?_of_ne different, found]
  refine ⟨?_, ?_, deleted, ?_, ?_⟩
  · intro other row found
    by_cases same : other = id
    · subst same
      have counter := Store.counter_of_row? found
      refine ⟨_, writes.row?_self, (admits.present row found).1.symm, ?_⟩
      change row.version ≤ version
      omega
    · exact ⟨row, by rw [writes.row?_of_ne same, found], rfl, Nat.le_refl _⟩
  · intro otherKind other number reached
    refine writes.recorded?_of_ne ?_
    rintro ⟨⟩
    omega
  · intro table owner member
    rcases writes.linkRows_cases registered chained admits table owner member with
      same | ⟨rfl, link, grown, here, _⟩
    · exact ⟨[], by rw [same, List.append_nil], nofun⟩
    · refine ⟨[link], grown, fun added listed => ?_⟩
      rw [List.mem_singleton.mp listed]
      omega
  · intro table owner member row found isDeleted
    rcases writes.linkRows_cases registered chained admits table owner member with
      same | ⟨_, _, _, _, live⟩
    · exact same
    · obtain ⟨own, ownFound, notDeleted, _⟩ := Store.liveVersion?_eq_some_iff.mp live
      rw [deleted member row found isDeleted] at ownFound
      cases ownFound
      rw [isDeleted] at notDeleted
      cases notDeleted

end Env.Writes

theorem Store.Chained.remembers_move {env : Env} (registered : env.registry = .standard)
    {store after : Store} (chained : store.Chained) (move : Move env store after) :
    store.Remembers after := by
  rcases move.applied_or_keepsRecords with ⟨_, _, _, _, _, applied⟩ | kept
  · have recorded := chained.traced.recorded
    obtain ⟨admits, applies⟩ := Env.apply_applies registered recorded.rows applied
    cases applies with
    | unchanged immaterial => exact .refl _
    | written material next writes =>
        exact writes.remembers registered chained admits (recorded.next_version next)
  · exact .of_keepsRecords kept

/-- All that happens leaves the past as it is. -/
theorem Trail.remembers {first last : Store} (trail : Trail .standard first last)
    (chained : first.Chained) : first.Remembers last := by
  refine (trail.keeps (motive := fun store => store.Chained ∧ first.Remembers store) ?_
    ⟨chained, .refl first⟩).2
  intro env before after registered both move
  exact ⟨both.1.move registered move, both.2.trans (both.1.remembers_move registered move)⟩

theorem Trail.chained {store : Store} (trail : Trail .standard .empty store) : store.Chained :=
  Store.chained_empty.along rfl trail

/-! ## The commit of a version -/

/-- On the way to a store, a commit between two others wrote a version of a record. -/
structure Store.Wrote (store : Store) (id : EntityId) (version : Nat) (before after : Store) :
    Prop where
  early : Trail .standard .empty before
  commit : ∃ (env : Env) (kind : Kind) (proposed : Option Content) (attribution : Attribution)
    (outcome : Outcome), env.registry = .standard ∧
      env.apply kind id proposed attribution before = .ok (outcome, after)
  ahead : before.counter id < version
  reached : after.counter id = version
  late : Trail .standard after store

namespace Store.Wrote

variable {store before after : Store} {id : EntityId} {version : Nat}

/-- What the commit of a version was. -/
theorem writes (wrote : store.Wrote id version before after) :
    ∃ (env : Env) (kind : Kind) (proposed : Option Content) (attribution : Attribution)
      (outcome : Outcome), env.registry = .standard ∧ before.Admits kind id proposed ∧
        version = before.counter id + 1 ∧
        Env.Writes env kind id proposed attribution version before outcome after := by
  obtain ⟨env, kind, proposed, attribution, outcome, registered, applied⟩ := wrote.commit
  have recorded := wrote.early.chained.traced.recorded
  have ahead := wrote.ahead
  have reached := wrote.reached
  obtain ⟨admits, applies⟩ := Env.apply_applies registered recorded.rows applied
  cases applies with
  | unchanged immaterial => omega
  | written material next writes =>
      rw [writes.counter_self] at reached
      subst reached
      exact ⟨env, kind, proposed, attribution, outcome, registered, admits,
        recorded.next_version next, writes⟩

theorem chained_after (wrote : store.Wrote id version before after) : after.Chained := by
  obtain ⟨env, kind, proposed, attribution, outcome, registered, applied⟩ := wrote.commit
  exact wrote.early.chained.move registered (.applied applied)

theorem remembers (wrote : store.Wrote id version before after) : after.Remembers store :=
  wrote.late.remembers wrote.chained_after

end Store.Wrote

/-- What takes a record to another version is the commit of that version. -/
theorem Move.wrote {env : Env} {before after : Store} (move : Move env before after)
    (registered : env.registry = .standard) (early : Trail .standard .empty before)
    {id : EntityId} {version : Nat} (ahead : before.counter id < version)
    (reached : version ≤ after.counter id) : after.Wrote id version before after := by
  rcases move.applied_or_keepsRecords with ⟨kind, other, proposed, attribution, outcome, applied⟩ | kept
  · have recorded := early.chained.traced.recorded
    obtain ⟨admits, applies⟩ := Env.apply_applies registered recorded.rows applied
    cases applies with
    | unchanged immaterial => omega
    | written material next writes =>
        have number := recorded.next_version next
        by_cases same : id = other
        · subst same
          have counter := writes.counter_self
          refine ⟨early, ⟨env, kind, proposed, attribution, outcome, registered, applied⟩, ahead,
            ?_, .start⟩
          omega
        · have counter := writes.counter_of_ne same
          omega
  · have counter : after.counter id = before.counter id := by
      rw [Store.counter, kept.row?_eq, Store.counter]
    omega

/-- Each version that a record has reached was written by a commit. -/
theorem Trail.exists_wrote {store : Store} (trail : Trail .standard .empty store)
    {id : EntityId} {version : Nat} (positive : 0 < version)
    (reached : version ≤ store.counter id) :
    ∃ before after, store.Wrote id version before after := by
  induction trail with
  | start => exact absurd reached (Nat.not_le_of_lt positive)
  | @move store after env early registered move ih =>
      by_cases old : version ≤ store.counter id
      · obtain ⟨first, second, wrote⟩ := ih old
        exact ⟨first, second, wrote.early, wrote.commit, wrote.ahead, wrote.reached,
          wrote.late.trans (.single registered move)⟩
      · exact ⟨store, after, move.wrote registered early (by omega) reached⟩

/-! ## Members that leave -/

namespace Store.Wrote

variable {store before after : Store} {version : Nat}

/-- A member that leaves while it is live leaves a row. -/
theorem exists_unlinked (tie : Tie) (wrote : store.Wrote tie.owner version before after) {log : LinkLog}
    (logged : (standard tie.kind).log? tie.relation = some log) (drops : store.Drops tie version)
    (live : after.liveVersion? tie.member ≠ none) :
    ∃ link ∈ store.linkRows log.table tie.owner tie.member,
      link.linked = false ∧ link.ownerVersion = version := by
  obtain ⟨env, kind, proposed, attribution, outcome, registered, admits, next, writes⟩ :=
    wrote.writes
  have remembers := wrote.remembers
  have chained := wrote.early.chained
  have here : version ≤ after.counter tie.owner := Nat.le_of_eq wrote.reached.symm
  obtain ⟨wasListed, notListed, snapshot, kept⟩ := drops
  rw [remembers.recorded _ _ _ here] at kept
  obtain ⟨row, found, kindEq, _⟩ := wrote.chained_after.traced.recorded.row_of_recorded? kept
  rw [writes.row?_self] at found
  cases found
  change kind = tie.kind at kindEq
  subst kindEq
  rw [remembers.lists_iff (by omega)] at wasListed notListed
  have lastListed : before.Lists tie (before.counter tie.owner) := by
    refine (lists_congr ?_).mp (by simpa [next] using wasListed)
    exact writes.recorded?_of_older (by omega) _ _
  obtain ⟨added, rows, given, otherwise⟩ := writes.exists_link tie registered chained admits logged
  cases isNew : added with
  | none =>
      rcases otherwise isNew with dead | steady
      · exact absurd dead live
      · exact absurd (steady.mpr lastListed) notListed
  | some link =>
      obtain ⟨_, atVersion, _, _, unlinked⟩ := given link isNew
      obtain ⟨more, grown, _⟩ := remembers.links log.table tie.owner tie.member
      refine ⟨link, ?_, unlinked.mp lastListed, atVersion⟩
      rw [grown, rows, isNew]
      simp

/-- No row tells of a member that had been deleted by then. -/
theorem ownerVersion_lt_of_deleted {owner member : EntityId}
    (wrote : store.Wrote owner version before after) {row : EntityRow}
    (found : after.row? member = some row) (deleted : row.deleted = true) {table : String}
    {link : LinkRow} (listed : link ∈ store.linkRows table owner member) :
    link.ownerVersion < version := by
  obtain ⟨env, kind, proposed, attribution, outcome, registered, admits, next, writes⟩ :=
    wrote.writes
  have chained := wrote.early.chained
  rw [wrote.remembers.silent table owner member row found deleted] at listed
  rcases writes.linkRows_cases registered chained admits table owner member with
    same | ⟨_, _, _, _, live⟩
  · rw [same] at listed
    have bound := chained.ownerVersion_le listed
    omega
  · obtain ⟨own, ownFound, notDeleted, _⟩ := liveVersion?_eq_some_iff.mp live
    rw [found] at ownFound
    cases ownFound
    rw [deleted] at notDeleted
    cases notDeleted

end Store.Wrote

/-! ## Reachable stores -/

/-- In every store that a run can lead to, the link history of an owner and a member corresponds
to the snapshots of the owner, and a member that left without a row was not live at that
moment. -/
theorem Reachable.links_correspond {store : Store} (reachable : Reachable .standard store)
    {env : Env} (registered : env.registry = .standard) {owner : EntityId} {row : EntityRow}
    (found : store.row? owner = some row) {relation : String}
    (logged : ((standard row.kind).log? relation).isSome = true) (member : EntityId) :
    ∃ links, env.linkHistory store row.kind relation owner member = .ok links ∧
      store.Linkage ⟨row.kind, owner, relation, member⟩ links ∧
      ∀ version, store.Drops ⟨row.kind, owner, relation, member⟩ version →
        (∀ link ∈ links, link.linked = false → link.ownerVersion ≠ version) →
        (∃ before after, store.Wrote owner version before after) ∧
        ∀ before after, store.Wrote owner version before after →
          ∀ memberRow, after.row? member = some memberRow → memberRow.deleted = true := by
  obtain ⟨log, logged⟩ := Option.isSome_iff_exists.mp logged
  have chained := reachable.chained
  refine ⟨_, Env.linkHistory_standard registered logged store owner member,
    chained.linkage ⟨row.kind, owner, relation, member⟩ log row found rfl logged, ?_⟩
  intro version drops noRow
  constructor
  · obtain ⟨_, _, snapshot, kept⟩ := drops
    obtain ⟨_, _, _, fits⟩ := chained.traced.recorded.row_of_recorded? kept
    exact (Trail.of_run reachable).exists_wrote fits.first (chained.traced.recorded.le_counter kept)
  · intro before after wrote memberRow memberFound
    by_contra notDeleted
    have live := Store.liveVersion?_eq_some_iff.mpr
      ⟨memberRow, memberFound, Bool.eq_false_iff.mpr notDeleted, rfl⟩
    obtain ⟨link, listed, unlinked, here⟩ :=
      Store.Wrote.exists_unlinked ⟨row.kind, owner, relation, member⟩ wrote logged drops
        (by simp [live])
    exact noRow link listed unlinked here

/-- A store with a story that lost its tag after the tag had been deleted. -/
def Store.withDroppedTag : Store :=
  .following ⟨.standard, 3, 0⟩
    [.commit .attr ⟨⟨1⟩⟩ (some ⟨.ofList [("key", .text "draft")], .empty⟩) ⟨"editor", .direct⟩,
      .commit .story ⟨⟨2⟩⟩ (some ⟨.ofList [("title", .text "rain")],
        .ofList [("attributes", [⟨⟨1⟩⟩])]⟩) ⟨"editor", .direct⟩,
      .delete .attr ⟨⟨1⟩⟩ ⟨"editor", .direct⟩,
      .commit .story ⟨⟨2⟩⟩ (some ⟨.ofList [("title", .text "rain")], .empty⟩) ⟨"editor", .direct⟩]

/-- The row of that story. -/
theorem Store.row?_withDroppedTag : ∃ row, Store.withDroppedTag.row? ⟨⟨2⟩⟩ = some row ∧
    row.kind = .story ∧ row.version = 2 := by
  have stored : (Store.withDroppedTag.row? ⟨⟨2⟩⟩).map (fun row => (row.kind, row.version)) =
      some (.story, 2) := by decide +kernel
  obtain ⟨row, found, same⟩ := Option.map_eq_some_iff.mp stored
  exact ⟨row, found, Prod.mk.inj same⟩

theorem links_correspond_withDroppedTag :
    Reachable .standard .withDroppedTag ∧
    ∃ row, Store.withDroppedTag.row? ⟨⟨2⟩⟩ = some row ∧ (row.kind = .story ∧ row.version = 2) ∧
      ∃ links, Env.linkHistory ⟨.standard, 3, 0⟩ .withDroppedTag row.kind "attributes" ⟨⟨2⟩⟩ ⟨⟨1⟩⟩ =
          .ok links ∧
        Store.withDroppedTag.Linkage ⟨row.kind, ⟨⟨2⟩⟩, "attributes", ⟨⟨1⟩⟩⟩ links ∧
        ∀ version, Store.withDroppedTag.Drops ⟨row.kind, ⟨⟨2⟩⟩, "attributes", ⟨⟨1⟩⟩⟩ version →
          (∀ link ∈ links, link.linked = false → link.ownerVersion ≠ version) →
          (∃ before after, Store.withDroppedTag.Wrote ⟨⟨2⟩⟩ version before after) ∧
          ∀ before after, Store.withDroppedTag.Wrote ⟨⟨2⟩⟩ version before after →
            ∀ memberRow, after.row? ⟨⟨1⟩⟩ = some memberRow → memberRow.deleted = true := by
  have reachable : Reachable .standard .withDroppedTag := reachable_following ⟨.standard, 3, 0⟩ _
  obtain ⟨row, found, kind, version⟩ := Store.row?_withDroppedTag
  have logged : ((standard row.kind).log? "attributes").isSome = true := by
    rw [kind]
    decide
  exact ⟨reachable, row, found, ⟨kind, version⟩,
    reachable.links_correspond rfl found logged ⟨⟨1⟩⟩⟩

end Chronicle
