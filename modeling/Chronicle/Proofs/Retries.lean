import Chronicle.Proofs.Accounts
import Chronicle.Proofs.Completion
import Chronicle.Proofs.Pending

/-!
# Version numbers that are taken

Snapshots may also come from elsewhere than from commits. A commit that finds the next version of its
record taken by such a snapshot undoes what it has written and tries the version after all that are
taken (`Store.nextVersion`), which is always free. So one retry is enough, and only who allows none
is told that the version was taken (`Strewn.commit_retries`).

With stray snapshots, histories have gaps and snapshots do not correspond to rows any more. What is
left is that rows are sound, that snapshots and link rows are kept under their versions, and that no
member has more link rows than its owner has versions (`Store.Sturdy`).
-/

namespace Chronicle

open Descriptor (standard)

/-! ## Stray snapshots -/

/-- The stores that operations can lead to while snapshots of any record and version are added in
between. -/
inductive Strewn (registry : Registry) : Store → Prop where
  | start : Strewn registry .empty
  | operated {store : Store} (strewn : Strewn registry store) (retries : Nat) (now : Int64)
      [generator : Generator] (operation : Operation) :
      Strewn registry (operation.perform ⟨registry, retries, now⟩ store)
  | stray {store after : Store} (strewn : Strewn registry store) (kind : Kind) (snapshot : Snapshot)
      (inserted : store.insertSnapshot (standard kind) snapshot = .ok after) : Strewn registry after

/-- Nothing is astray in a store that a run can lead to. -/
theorem Reachable.strewn {registry : Registry} {store : Store} (reachable : Reachable registry store) :
    Strewn registry store := by
  induction reachable with
  | start => exact .start
  | step _ retries now operation ih => exact .operated ih retries now operation

/-- Snapshots that are added one after another; one that is refused is passed over. -/
def Store.strew (store : Store) (kind : Kind) (snapshots : List Snapshot) : Store :=
  snapshots.foldl (fun store snapshot =>
    (store.insertSnapshot (standard kind) snapshot).toOption.getD store) store

theorem Strewn.strew {registry : Registry} {store : Store} (strewn : Strewn registry store)
    (kind : Kind) (snapshots : List Snapshot) : Strewn registry (store.strew kind snapshots) := by
  induction snapshots generalizing store with
  | nil => exact strewn
  | cons snapshot rest ih =>
      rw [Store.strew, List.foldl_cons]
      refine ih ?_
      cases inserted : store.insertSnapshot (standard kind) snapshot with
      | error refused => exact strewn
      | ok after => exact .stray strewn kind snapshot inserted

/-! ## What stray snapshots leave alone -/

/-- Rows are sound, snapshots and link rows are kept under their versions, which are in range, and
the link rows of an owner and a member are numbered and no more than the versions of the owner. -/
structure Store.Sturdy (store : Store) : Prop where
  rows : store.SoundRows
  versions : ∀ table id version snapshot,
    store.snapshots.get? (table, id, version) = some snapshot →
    snapshot.version = version ∧ version < versionLimit
  keyed : store.KeyedLinks
  numbered : ∀ table owner member, Store.Numbered (store.linkRows table owner member)
  short : ∀ table owner member, (store.linkRows table owner member).length ≤ store.counter owner

namespace Store

theorem sturdy_empty : Store.empty.Sturdy where
  rows := fun _ _ found => nomatch found
  versions := fun _ _ _ _ found => nomatch found
  keyed := fun _ _ _ _ _ found => nomatch found
  numbered := fun _ _ _ => rfl
  short := fun _ _ _ => Nat.zero_le _

namespace Sturdy

variable {store after : Store}

theorem tallies (sturdy : store.Sturdy) (kind : Kind) (id : EntityId) : store.Tallies kind id :=
  ⟨fun _ log _ member => sturdy.numbered log.table id member,
    fun _ log _ member => sturdy.short log.table id member⟩

theorem insertSnapshot (sturdy : store.Sturdy) {kind : Kind} {snapshot : Snapshot}
    (inserted : store.insertSnapshot (standard kind) snapshot = .ok after) : after.Sturdy := by
  obtain ⟨⟨_, bounded⟩, _, rfl⟩ := insertSnapshot_eq_ok.mp inserted
  refine ⟨sturdy.rows, ?_, sturdy.keyed, sturdy.numbered, sturdy.short⟩
  intro table id version other found
  by_cases same : (table, id, version) =
      ((standard kind).historyTable, snapshot.entity, snapshot.version)
  · rw [same, Dict.get?_insert_self] at found
    cases found
    cases same
    exact ⟨rfl, bounded⟩
  · rw [Dict.get?_insert_of_ne _ same] at found
    exact sturdy.versions table id version other found

/-- A version beyond that of its row keeps what it has to. -/
theorem writes {env : Env} (registered : env.registry = .standard) {kind : Kind} {id : EntityId}
    {proposed : Option Content} {attribution : Attribution} {version : Nat} {outcome : Outcome}
    (sturdy : store.Sturdy) (admits : store.Admits kind id proposed)
    (later : store.counter id < version)
    (writes : env.Writes kind id proposed attribution version store outcome after) :
    after.Sturdy := by
  have keyed := writes.keyedLinks registered admits sturdy.keyed
  have counter_self : after.counter id = version := counter_of_row? writes.row?_self
  have counter_le (owner : EntityId) : store.counter owner ≤ after.counter owner := by
    by_cases own : owner = id
    · rw [own, counter_self]
      exact Nat.le_of_lt later
    · rw [counter, counter, writes.row?_of_ne own]
  have links (table : String) (owner member : EntityId) :
      Numbered (after.linkRows table owner member) ∧
        (after.linkRows table owner member).length ≤ after.counter owner := by
    have numbered := sturdy.numbered table owner member
    have short := sturdy.short table owner member
    by_cases logged : owner = id ∧ ∃ relation log, (standard kind).log? relation = some log ∧
        log.table = table
    · obtain ⟨rfl, relation, log, logged, rfl⟩ := logged
      obtain ⟨added, rows, given, _⟩ :=
        writes.exists_added registered admits sturdy.keyed logged member numbered
      rw [rows, counter_self]
      cases added with
      | none =>
          rw [Option.toList_none, List.append_nil]
          exact ⟨numbered, by omega⟩
      | some link =>
          refine ⟨?_, ?_⟩
          · rw [Numbered, Option.toList_some, List.map_append, List.length_append, numbered,
              List.length_singleton, List.range'_1_concat, List.map_singleton,
              (given link rfl).1, Nat.add_comm 1]
          · rw [Option.toList_some, List.length_append, List.length_singleton]
            omega
    · -- no event is about this table and this owner
      have same : after.linkRows table owner member = store.linkRows table owner member := by
        refine writes.linkRows_of_quiet registered admits sturdy.keyed ?_
        intro own event listed here _
        have about := ((Env.Writes.mem_linkEvents_iff admits).mp listed).1
        exact absurd ⟨own, _, _, about, here⟩ logged
      rw [same]
      exact ⟨numbered, Nat.le_trans short (counter_le owner)⟩
  refine ⟨writes.soundRows sturdy.rows admits, ?_, keyed, fun table owner member =>
    (links table owner member).1, fun table owner member => (links table owner member).2⟩
  intro table other number snapshot found
  by_cases own : (table, other, number) = ((standard kind).historyTable, id, version)
  · rw [own, writes.snapshot?_self] at found
    cases found
    cases own
    exact ⟨rfl, writes.bounded⟩
  · rw [writes.snapshot?_of_ne own] at found
    exact sturdy.versions table other number snapshot found

theorem move {env : Env} (registered : env.registry = .standard) (sturdy : store.Sturdy)
    (move : Move env store after) : after.Sturdy := by
  rcases move.applied_or_keepsRecords with ⟨kind, id, _, _, _, applied⟩ | kept
  · obtain ⟨admits, applies⟩ := Env.apply_applies registered sturdy.rows applied
    cases applies with
    | unchanged immaterial => exact sturdy
    | @written version _ _ material next writes =>
        have later : store.counter id < version := by
          rcases next with rfl | rfl
          · exact Nat.lt_succ_self _
          · exact Nat.lt_succ_of_le (Nat.le_max_left _ _)
        exact sturdy.writes registered admits later writes
  · rw [kept]
    exact ⟨sturdy.rows, sturdy.versions, sturdy.keyed, sturdy.numbered, sturdy.short⟩

end Sturdy

end Store

theorem Strewn.sturdy {store : Store} (strewn : Strewn .standard store) : store.Sturdy := by
  induction strewn with
  | start => exact Store.sturdy_empty
  | operated _ retries now operation ih =>
      exact (operation.perform_trail ⟨.standard, retries, now⟩ _).keeps
        (fun _ _ _ registered sturdy move => sturdy.move registered move) ih
  | stray _ kind snapshot inserted ih => exact ih.insertSnapshot inserted

/-! ## The version that is tried next -/

namespace Store

/-- The version that a commit gives to a record: the one after that of its row, or if that is taken,
the one after all that are. -/
def nextVersion (store : Store) (kind : Kind) (id : EntityId) : Nat :=
  if store.recorded? kind id (store.counter id + 1) = none then store.counter id + 1
  else max (store.counter id) (store.lastVersion (standard kind) id) + 1

theorem counter_lt_nextVersion (store : Store) (kind : Kind) (id : EntityId) :
    store.counter id < store.nextVersion kind id := by
  unfold nextVersion
  split
  · exact Nat.lt_succ_self _
  · exact Nat.lt_succ_of_le (Nat.le_max_left _ _)

/-- The version after all that are taken is free. -/
theorem Sturdy.recorded?_nextVersion {store : Store} (sturdy : store.Sturdy) (kind : Kind)
    (id : EntityId) : store.recorded? kind id (store.nextVersion kind id) = none := by
  unfold nextVersion
  split
  · assumption
  · refine Option.eq_none_iff_forall_ne_some.mpr fun snapshot kept => ?_
    have version := (sturdy.versions _ _ _ _ kept).1
    have last := lastVersion_le_iff.mp (Nat.le_refl _) snapshot (mem_snapshotsOf.mpr ⟨_, kept⟩)
    omega

end Store

/-! ## One commit -/

theorem Store.insertSnapshot_of_taken {store : Store} {kind : Kind} {new : Snapshot}
    (bounded : new.version < versionLimit) {snapshot : Snapshot}
    (taken : store.recorded? kind new.entity new.version = some snapshot) :
    store.insertSnapshot (standard kind) new =
      .error (.snapshotTaken kind new.entity new.version) := by
  have contained : store.snapshots.contains
      ((standard kind).historyTable, new.entity, new.version) = true := by
    rw [Dict.contains, ← Store.recorded?, taken]
    rfl
  rw [insertSnapshot, VersionColumn.check, if_pos bounded, Descriptor.standard_fixedColumns,
    Descriptor.standard_kind]
  exact if_pos (Or.inr contained)

namespace Env

variable {env : Env} {kind : Kind} {id : EntityId} {proposed : Option Content}
  {attribution : Attribution} {store : Store}

section Attempts

variable (started : ¬ env.now < 0) (sturdy : store.Sturdy) (admits : store.Admits kind id proposed)

include started sturdy admits

/-- A version that has a snapshot is refused as taken, although its row could be written. -/
theorem writeVersion_of_taken {version : Nat} (positive : 0 < version) {snapshot : Snapshot}
    (taken : store.recorded? kind id version = some snapshot) :
    env.writeVersion (standard kind) id (versionContent store id proposed)
        (changeTo store kind id proposed) attribution version store =
      .error (.store (.snapshotTaken kind id version)) := by
  have clock : env.clock = .ok env.now := clock_eq_ok.mpr ⟨rfl, started⟩
  have bounded := (sturdy.versions _ _ _ _ taken).2
  have row := writeRow_carried env sturdy.rows admits positive bounded
  have refused : (store.setRow id (versionRow env store kind id proposed version)).insertSnapshot
      (standard kind) (versionSnapshot env store kind id proposed attribution version) =
        .error (.snapshotTaken kind id version) := Store.insertSnapshot_of_taken bounded taken
  rw [writeVersion, clock]
  change (Refusal.ofStore _ >>= _) = _
  rw [row]
  simp only [Descriptor.standard_kind]
  change (Refusal.ofStore (Store.insertSnapshot _ _
    (versionSnapshot env store kind id proposed attribution version)) >>= _) = _
  rw [refused]
  rfl

/-- An attempt at a later version that is free is the last one. -/
theorem writeNext_of_free (registered : env.registry = .standard) {version : Nat}
    (later : store.counter id < version) (free : store.recorded? kind id version = none)
    (attempts : Nat) :
    env.writeNext (standard kind) id (versionContent store id proposed)
        (changeTo store kind id proposed) attribution (store.counter id) store (attempts + 1)
        version =
      env.writeVersion (standard kind) id (versionContent store id proposed)
        (changeTo store kind id proposed) attribution version store := by
  rw [writeNext]
  by_cases bounded : version < versionLimit
  · obtain ⟨outcome, after, written⟩ := writeVersion_carried registered started sturdy.rows
      sturdy.keyed (sturdy.tallies kind id) admits later bounded free
    rw [written]
  · rw [writeVersion_of_beyond started sturdy.rows admits bounded]

/-- What a commit that is admitted and changes something comes down to: one retry finds a version
that is free. -/
theorem apply_of_sturdy (registered : env.registry = .standard)
    (material : (changeTo store kind id proposed).isMaterial = true) :
    env.apply kind id proposed attribution store =
      if env.retries = 0 ∧ store.recorded? kind id (store.counter id + 1) ≠ none then
        .error (.versionRaced kind id 1)
      else
        env.writeVersion (standard kind) id (versionContent store id proposed)
          (changeTo store kind id proposed) attribution (store.nextVersion kind id) store := by
  have later := store.counter_lt_nextVersion kind id
  have free := sturdy.recorded?_nextVersion kind id
  rw [apply_of_admits registered sturdy.rows admits, if_pos material]
  cases taken : store.recorded? kind id (store.counter id + 1) with
  | none =>
      rw [if_neg (fun both => both.2 rfl), Store.nextVersion, if_pos taken]
      exact writeNext_of_free started sturdy admits registered (Nat.lt_succ_self _) taken env.retries
  | some snapshot =>
      have chosen : store.nextVersion kind id =
          max (store.counter id) (store.lastVersion (standard kind) id) + 1 := by
        rw [Store.nextVersion, if_neg (by simp [taken])]
      rw [writeNext, writeVersion_of_taken started sturdy admits (Nat.succ_pos _) taken]
      dsimp only
      rw [← chosen]
      cases retries : env.retries with
      | zero =>
          rw [if_pos ⟨rfl, Option.some_ne_none _⟩, writeNext, retries, Descriptor.standard_kind]
      | succ attempts =>
          rw [if_neg (fun both => Nat.succ_ne_zero _ both.1)]
          exact writeNext_of_free started sturdy admits registered later free attempts

/-- A commit gives up, or ends with an attempt at a version that is free, which fails only if the
number is out of range. -/
theorem commit_cases (registered : env.registry = .standard)
    (material : (changeTo store kind id proposed).isMaterial = true) :
    ((env.retries = 0 ∧ store.recorded? kind id (store.counter id + 1) ≠ none) ∧
      env.commit kind id proposed attribution store = (.error (.versionRaced kind id 1), store)) ∨
    (¬ (env.retries = 0 ∧ store.recorded? kind id (store.counter id + 1) ≠ none) ∧
      ((∃ outcome after, env.commit kind id proposed attribution store = (.ok outcome, after) ∧
          env.writeVersion (standard kind) id (versionContent store id proposed)
            (changeTo store kind id proposed) attribution (store.nextVersion kind id) store =
              .ok (outcome, after)) ∨
        (¬ store.nextVersion kind id < versionLimit ∧
          env.commit kind id proposed attribution store =
            (.error (.store (.outOfRange .version (store.nextVersion kind id))), store)))) := by
  have attempted : env.apply kind id proposed attribution store = _ :=
    apply_of_sturdy started sturdy admits registered material
  by_cases givesUp : env.retries = 0 ∧ store.recorded? kind id (store.counter id + 1) ≠ none
  · rw [if_pos givesUp] at attempted
    exact Or.inl ⟨givesUp, transact_of_error attempted⟩
  · rw [if_neg givesUp] at attempted
    refine Or.inr ⟨givesUp, ?_⟩
    by_cases bounded : store.nextVersion kind id < versionLimit
    · obtain ⟨outcome, after, written⟩ := writeVersion_carried registered started sturdy.rows
        sturdy.keyed (sturdy.tallies kind id) admits (store.counter_lt_nextVersion kind id) bounded
        (sturdy.recorded?_nextVersion kind id)
      exact Or.inl ⟨outcome, after, transact_eq_ok.mpr (attempted.trans written), written⟩
    · have refused := attempted.trans (writeVersion_of_beyond started sturdy.rows admits bounded)
      exact Or.inr ⟨bounded, transact_of_error refused⟩

end Attempts

end Env

/-! ## Commits among stray snapshots -/

/-- How a commit deals with versions that are taken. `raced` says when it gives up, `accounted` what
it has done if it is carried out: the same as an attempt at the one version in the first place. -/
structure Env.Retries (env : Env) (kind : Kind) (id : EntityId) (proposed : Option Content)
    (attribution : Attribution) (store : Store) : Prop where
  raced : ∀ otherKind other attempts,
    (env.commit kind id proposed attribution store).1 =
        .error (.versionRaced otherKind other attempts) ↔
      (env.retries = 0 ∧ store.recorded? kind id (store.counter id + 1) ≠ none) ∧
        otherKind = kind ∧ other = id ∧ attempts = 1
  kept : ∀ refusal, (env.commit kind id proposed attribution store).1 = .error refusal →
    (env.commit kind id proposed attribution store).2 = store
  carried : (env.retries ≠ 0 ∨ store.recorded? kind id (store.counter id + 1) = none) →
    store.nextVersion kind id < versionLimit →
    ∃ outcome after, env.commit kind id proposed attribution store = (.ok outcome, after)
  accounted : ∀ outcome after, env.commit kind id proposed attribution store = (.ok outcome, after) →
    env.Accounts kind id proposed attribution (store.nextVersion kind id) store outcome after ∧
      env.writeVersion (standard kind) id (Env.versionContent store id proposed)
        (Env.changeTo store kind id proposed) attribution (store.nextVersion kind id) store =
          .ok (outcome, after)

/-- A commit that is admitted and changes something is told that its version was taken only if no
retry is allowed, and otherwise takes the next version that is free. -/
theorem Strewn.commit_retries {env : Env} (registered : env.registry = .standard)
    (started : ¬ env.now < 0) {store : Store} (strewn : Strewn .standard store) {kind : Kind}
    {id : EntityId} {proposed : Option Content} (admits : store.Admits kind id proposed)
    (material : (Env.changeTo store kind id proposed).isMaterial = true)
    (attribution : Attribution) : env.Retries kind id proposed attribution store := by
  have sturdy := strewn.sturdy
  rcases Env.commit_cases started sturdy admits registered material with
    ⟨givesUp, answer⟩ | ⟨goesOn, ⟨outcome, after, answer, written⟩ | ⟨beyond, answer⟩⟩
  · constructor
    case raced =>
      intro otherKind other attempts
      rw [answer, and_iff_right givesUp, Except.error.injEq, Refusal.versionRaced.injEq]
      exact and_congr eq_comm (and_congr eq_comm eq_comm)
    case kept =>
      intro _ _
      rw [answer]
    case carried =>
      intro allowed _
      exact absurd givesUp (by tauto)
    case accounted =>
      intro outcome after carried
      rw [answer] at carried
      cases carried
  · constructor
    case raced =>
      intro otherKind other attempts
      rw [answer]
      exact ⟨nofun, fun raced => absurd raced.1 goesOn⟩
    case kept =>
      intro refusal refused
      rw [answer] at refused
      cases refused
    case carried => exact fun _ _ => ⟨outcome, after, answer⟩
    case accounted =>
      intro other last carried
      rw [answer] at carried
      cases carried
      have writes := Env.writeVersion_writes sturdy.rows admits written
      exact ⟨writes.accounts registered admits sturdy.keyed (sturdy.tallies kind id), written⟩
  · constructor
    case raced =>
      intro otherKind other attempts
      rw [answer]
      exact ⟨nofun, fun raced => absurd raced.1 goesOn⟩
    case kept =>
      intro _ _
      rw [answer]
    case carried => exact fun _ inRange => absurd inRange beyond
    case accounted =>
      intro outcome after carried
      rw [answer] at carried
      cases carried

/-- A story without its tag. -/
def Content.storm : Content := ⟨.ofList [("title", .text "storm")], .empty⟩

/-- A store with a story that has a tag. -/
def Store.withTaggedStorm : Store :=
  .following ⟨.standard, 3, 0⟩
    [.commit .attr ⟨⟨1⟩⟩ (some ⟨.ofList [("key", .text "rain")], .empty⟩) ⟨"editor", .direct⟩,
      .commit .story ⟨⟨2⟩⟩ (some (Content.storm.setMembers "attributes" [⟨⟨1⟩⟩]))
        ⟨"editor", .direct⟩]

/-- The same with stray snapshots of the story, at the version after its own and at a later one. -/
def Store.withStraySnapshots : Store :=
  Store.withTaggedStorm.strew .story ([2, 7].map fun version =>
    ⟨⟨⟨2⟩⟩, .story, version, 0, "stray", .direct, .noChange, .empty, .empty⟩)

/-- The story loses its tag in the version after all that are taken, or not at all if no retry is
allowed. -/
theorem commit_retries_withStraySnapshots :
    (Strewn .standard .withStraySnapshots ∧ ¬ (0 : Int64) < 0 ∧
      Store.withStraySnapshots.Admits .story ⟨⟨2⟩⟩ (some .storm) ∧
      (Env.changeTo .withStraySnapshots .story ⟨⟨2⟩⟩ (some .storm)).isMaterial = true) ∧
    (∃ outcome after, Env.commit ⟨.standard, 1, 0⟩ .story ⟨⟨2⟩⟩ (some .storm) ⟨"editor", .direct⟩
        .withStraySnapshots = (.ok outcome, after) ∧
      Env.Accounts ⟨.standard, 1, 0⟩ .story ⟨⟨2⟩⟩ (some .storm) ⟨"editor", .direct⟩ 8
        .withStraySnapshots outcome after ∧
      (after.linkRows "story_attribute_history" ⟨⟨2⟩⟩ ⟨⟨1⟩⟩).map LinkRow.ownerVersion = [1, 8]) ∧
    (Env.commit ⟨.standard, 0, 0⟩ .story ⟨⟨2⟩⟩ (some .storm) ⟨"editor", .direct⟩
      .withStraySnapshots).1 = .error (.versionRaced .story ⟨⟨2⟩⟩ 1) := by
  have reachable : Reachable .standard .withTaggedStorm := reachable_following ⟨.standard, 3, 0⟩ _
  have strewn : Strewn .standard .withStraySnapshots := reachable.strewn.strew .story _
  have started : ¬ (0 : Int64) < 0 := by decide
  have registered (retries : Nat) : (⟨.standard, retries, 0⟩ : Env).registry = .standard := rfl
  have carried : (Env.apply ⟨.standard, 1, 0⟩ .story ⟨⟨2⟩⟩ (some .storm) ⟨"editor", .direct⟩
      .withStraySnapshots).toOption.map (fun done =>
        (done.2.linkRows "story_attribute_history" ⟨⟨2⟩⟩ ⟨⟨1⟩⟩).map LinkRow.ownerVersion) =
      some [1, 8] := by decide +kernel
  obtain ⟨⟨outcome, after⟩, given, versions⟩ := Option.map_eq_some_iff.mp carried
  have applied := eq_ok_of_toOption given
  have admits := (Env.apply_applies (registered 1) strewn.sturdy.rows applied).1
  have material : (Env.changeTo .withStraySnapshots .story ⟨⟨2⟩⟩ (some .storm)).isMaterial = true := by
    decide +kernel
  have next : Store.withStraySnapshots.nextVersion .story ⟨⟨2⟩⟩ = 8 := by decide +kernel
  have taken : Store.withStraySnapshots.recorded? .story ⟨⟨2⟩⟩
      (Store.withStraySnapshots.counter ⟨⟨2⟩⟩ + 1) ≠ none := by decide +kernel
  have once := strewn.commit_retries (registered 1) started admits material ⟨"editor", .direct⟩
  have never := strewn.commit_retries (registered 0) started admits material ⟨"editor", .direct⟩
  have committed := transact_eq_ok.mpr applied
  have accounts := (once.accounted outcome after committed).1
  rw [next] at accounts
  exact ⟨⟨strewn, started, admits, material⟩, ⟨outcome, after, committed, accounts, versions⟩,
    (never.raced .story ⟨⟨2⟩⟩ 1).mpr ⟨⟨rfl, taken⟩, rfl, rfl, rfl⟩⟩

end Chronicle
