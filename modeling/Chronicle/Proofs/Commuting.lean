import Chronicle.Proofs.Accounts
import Chronicle.Proofs.Lingering
import Chronicle.Proofs.Locality
import Chronicle.Proofs.Membership

/-!
# Commits that can change places

A commit changes its own record alone: all others keep their rows, snapshots and link rows
(`Env.apply_elsewhere`). So two commits about different records, neither of which is a member that is
stored or proposed for the other, do not see each other. Carried out in either order they answer the
same, and the stores that they lead to cannot be told apart (`Reachable.commits_commute`): only the
order in which link rows came is another, which is not read under the standard registry.
-/

namespace Chronicle

open Descriptor (standard)

/-! ## What a commit leaves alone -/

/-- Only the tables of records differ between two stores, and there only what is about one. -/
structure Store.ChangesOnly (store : Store) (id : EntityId) (after : Store) : Prop where
  records : store.AgreesOn (fun other => other ≠ id) after
  conflicts : after.conflicts = store.conflicts
  supply : after.supply = store.supply

namespace Env

variable {env : Env} {kind : Kind} {id : EntityId} {proposed : Option Content}
  {attribution : Attribution} {store : Store}

theorem apply_elsewhere (registered : env.registry = .standard) (sound : store.SoundRows)
    {outcome : Outcome} {after : Store}
    (applied : env.apply kind id proposed attribution store = .ok (outcome, after)) :
    store.ChangesOnly id after := by
  obtain ⟨admits, applies⟩ := apply_applies registered sound applied
  cases applies with
  | unchanged immaterial => exact ⟨.refl _ store, rfl, rfl⟩
  | written material next writes =>
      refine ⟨⟨fun other different => writes.row?_of_ne different, ?_, ?_⟩, writes.conflicts,
        writes.supply⟩
      · intro table other version different
        rw [writes.snapshots]
        exact Dict.get?_insert_of_ne _ (fun same => different (Prod.mk.inj (Prod.mk.inj same).2).1) _
      · intro table other member version different
        exact (writes.links_elsewhere registered admits fun same => absurd same different).1

/-- A commit leaves all other records alone, whether it is carried out or refused. -/
theorem commit_elsewhere (registered : env.registry = .standard) (sound : store.SoundRows) :
    store.ChangesOnly id (env.commit kind id proposed attribution store).2 := by
  rcases transact_cases (env.apply kind id proposed attribution) store with ⟨outcome, applied⟩ | same
  · exact apply_elsewhere registered sound applied
  · rw [commit, same]
    exact ⟨.refl _ store, rfl, rfl⟩

theorem commit_soundRows (registered : env.registry = .standard) (sound : store.SoundRows) :
    (env.commit kind id proposed attribution store).2.SoundRows := by
  rcases transact_cases (env.apply kind id proposed attribution) store with ⟨outcome, applied⟩ | same
  · exact apply_soundRows registered sound applied
  · rw [commit, same]
    exact sound

/-- A commit answers the same in stores that agree on the records that it concerns, which agree on
these afterwards. -/
theorem commit_local {within : EntityId → Prop} {other : Store}
    (agrees : store.AgreesOn within other) (concerns : store.Concerns within id proposed) :
    (env.commit kind id proposed attribution other).1 =
        (env.commit kind id proposed attribution store).1 ∧
      (env.commit kind id proposed attribution store).2.AgreesOn within
        (env.commit kind id proposed attribution other).2 := by
  have alike : SameOn within (env.apply kind id proposed attribution store)
      (env.apply kind id proposed attribution other) := env.apply_local agrees concerns attribution
  unfold commit Step.transact
  revert alike
  generalize env.apply kind id proposed attribution store = answer
  generalize env.apply kind id proposed attribution other = otherAnswer
  intro alike
  cases alike with
  | refused causes => exact ⟨congrArg Except.error causes.symm, agrees⟩
  | carried same => exact ⟨congrArg Except.ok same.1.symm, same.2⟩

end Env

/-! ## Stores that cannot be told apart -/

/-- Two stores are the same but for the order in which link rows came, and it is not read. -/
structure Store.ReadsAs (first second : Store) : Prop where
  tables : second = { first with places := second.places }
  linkHistory : ∀ env : Env, env.registry = .standard → ∀ kind relation owner member,
    env.linkHistory second kind relation owner member =
      env.linkHistory first kind relation owner member
  membersAt : ∀ env : Env, env.registry = .standard → ∀ kind owner relation version,
    env.membersAt second kind owner relation version =
      env.membersAt first kind owner relation version

/-- Under the standard registry each log has a table of its own. -/
theorem Env.linkTable_own {env : Env} (registered : env.registry = .standard) {kind : Kind}
    {relation : String} {table : LinkTable} (given : env.linkTable kind relation = .ok table) :
    ∃ name, table = .own name := by
  cases logged : (standard kind).log? relation with
  | some log =>
      rw [linkTable_standard registered logged] at given
      exact ⟨log.table, (Except.ok.inj given).symm⟩
  | none =>
      obtain ⟨descriptor, known, given⟩ := bind_eq_ok.mp given
      rw [descriptor_standard registered] at known
      cases known
      change ((standard kind).relation? relation).bind RelationSpec.log = none at logged
      rw [logged] at given
      cases given

theorem Store.ReadsAs.of_tables {first second : Store}
    (tables : second = { first with places := second.places }) : first.ReadsAs second := by
  generalize second.places = places at tables
  subst tables
  refine ⟨rfl, ?_, ?_⟩
  · intro env registered kind relation owner member
    unfold Env.linkHistory
    cases given : env.linkTable kind relation with
    | error refusal => rfl
    | ok table =>
        obtain ⟨name, rfl⟩ := Env.linkTable_own registered given
        rfl
  · intro env registered kind owner relation version
    unfold Env.membersAt
    cases given : env.linkTable kind relation with
    | error refusal => rfl
    | ok table =>
        obtain ⟨name, rfl⟩ := Env.linkTable_own registered given
        rfl

/-! ## Two commits in either order -/

/-- Two operations answer the same in either order, and the stores that they lead to cannot be told
apart. -/
structure Store.Commute (store : Store) (first second : Store → Except Refusal Outcome × Store) :
    Prop where
  firstAnswer : (first (second store).2).1 = (first store).1
  secondAnswer : (second (first store).2).1 = (second store).1
  reads : (second (first store).2).2.ReadsAs (first (second store).2).2

/-- Two operations that change one record each, and answer the same whatever the other one did. -/
theorem Store.Commute.of_local {store : Store} {id otherId : EntityId} (apart : id ≠ otherId)
    {first second : Store → Except Refusal Outcome × Store}
    (firstOnly : store.ChangesOnly id (first store).2)
    (firstLater : (second store).2.ChangesOnly id (first (second store).2).2)
    (secondOnly : store.ChangesOnly otherId (second store).2)
    (secondLater : (first store).2.ChangesOnly otherId (second (first store).2).2)
    (firstLocal : (first (second store).2).1 = (first store).1 ∧
      (first store).2.AgreesOn (fun record => record ≠ otherId) (first (second store).2).2)
    (secondLocal : (second (first store).2).1 = (second store).1 ∧
      (second store).2.AgreesOn (fun record => record ≠ id) (second (first store).2).2) :
    store.Commute first second := by
  refine ⟨firstLocal.1, secondLocal.1, .of_tables ?_⟩
  have elsewhere := secondLocal.2.symm.trans firstLater.records
  have here := secondLater.records.symm.trans firstLocal.2
  have all (record : EntityId) : record ≠ id ∨ record ≠ otherId := by
    by_cases same : record = id
    · exact Or.inr fun other => apart (same.symm.trans other)
    · exact Or.inl same
  have conflicts := (firstLater.conflicts.trans secondOnly.conflicts).trans
    (secondLater.conflicts.trans firstOnly.conflicts).symm
  have supply := (firstLater.supply.trans secondOnly.supply).trans
    (secondLater.supply.trans firstOnly.supply).symm
  obtain ⟨entities, snapshots, links⟩ := (elsewhere.either here all).tables_eq
  rw [← entities, ← snapshots, ← links, ← conflicts, ← supply]

/-- In every store that a run can lead to, two commits can change places if neither concerns the
record that the other is about: as its own record, or as a member stored or proposed for it. -/
theorem Reachable.commits_commute {env other : Env} (registered : env.registry = .standard)
    (otherRegistered : other.registry = .standard) {store : Store}
    (reachable : Reachable .standard store) {kind otherKind : Kind} {id otherId : EntityId}
    {proposed otherProposed : Option Content} (attribution otherAttribution : Attribution)
    (concerns : store.Concerns (fun record => record ≠ otherId) id proposed)
    (otherConcerns : store.Concerns (fun record => record ≠ id) otherId otherProposed) :
    store.Commute (env.commit kind id proposed attribution)
      (other.commit otherKind otherId otherProposed otherAttribution) := by
  have sound := (Trail.of_run reachable).chained.traced.recorded.rows
  have first : store.ChangesOnly id (env.commit kind id proposed attribution store).2 :=
    Env.commit_elsewhere registered sound
  have second : store.ChangesOnly otherId
      (other.commit otherKind otherId otherProposed otherAttribution store).2 :=
    Env.commit_elsewhere otherRegistered sound
  exact .of_local concerns.self first
    (Env.commit_elsewhere registered (Env.commit_soundRows otherRegistered sound)) second
    (Env.commit_elsewhere otherRegistered (Env.commit_soundRows registered sound))
    (Env.commit_local second.records concerns) (Env.commit_local first.records otherConcerns)

/-- A story with the tag of `Store.withForeseenTag`. -/
def Content.tagged (title : String) : Content :=
  ⟨.ofList [("title", .text title)], .ofList [("attributes", [⟨⟨1⟩⟩])]⟩

/-- Two stories get one tag. Their link rows come in another order, so the stores are not the same. -/
theorem commits_commute_withForeseenTag :
    Reachable .standard .withForeseenTag ∧
    let first := Env.commit ⟨.standard, 3, 0⟩ .story ⟨⟨2⟩⟩ (some (.tagged "rain")) ⟨"editor", .direct⟩
    let second := Env.commit ⟨.standard, 0, 7⟩ .story ⟨⟨3⟩⟩ (some (.tagged "storm")) ⟨"desk", .direct⟩
    Store.withForeseenTag.Commute first second ∧
      (second (first .withForeseenTag).2).2 ≠ (first (second .withForeseenTag).2).2 := by
  have reachable : Reachable .standard .withForeseenTag := reachable_following ⟨.standard, 3, 0⟩ _
  have concerns (id other : EntityId) (apart : id ≠ other) (tag : ⟨⟨1⟩⟩ ≠ other)
      (new : Store.withForeseenTag.row? id = none) (title : String) :
      Store.withForeseenTag.Concerns (fun record => record ≠ other) id (some (.tagged title)) := by
    refine ⟨apart, fun row found => ?_, fun content same => ?_⟩
    · rw [new] at found
      cases found
    · cases same
      refine Content.membersIn_iff.mpr fun entry listed member isMember => ?_
      obtain rfl : entry = ("attributes", [⟨⟨1⟩⟩]) := List.mem_singleton.mp listed
      rwa [List.mem_singleton.mp isMember]
  refine ⟨reachable, ?_, by decide +kernel⟩
  exact reachable.commits_commute rfl rfl _ _
    (concerns _ _ (by decide) (by decide) (by decide +kernel) _)
    (concerns _ _ (by decide) (by decide) (by decide +kernel) _)

end Chronicle
