import Chronicle.Proofs.Divergence
import Chronicle.Proofs.Lingering

/-!
# Reads of the past

What a store remembers of an earlier one (`Store.Remembers`) is what the reads of the past are made
from: the snapshots of a record come in a row, to which a later store adds at the end
(`Store.Remembers.snapshotsOf`), and the rows that tell of the members at a version stay the same
(`Store.Remembers.rowsUntil_eq`). So nothing that was read of the past is read in another way later
on, and a record that is still at the version it had is read as it was (`Reachable.past_stands`).
-/

namespace Chronicle

open Descriptor (standard)

namespace Store

theorem SoundRows.counter_lt {store : Store} (sound : store.SoundRows) (id : EntityId) :
    store.counter id < versionLimit := by
  cases found : store.row? id with
  | none =>
      rw [counter, found]
      decide
  | some row =>
      rw [counter_of_row? found]
      exact (sound id row found).bounded

/-! ## Snapshots in a row -/

namespace Recorded

variable {store : Store}

theorem snapshotsOf_ascending (recorded : store.Recorded) (kind : Kind) (id : EntityId) :
    (store.snapshotsOf (standard kind) id).Pairwise fun earlier later =>
      earlier.version < later.version := by
  by_cases nothing : store.snapshotsOf (standard kind) id = []
  · rw [nothing]
    exact .nil
  · obtain ⟨snapshot, listed⟩ := List.exists_mem_of_ne_nil _ nothing
    obtain ⟨version, kept⟩ := mem_snapshotsOf.mp listed
    obtain ⟨row, found, rfl, _⟩ := recorded.row_of_recorded? kept
    exact List.pairwise_map.mp (recorded.versions_ascending found)

/-- The snapshots of a record are those of the versions that it has reached, one after another. -/
theorem snapshotsOf_eq (recorded : store.Recorded) (kind : Kind) (id : EntityId) :
    store.snapshotsOf (standard kind) id =
      (List.range' 1 (store.counter id)).filterMap (store.recorded? kind id) := by
  refine eq_of_ascending (fun first second before after => ?_)
    (recorded.snapshotsOf_ascending kind id) ?_ fun snapshot => ?_
  · omega
  · refine List.pairwise_filterMap.mpr ((List.pairwise_lt_range' ..).imp ?_)
    intro first second before earlier earlierKept later laterKept
    obtain ⟨_, _, _, fits⟩ := recorded.row_of_recorded? earlierKept
    obtain ⟨_, _, _, laterFits⟩ := recorded.row_of_recorded? laterKept
    rwa [fits.version_eq, laterFits.version_eq]
  · rw [mem_snapshotsOf, List.mem_filterMap]
    constructor
    · rintro ⟨version, kept⟩
      obtain ⟨_, _, _, fits⟩ := recorded.row_of_recorded? kept
      have first := fits.first
      have reached := recorded.le_counter kept
      exact ⟨version, List.mem_range'_1.mpr (by omega), kept⟩
    · rintro ⟨version, _, kept⟩
      exact ⟨version, kept⟩

end Recorded

/-! ## What stays as it was read -/

namespace Remembers

variable {first second : Store}

/-- Snapshots are added at the end: those of the versions that have been reached since. -/
theorem snapshotsOf_eq_append (remembers : first.Remembers second) (recorded : first.Recorded)
    (nextRecorded : second.Recorded) (kind : Kind) (id : EntityId) :
    second.snapshotsOf (standard kind) id = first.snapshotsOf (standard kind) id ++
      (List.range' (1 + first.counter id) (second.counter id - first.counter id)).filterMap
        (second.recorded? kind id) := by
  have further : second.counter id = first.counter id + (second.counter id - first.counter id) := by
    have counters := remembers.counters id
    omega
  have known : (List.range' 1 (first.counter id)).filterMap (second.recorded? kind id) =
      (List.range' 1 (first.counter id)).filterMap (first.recorded? kind id) := by
    refine List.filterMap_congr fun version listed => ?_
    have reached := List.mem_range'_1.mp listed
    exact remembers.recorded kind id version (by omega)
  rw [nextRecorded.snapshotsOf_eq, recorded.snapshotsOf_eq, ← known, ← List.filterMap_append,
    List.range'_append_1, ← further]

theorem snapshotsOf (remembers : first.Remembers second) (recorded : first.Recorded)
    (nextRecorded : second.Recorded) (kind : Kind) (id : EntityId) :
    ∃ more, second.snapshotsOf (standard kind) id = first.snapshotsOf (standard kind) id ++ more :=
  ⟨_, remembers.snapshotsOf_eq_append recorded nextRecorded kind id⟩

/-- Link rows up to a version that the owner had reached stay as they were, since those that are
added name later ones. -/
theorem rowsUntil_eq (remembers : first.Remembers second) (keyed : first.KeyedLinks)
    (nextKeyed : second.KeyedLinks) (table : String) {owner : EntityId} {version : Nat}
    (reached : version ≤ first.counter owner) :
    second.rowsUntil table owner version = first.rowsUntil table owner version := by
  refine eq_of_sorted Dict.values_ofList_map_sorted Dict.values_ofList_map_sorted fun link => ?_
  rw [mem_rowsUntil_iff keyed, mem_rowsUntil_iff nextKeyed]
  obtain ⟨more, grown, later⟩ := remembers.links table owner link.member
  rw [grown, List.mem_append]
  constructor
  · rintro ⟨known | added, early⟩
    · exact ⟨known, early⟩
    · have beyond := later link added
      omega
  · rintro ⟨known, early⟩
    exact ⟨Or.inl known, early⟩

end Remembers

end Store

/-! ## Reading -/

namespace Env

variable {env : Env}

theorem history_standard (registered : env.registry = .standard) (store : Store) (kind : Kind)
    (id : EntityId) :
    env.history store kind id = .ok (store.snapshotsOf (standard kind) id) := by
  refine bind_eq_ok.mpr ⟨_, descriptor_standard registered kind, ofStore_eq_ok.mpr ?_⟩
  refine bind_eq_ok.mpr ⟨(), ?_, rfl⟩
  rw [Store.checkHistory, Descriptor.standard_fixedColumns]
  rfl

/-- A snapshot that is read is one that is recorded. -/
theorem snapshotAt_eq_some_iff (registered : env.registry = .standard) {store : Store}
    (recorded : store.Recorded) {kind : Kind} {id : EntityId} {version : Nat}
    {snapshot : Snapshot} :
    env.snapshotAt store kind id version = .ok (some snapshot) ↔
      store.recorded? kind id version = some snapshot := by
  constructor
  · intro read
    have bounded : version < versionLimit := by
      obtain ⟨_, _, found⟩ := bind_eq_ok.mp read
      obtain ⟨_, checked, _⟩ := bind_eq_ok.mp (ofStore_eq_ok.mp found)
      by_contra beyond
      rw [VersionColumn.check, if_neg beyond] at checked
      cases checked
    rw [snapshotAt_standard registered store kind id bounded] at read
    exact Except.ok.inj read
  · intro kept
    have bounded := Nat.lt_of_le_of_lt (recorded.le_counter kept) (recorded.rows.counter_lt id)
    rw [snapshotAt_standard registered store kind id bounded, kept]

end Env

/-! ## Runs -/

/-- What was read of the past of a store, by whoever reads it, is read of a later one as well:
snapshots are the same, histories are longer at most, and the members that an owner had at a version
that it had reached are the same. A record that is live at the same version has the same content. -/
structure Store.Stands (earlier : Store) (env : Env) (later : Store) (next : Env) : Prop where
  snapshots : ∀ kind id version snapshot,
    env.snapshotAt earlier kind id version = .ok (some snapshot) →
    next.snapshotAt later kind id version = .ok (some snapshot)
  history : ∀ kind id, ∃ known more, env.history earlier kind id = .ok known ∧
    next.history later kind id = .ok (known ++ more)
  links : ∀ kind relation owner member, ((standard kind).log? relation).isSome = true →
    ∃ known more, env.linkHistory earlier kind relation owner member = .ok known ∧
      next.linkHistory later kind relation owner member = .ok (known ++ more)
  members : ∀ kind relation owner version, ((standard kind).log? relation).isSome = true →
    version ≤ earlier.counter owner →
    ∃ members, env.membersAt earlier kind owner relation version = .ok members ∧
      next.membersAt later kind owner relation version = .ok members
  present : ∀ id version, earlier.liveVersion? id = some version →
    later.liveVersion? id = some version →
    ∃ record, env.record? earlier id = .ok (some record) ∧
      next.record? later id = .ok (some record)

/-- In every store that a run can lead to, what is read of the past stands in all runs that go on
from there. -/
theorem Reachable.past_stands {earlier later : Store} (reachable : Reachable .standard earlier)
    (run : Run .standard earlier later) {env next : Env} (registered : env.registry = .standard)
    (nextRegistered : next.registry = .standard) : earlier.Stands env later next := by
  have early := Trail.of_run reachable
  have late := Trail.of_run run
  have chained := early.chained
  have nextChained := (early.trans late).chained
  have remembers := late.remembers chained
  have recorded := chained.traced.recorded
  have nextRecorded := nextChained.traced.recorded
  refine ⟨?_, ?_, ?_, ?_, ?_⟩
  · intro kind id version snapshot read
    rw [Env.snapshotAt_eq_some_iff registered recorded] at read
    rw [Env.snapshotAt_eq_some_iff nextRegistered nextRecorded,
      remembers.recorded kind id version (recorded.le_counter read), read]
  · intro kind id
    obtain ⟨more, grown⟩ := remembers.snapshotsOf recorded nextRecorded kind id
    refine ⟨_, more, Env.history_standard registered earlier kind id, ?_⟩
    rw [Env.history_standard nextRegistered, grown]
  · intro kind relation owner member logged
    obtain ⟨log, logged⟩ := Option.isSome_iff_exists.mp logged
    obtain ⟨more, grown, _⟩ := remembers.links log.table owner member
    refine ⟨_, more, Env.linkHistory_standard registered logged earlier owner member, ?_⟩
    rw [Env.linkHistory_standard nextRegistered logged, grown]
  · intro kind relation owner version logged reached
    obtain ⟨log, logged⟩ := Option.isSome_iff_exists.mp logged
    have bounded : version < versionLimit :=
      Nat.lt_of_le_of_lt reached (recorded.rows.counter_lt owner)
    refine ⟨_, Env.membersAt_standard registered earlier logged owner bounded, ?_⟩
    rw [Env.membersAt_standard nextRegistered later logged owner bounded, Store.latest, Store.latest,
      remembers.rowsUntil_eq chained.keyed nextChained.keyed log.table reached]
  · intro id version live nextLive
    obtain ⟨row, found, notDeleted, rfl⟩ := Store.liveVersion?_eq_some_iff.mp live
    obtain ⟨last, lastFound, _, same⟩ := Store.liveVersion?_eq_some_iff.mp nextLive
    obtain rfl := remembers.row_eq chained.traced nextChained.traced found lastFound same
    have shown := Env.record?_of_sound registered recorded.rows id
    have nextShown := Env.record?_of_sound nextRegistered nextRecorded.rows id
    rw [Store.live?_eq_some_iff.mpr ⟨found, notDeleted⟩] at shown
    rw [Store.live?_eq_some_iff.mpr ⟨lastFound, notDeleted⟩] at nextShown
    exact ⟨_, shown, nextShown⟩

/-- A store with a story and its tag. -/
def Store.withTaggedStory : Store :=
  .following ⟨.standard, 3, 0⟩
    [.commit .attr ⟨⟨1⟩⟩ (some ⟨.ofList [("key", .text "draft")], .empty⟩) ⟨"editor", .direct⟩,
      .commit .story ⟨⟨2⟩⟩ (some ⟨.ofList [("title", .text "rain")],
        .ofList [("attributes", [⟨⟨1⟩⟩])]⟩) ⟨"editor", .direct⟩]

/-- The store once the tag has been taken from the story. -/
def Store.withUntaggedStory : Store :=
  Operation.perform ⟨.standard, 3, 1⟩ .withTaggedStory
    (.commit .story ⟨⟨2⟩⟩ (some ⟨.ofList [("title", .text "rain")], .empty⟩) ⟨"editor", .direct⟩)

/-- That the story had the tag at its first version stands, though it has none any more. -/
theorem past_stands_withUntaggedStory :
    Reachable .standard .withTaggedStory ∧ Run .standard .withTaggedStory .withUntaggedStory ∧
      (Store.withTaggedStory.counter ⟨⟨2⟩⟩ = 1 ∧ Store.withUntaggedStory.counter ⟨⟨2⟩⟩ = 2) ∧
      Store.withTaggedStory.Stands ⟨.standard, 3, 0⟩ .withUntaggedStory ⟨.standard, 3, 1⟩ := by
  have reachable : Reachable .standard .withTaggedStory := reachable_following ⟨.standard, 3, 0⟩ _
  have run : Run .standard .withTaggedStory .withUntaggedStory := .step .start 3 1 _
  exact ⟨reachable, run, ⟨by decide +kernel, by decide +kernel⟩,
    reachable.past_stands run rfl rfl⟩

end Chronicle
