import Chronicle.Proofs.Commit
import Chronicle.Proofs.Trail

/-!
# Histories without gaps

The version of a row, the snapshots of its record, the mark of a deleted record and its members
are written by separate statements. That they always fit together is an invariant of the store
(`Store.Recorded`), which a commit keeps because the version it writes is always the one after
that of the row: there are no snapshots beyond it.
-/

namespace Chronicle

open Descriptor (standard)

/-! ## The invariant -/

/-- What a snapshot that is kept under a key has to do with the row of its record. -/
structure Snapshot.Fits (snapshot : Snapshot) (table : String) (id : EntityId) (version : Nat)
    (row : EntityRow) : Prop where
  table_eq : table = (standard row.kind).historyTable
  first : 1 ≤ version
  last : version ≤ row.version
  entity_eq : snapshot.entity = id
  kind_eq : snapshot.kind = row.kind
  version_eq : snapshot.version = version
  created : snapshot.change = .created ↔ version = 1
  material : snapshot.change ≠ .noChange
  deleted : snapshot.change = .deleted ↔ row.deleted = true ∧ version = row.version

/-- A snapshot of a live record fits every later row of it, since it is not the last one any
more. -/
theorem Snapshot.Fits.outlived {snapshot : Snapshot} {table : String} {id : EntityId}
    {version : Nat} {row next : EntityRow} (fits : snapshot.Fits table id version row)
    (live : row.deleted = false) (kind : next.kind = row.kind) (later : row.version < next.version) :
    snapshot.Fits table id version next := by
  have last := fits.last
  refine ⟨?_, fits.first, ?_, fits.entity_eq, ?_, fits.version_eq, fits.created, fits.material, ?_⟩
  · rw [kind]
    exact fits.table_eq
  · omega
  · rw [kind]
    exact fits.kind_eq
  · rw [fits.deleted, live]
    constructor
    · rintro ⟨impossible, _⟩
      cases impossible
    · rintro ⟨_, here⟩
      omega

/-- Rows are sound, each snapshot fits the row of its record, and no version of a record is
without a snapshot. -/
structure Store.Recorded (store : Store) : Prop where
  rows : store.SoundRows
  fits : ∀ table id version snapshot, store.snapshots.get? (table, id, version) = some snapshot →
    ∃ row, store.row? id = some row ∧ snapshot.Fits table id version row
  complete : ∀ id row, store.row? id = some row → ∀ version, 1 ≤ version → version ≤ row.version →
    ∃ snapshot, store.snapshots.get? ((standard row.kind).historyTable, id, version) =
      some snapshot

namespace Store

theorem recorded_empty : Store.empty.Recorded := by
  refine ⟨?_, ?_, ?_⟩
  · intro id row found
    cases found
  · intro table id version snapshot found
    cases found
  · intro id row found
    cases found

/-! ## Snapshots of a record -/

theorem mem_snapshotsOf {store : Store} {descriptor : Descriptor} {id : EntityId}
    {snapshot : Snapshot} :
    snapshot ∈ store.snapshotsOf descriptor id ↔
      ∃ version, store.snapshots.get? (descriptor.historyTable, id, version) = some snapshot := by
  simp only [snapshotsOf, Dict.mem_values_iff, Dict.get?_filter, Option.filter_eq_some_iff,
    Bool.and_eq_true, decide_eq_true_eq]
  constructor
  · rintro ⟨⟨table, other, version⟩, found, rfl, rfl⟩
    exact ⟨version, found⟩
  · rintro ⟨version, found⟩
    exact ⟨(descriptor.historyTable, id, version), found, rfl, rfl⟩

/-- The last version is within a bound exactly if those of all snapshots are. -/
theorem lastVersion_le_iff {store : Store} {descriptor : Descriptor} {id : EntityId} {bound : Nat} :
    store.lastVersion descriptor id ≤ bound ↔
      ∀ snapshot ∈ store.snapshotsOf descriptor id, snapshot.version ≤ bound := by
  have fold : ∀ (snapshots : List Snapshot) (last : Nat),
      snapshots.foldl (fun last snapshot => max last snapshot.version) last ≤ bound ↔
        last ≤ bound ∧ ∀ snapshot ∈ snapshots, snapshot.version ≤ bound := by
    intro snapshots
    induction snapshots with
    | nil => simp
    | cons first rest ih =>
        intro last
        rw [List.foldl_cons, ih, Nat.max_le, List.forall_mem_cons, and_assoc]
  rw [lastVersion, fold]
  exact and_iff_right (Nat.zero_le bound)

namespace Recorded

variable {store : Store}

theorem lastVersion_le_counter (recorded : store.Recorded) (kind : Kind) (id : EntityId) :
    store.lastVersion (standard kind) id ≤ store.counter id := by
  refine lastVersion_le_iff.mpr ?_
  intro snapshot listed
  obtain ⟨version, found⟩ := mem_snapshotsOf.mp listed
  obtain ⟨row, rowFound, fits⟩ := recorded.fits _ _ _ _ found
  have last := fits.last
  rw [counter_of_row? rowFound, fits.version_eq]
  exact last

/-- The next version is always the one after that of the row. -/
theorem next_version (recorded : store.Recorded) {kind : Kind} {id : EntityId} {version : Nat}
    (next : version = store.counter id + 1 ∨
      version = max (store.counter id) (store.lastVersion (standard kind) id) + 1) :
    version = store.counter id + 1 := by
  have bound := recorded.lastVersion_le_counter kind id
  omega

theorem counter_eq_zero_iff (recorded : store.Recorded) (id : EntityId) :
    store.counter id = 0 ↔ store.row? id = none := by
  unfold counter
  cases found : store.row? id with
  | none => simp
  | some row =>
      have positive := (recorded.rows id row found).positive
      simp
      omega

end Recorded

end Store

/-! ## One commit -/

namespace Env.Writes

variable {env : Env} {kind : Kind} {id : EntityId} {proposed : Option Content}
  {attribution : Attribution} {version : Nat} {store after : Store} {outcome : Outcome}

theorem snapshot?_self
    (writes : Writes env kind id proposed attribution version store outcome after) :
    after.snapshots.get? ((standard kind).historyTable, id, version) =
      some (versionSnapshot env store kind id proposed attribution version) := by
  rw [writes.snapshots, Dict.get?_insert_self]

theorem snapshot?_of_ne
    (writes : Writes env kind id proposed attribution version store outcome after)
    {key : String × EntityId × Nat} (other : key ≠ ((standard kind).historyTable, id, version)) :
    after.snapshots.get? key = store.snapshots.get? key := by
  rw [writes.snapshots, Dict.get?_insert_of_ne _ other]

/-- The snapshot that has been written fits the row that has been written. -/
theorem fits_self (recorded : store.Recorded) (admits : store.Admits kind id proposed)
    (material : (changeTo store kind id proposed).isMaterial = true)
    (next : version = store.counter id + 1) :
    (versionSnapshot env store kind id proposed attribution version).Fits
      (standard kind).historyTable id version (versionRow env store kind id proposed version) := by
  have something := admits.something_stored
  have created : (changeTo store kind id proposed).kind = .created ↔ version = 1 := by
    have absent := recorded.counter_eq_zero_iff id
    rw [changeTo, compare_kind_created_iff _ something, Store.stored?, Option.map_eq_none_iff,
      ← absent]
    omega
  have deleted : (changeTo store kind id proposed).kind = .deleted ↔
      proposed.isNone = true ∧ version = version := by
    rw [changeTo, compare_kind_deleted_iff _ something, Option.isNone_iff_eq_none]
    simp
  have first : 1 ≤ version := by omega
  exact ⟨rfl, first, Nat.le_refl version, rfl, rfl, rfl, created, of_decide_eq_true material,
    deleted⟩

/-- A written version keeps the invariant. -/
theorem recorded (recorded : store.Recorded) (admits : store.Admits kind id proposed)
    (material : (changeTo store kind id proposed).isMaterial = true)
    (next : version = store.counter id + 1)
    (writes : Writes env kind id proposed attribution version store outcome after) :
    after.Recorded := by
  refine ⟨writes.soundRows recorded.rows admits, ?_, ?_⟩
  · intro table other number snapshot found
    by_cases own : (table, other, number) = ((standard kind).historyTable, id, version)
    · rw [own, writes.snapshot?_self] at found
      cases found
      cases own
      exact ⟨_, writes.row?_self, fits_self recorded admits material next⟩
    · rw [writes.snapshot?_of_ne own] at found
      obtain ⟨row, rowFound, fits⟩ := recorded.fits table other number snapshot found
      by_cases same : other = id
      · -- an older snapshot of the record
        subst same
        obtain ⟨rfl, live⟩ := admits.present row rowFound
        have counter := Store.counter_of_row? rowFound
        have later : row.version < version := by omega
        exact ⟨_, writes.row?_self, fits.outlived live rfl later⟩
      · exact ⟨row, by rw [writes.row?_of_ne same, rowFound], fits⟩
  · intro other row found number first last
    by_cases same : other = id
    · subst same
      rw [writes.row?_self] at found
      cases found
      change number ≤ version at last
      change ∃ snapshot,
        after.snapshots.get? ((standard kind).historyTable, other, number) = some snapshot
      by_cases here : number = version
      · subst here
        exact ⟨_, writes.snapshot?_self⟩
      · have older : ∃ row, store.row? other = some row := by
          refine Option.ne_none_iff_exists'.mp ?_
          intro none
          have zero := (recorded.counter_eq_zero_iff other).mpr none
          omega
        obtain ⟨row, rowFound⟩ := older
        have counter := Store.counter_of_row? rowFound
        obtain ⟨snapshot, kept⟩ := recorded.complete other row rowFound number first (by omega)
        rw [(admits.present row rowFound).1] at kept
        refine ⟨snapshot, ?_⟩
        rw [writes.snapshot?_of_ne (by simp [here]), kept]
    · rw [writes.row?_of_ne same] at found
      obtain ⟨snapshot, kept⟩ := recorded.complete other row found number first last
      refine ⟨snapshot, ?_⟩
      rw [writes.snapshot?_of_ne (by simp [same]), kept]

end Env.Writes

/-! ## The list of versions -/

namespace Store.Recorded

variable {store : Store} {id : EntityId} {row : EntityRow}

theorem fits_of_mem (recorded : store.Recorded) (found : store.row? id = some row)
    {snapshot : Snapshot} (listed : snapshot ∈ store.snapshotsOf (standard row.kind) id) :
    snapshot.Fits (standard row.kind).historyTable id snapshot.version row := by
  obtain ⟨version, kept⟩ := mem_snapshotsOf.mp listed
  obtain ⟨other, otherFound, fits⟩ := recorded.fits _ _ _ _ kept
  rw [found] at otherFound
  cases otherFound
  rw [fits.version_eq]
  exact fits

theorem exists_snapshot_iff (recorded : store.Recorded) (found : store.row? id = some row)
    (version : Nat) :
    (∃ snapshot ∈ store.snapshotsOf (standard row.kind) id, snapshot.version = version) ↔
      1 ≤ version ∧ version ≤ row.version := by
  constructor
  · rintro ⟨snapshot, listed, rfl⟩
    have fits := recorded.fits_of_mem found listed
    exact ⟨fits.first, fits.last⟩
  · rintro ⟨first, last⟩
    obtain ⟨snapshot, kept⟩ := recorded.complete id row found version first last
    obtain ⟨_, _, fits⟩ := recorded.fits _ _ _ _ kept
    exact ⟨snapshot, mem_snapshotsOf.mpr ⟨version, kept⟩, fits.version_eq⟩

/-- The snapshots come by ascending version. -/
theorem versions_ascending (recorded : store.Recorded) (found : store.row? id = some row) :
    ((store.snapshotsOf (standard row.kind) id).map Snapshot.version).Pairwise (· < ·) := by
  rw [snapshotsOf, Dict.values, List.map_map, List.pairwise_map]
  refine List.Pairwise.imp_of_mem ?_ (Dict.sorted _)
  rintro ⟨⟨table, owner, version⟩, snapshot⟩ ⟨⟨otherTable, other, later⟩, next⟩ listed nextListed
    before
  have entry {key : String × EntityId × Nat} {snapshot : Snapshot}
      (listed : (key, snapshot) ∈ (store.snapshots.filter fun key _ =>
        decide (key.1 = (standard row.kind).historyTable) && decide (key.2.1 = id)).entries) :
      key.1 = (standard row.kind).historyTable ∧ key.2.1 = id ∧ snapshot.version = key.2.2 := by
    rw [← Dict.get?_eq_some_iff, Dict.get?_filter, Option.filter_eq_some_iff, Bool.and_eq_true,
      decide_eq_true_eq, decide_eq_true_eq] at listed
    obtain ⟨kept, here, own⟩ := listed
    obtain ⟨_, _, fits⟩ := recorded.fits key.1 key.2.1 key.2.2 snapshot kept
    exact ⟨here, own, fits.version_eq⟩
  obtain ⟨rfl, rfl, version_eq⟩ := entry listed
  obtain ⟨rfl, rfl, later_eq⟩ := entry nextListed
  -- the keys differ in nothing but the version
  rw [Key.before_mk_self, Key.before_mk_self] at before
  have versions : version < later := of_decide_eq_true before
  change snapshot.version < next.version
  rw [version_eq, later_eq]
  exact versions

theorem map_version_eq (recorded : store.Recorded) (found : store.row? id = some row) :
    (store.snapshotsOf (standard row.kind) id).map Snapshot.version =
      List.range' 1 row.version := by
  refine eq_of_ascending (fun a b before after => ?_) (recorded.versions_ascending found)
    (List.pairwise_lt_range' ..) fun version => ?_
  · omega
  · rw [List.mem_map, recorded.exists_snapshot_iff found, List.mem_range'_1]
    omega

end Store.Recorded

/-! ## Reachable stores -/

namespace Store

theorem Recorded.apply {env : Env} (registered : env.registry = .standard) {kind : Kind}
    {id : EntityId} {proposed : Option Content} {attribution : Attribution} {outcome : Outcome}
    {store after : Store} (recorded : store.Recorded)
    (applied : env.apply kind id proposed attribution store = .ok (outcome, after)) :
    after.Recorded := by
  obtain ⟨admits, applies⟩ := Env.apply_applies registered recorded.rows applied
  cases applies with
  | unchanged immaterial => exact recorded
  | written material next writes =>
      exact writes.recorded recorded admits material (recorded.next_version next)

theorem Recorded.of_keepsRecords {store after : Store} (recorded : store.Recorded)
    (kept : store.KeepsRecords after) : after.Recorded := by
  rw [kept]
  exact ⟨recorded.rows, recorded.fits, recorded.complete⟩

theorem Recorded.move {env : Env} (registered : env.registry = .standard) {store after : Store}
    (recorded : store.Recorded) (move : Move env store after) : after.Recorded := by
  rcases move.applied_or_keepsRecords with ⟨_, _, _, _, _, applied⟩ | kept
  · exact recorded.apply registered applied
  · exact recorded.of_keepsRecords kept

end Store

theorem Reachable.recorded {store : Store} (reachable : Reachable .standard store) :
    store.Recorded :=
  reachable.keeps Store.recorded_empty fun _ _ _ registered recorded move =>
    recorded.move registered move

/-- What the tables hold of a record: a snapshot for each version up to that of the row, in its
own table and in no other. -/
structure Store.Gapless (store : Store) (id : EntityId) (row : EntityRow) : Prop where
  started : 1 ≤ row.version
  versions : (store.snapshotsOf (standard row.kind) id).map Snapshot.version =
    List.range' 1 row.version
  own : ∀ snapshot ∈ store.snapshotsOf (standard row.kind) id,
    snapshot.entity = id ∧ snapshot.kind = row.kind
  created : ∀ snapshot ∈ store.snapshotsOf (standard row.kind) id,
    snapshot.change = .created ↔ snapshot.version = 1
  material : ∀ snapshot ∈ store.snapshotsOf (standard row.kind) id, snapshot.change ≠ .noChange
  deleted : (∃ snapshot ∈ store.snapshotsOf (standard row.kind) id, snapshot.change = .deleted) ↔
    row.deleted = true
  last : ∀ snapshot ∈ store.snapshotsOf (standard row.kind) id,
    snapshot.change = .deleted → snapshot.version = row.version
  elsewhere : ∀ table version, table ≠ (standard row.kind).historyTable →
    store.snapshots.get? (table, id, version) = none
  emptied : row.deleted = true → ∀ relation, row.content.members relation = []

/-- In every store that a run can lead to, the history of every record is without gaps. -/
theorem Reachable.gapless {store : Store} (reachable : Reachable .standard store) {id : EntityId}
    {row : EntityRow} (found : store.row? id = some row) : store.Gapless id row := by
  have recorded := reachable.recorded
  have sound := recorded.rows id row found
  have fits {snapshot : Snapshot}
      (listed : snapshot ∈ store.snapshotsOf (standard row.kind) id) :=
    recorded.fits_of_mem found listed
  have versions := recorded.map_version_eq found
  refine ⟨sound.positive, versions, ?_, ?_, ?_, ?_, ?_, ?_, sound.emptied⟩
  · intro snapshot listed
    exact ⟨(fits listed).entity_eq, (fits listed).kind_eq⟩
  · intro snapshot listed
    exact (fits listed).created
  · intro snapshot listed
    exact (fits listed).material
  · constructor
    · rintro ⟨snapshot, listed, change⟩
      exact ((fits listed).deleted.mp change).1
    · intro deleted
      obtain ⟨snapshot, listed, last⟩ := (recorded.exists_snapshot_iff found row.version).mpr
        ⟨sound.positive, Nat.le_refl _⟩
      exact ⟨snapshot, listed, (fits listed).deleted.mpr ⟨deleted, last⟩⟩
  · intro snapshot listed change
    exact ((fits listed).deleted.mp change).2
  · intro table version other
    refine Option.eq_none_iff_forall_ne_some.mpr ?_
    intro snapshot kept
    obtain ⟨own, ownFound, ownFits⟩ := recorded.fits table id version snapshot kept
    rw [found] at ownFound
    cases ownFound
    exact other ownFits.table_eq

/-- A store with a tag that was made, renamed and deleted. -/
def Store.withDeletedTag : Store :=
  .following ⟨.standard, 3, 0⟩
    [.commit .attr ⟨⟨1⟩⟩ (some ⟨.ofList [("key", .text "draft")], .empty⟩) ⟨"editor", .direct⟩,
      .commit .attr ⟨⟨1⟩⟩ (some ⟨.ofList [("key", .text "final")], .empty⟩) ⟨"editor", .direct⟩,
      .delete .attr ⟨⟨1⟩⟩ ⟨"editor", .direct⟩]

theorem gapless_withDeletedTag :
    Reachable .standard .withDeletedTag ∧
    ∃ row, Store.withDeletedTag.row? ⟨⟨1⟩⟩ = some row ∧ (row.deleted = true ∧ row.version = 3) ∧
      Store.withDeletedTag.Gapless ⟨⟨1⟩⟩ row := by
  have reachable : Reachable .standard .withDeletedTag := reachable_following ⟨.standard, 3, 0⟩ _
  have stored : (Store.withDeletedTag.row? ⟨⟨1⟩⟩).map (fun row => (row.deleted, row.version)) =
      some (true, 3) := by decide +kernel
  obtain ⟨row, found, deleted⟩ := Option.map_eq_some_iff.mp stored
  exact ⟨reachable, row, found, Prod.mk.inj deleted, reachable.gapless found⟩

end Chronicle
