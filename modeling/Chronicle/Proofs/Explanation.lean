import Chronicle.Proofs.Snapshots

/-!
# Histories that explain the present

Snapshots are taken from the content that is proposed, while the row of a record holds a reduced
form of it, and the next change is judged by the row. The two never drift apart
(`Store.Traced`): the row is the canonical form of the last snapshot, so each snapshot tells of
just the change that leads to it from the one before.
-/

namespace Chronicle

open Descriptor (standard)

/-! ## The invariant -/

/-- What a snapshot says about the step from the one before it. -/
structure Snapshot.Follows (later earlier : Snapshot) (kind : Kind) : Prop where
  changed : later.change ≠ .deleted →
    later.change = ((standard kind).compare (some earlier.content) (some later.content)).kind
  emptied : later.change = .deleted →
    later.fields = (earlier.fields.filter fun _ value => !value.isNull) ∧ later.relations = ∅

/-- The row of each record agrees with its last snapshot, its time of creation with the first,
and each snapshot with the one before. -/
structure Store.Traced (store : Store) : Prop where
  recorded : store.Recorded
  last : ∀ id row snapshot, store.row? id = some row →
    store.recorded? row.kind id row.version = some snapshot →
    row.content = snapshot.content.canonical ∧ row.updatedAt = snapshot.changedAt
  first : ∀ id row snapshot, store.row? id = some row →
    store.recorded? row.kind id 1 = some snapshot → row.createdAt = snapshot.changedAt
  follows : ∀ kind id version earlier later, store.recorded? kind id version = some earlier →
    store.recorded? kind id (version + 1) = some later → later.Follows earlier kind

theorem Store.traced_empty : Store.empty.Traced := by
  refine ⟨Store.recorded_empty, ?_, ?_, ?_⟩
  · intro id row snapshot found
    cases found
  · intro id row snapshot found
    cases found
  · intro kind id version earlier later found
    cases found

/-! ## One commit -/

namespace Env.Writes

variable {env : Env} {kind : Kind} {id : EntityId} {proposed : Option Content}
  {attribution : Attribution} {version : Nat} {store after : Store} {outcome : Outcome}

/-- The snapshot of a deletion has the fields of the row, and no members. -/
theorem emptied_self (deleted : proposed = none) {row : EntityRow}
    (found : store.row? id = some row) :
    (versionSnapshot env store kind id proposed attribution version).fields =
        row.content.fields ∧
      (versionSnapshot env store kind id proposed attribution version).relations = ∅ := by
  subst deleted
  have content : versionContent store id none = ⟨row.content.fields, ∅⟩ := by
    rw [versionContent, Option.getD_none, Content.remains, Store.stored?, found]
    rfl
  constructor
  · rw [versionSnapshot, content]
  · have nobody (relation : String) : (versionContent store id none).members relation = [] := by
      rw [content]
      rfl
    exact Store.memberRefs_eq_empty nobody
      (store.setRow id (versionRow env store kind id none version)) (standard kind)

/-- The snapshot of a version follows the last one before it. -/
theorem follows_self (traced : store.Traced) (admits : store.Admits kind id proposed)
    (writes : Writes env kind id proposed attribution version store outcome after)
    {row : EntityRow} (found : store.row? id = some row) {earlier : Snapshot}
    (before : store.recorded? kind id row.version = some earlier) :
    (versionSnapshot env store kind id proposed attribution version).Follows earlier kind := by
  obtain ⟨rfl, _⟩ := admits.present row found
  obtain ⟨content, _⟩ := traced.last id row earlier found before
  have stored := Store.stored?_of_row? found
  cases same : proposed with
  | some next =>
      subst same
      refine ⟨fun _ => ?_, fun deleted => ?_⟩
      · -- the change was judged by the row, which counts as the last snapshot
        change (changeTo store row.kind id (some next)).kind = _
        rw [changeTo, stored]
        refine Descriptor.compare_kind_of_normal_eq (Descriptor.standard_relation_names _) ?_
          (writes.content_normal admits).symm
        rw [content, Descriptor.standard_normal_canonical]
      · have something : store.stored? id = none → some next ≠ none :=
          fun _ => Option.some_ne_none next
        exact absurd ((compare_kind_deleted_iff _ something).mp deleted) (Option.some_ne_none next)
  | none =>
      have deleted : (changeTo store row.kind id none).kind = .deleted := by
        rw [changeTo, stored]
        rfl
      refine ⟨fun other => absurd deleted other, fun _ => ?_⟩
      have remains : (versionSnapshot env store row.kind id none attribution version).fields =
            row.content.fields ∧
          (versionSnapshot env store row.kind id none attribution version).relations = ∅ :=
        emptied_self rfl found
      obtain ⟨fields, relations⟩ := remains
      rw [fields, content]
      exact ⟨rfl, relations⟩

/-- The row of every record still agrees with its last snapshot. -/
theorem last_after (traced : store.Traced) (admits : store.Admits kind id proposed)
    (writes : Writes env kind id proposed attribution version store outcome after)
    {other : EntityId} {row : EntityRow} {snapshot : Snapshot}
    (found : after.row? other = some row)
    (kept : after.recorded? row.kind other row.version = some snapshot) :
    row.content = snapshot.content.canonical ∧ row.updatedAt = snapshot.changedAt := by
  by_cases same : other = id
  · subst same
    rw [writes.row?_self] at found
    cases found
    change after.recorded? kind other version = some snapshot at kept
    rw [writes.recorded?_self] at kept
    cases kept
    exact ⟨writes.content_canonical admits, rfl⟩
  · rw [writes.row?_of_ne same] at found
    rw [writes.recorded?_of_other same] at kept
    exact traced.last other row snapshot found kept

/-- A new record was created with its first snapshot, and no other gets another first one. -/
theorem first_after (traced : store.Traced) (admits : store.Admits kind id proposed)
    (next : version = store.counter id + 1)
    (writes : Writes env kind id proposed attribution version store outcome after)
    {other : EntityId} {row : EntityRow} {snapshot : Snapshot}
    (found : after.row? other = some row)
    (kept : after.recorded? row.kind other 1 = some snapshot) :
    row.createdAt = snapshot.changedAt := by
  by_cases same : other = id
  · subst same
    rw [writes.row?_self] at found
    cases found
    change after.recorded? kind other 1 = some snapshot at kept
    change ((store.row? other).map EntityRow.createdAt).getD env.now = snapshot.changedAt
    cases before : store.row? other with
    | none =>
        have first : version = 1 := by
          rw [next, (traced.recorded.counter_eq_zero_iff other).mpr before]
        subst first
        rw [writes.recorded?_self] at kept
        cases kept
        rfl
    | some old =>
        obtain ⟨rfl, _⟩ := admits.present old before
        have positive := (traced.recorded.rows other old before).positive
        have counter := Store.counter_of_row? before
        rw [writes.recorded?_of_older (by omega)] at kept
        exact traced.first other old snapshot before kept
  · rw [writes.row?_of_ne same] at found
    rw [writes.recorded?_of_other same] at kept
    exact traced.first other row snapshot found kept

/-- Each snapshot still follows the one before it. -/
theorem follows_after (traced : store.Traced) (admits : store.Admits kind id proposed)
    (recordedAfter : after.Recorded) (next : version = store.counter id + 1)
    (writes : Writes env kind id proposed attribution version store outcome after)
    {otherKind : Kind} {other : EntityId} {number : Nat} {earlier later : Snapshot}
    (earlierKept : after.recorded? otherKind other number = some earlier)
    (laterKept : after.recorded? otherKind other (number + 1) = some later) :
    later.Follows earlier otherKind := by
  by_cases same : other = id
  · subst same
    by_cases here : number + 1 = version
    · -- the new snapshot, after the one that was the last
      obtain ⟨row, found, sameKind, _⟩ := recordedAfter.row_of_recorded? laterKept
      rw [writes.row?_self] at found
      cases found
      change kind = otherKind at sameKind
      subst sameKind
      rw [here, writes.recorded?_self] at laterKept
      cases laterKept
      rw [writes.recorded?_of_older (by omega)] at earlierKept
      obtain ⟨row, found, _⟩ := traced.recorded.row_of_recorded? earlierKept
      have counter := Store.counter_of_row? found
      have last : number = row.version := by omega
      rw [last] at earlierKept
      exact follows_self traced admits writes found earlierKept
    · have bound := recordedAfter.le_counter laterKept
      rw [Store.counter_of_row? writes.row?_self] at bound
      change number + 1 ≤ version at bound
      rw [writes.recorded?_of_older (by omega)] at earlierKept laterKept
      exact traced.follows otherKind other number earlier later earlierKept laterKept
  · rw [writes.recorded?_of_other same] at earlierKept laterKept
    exact traced.follows otherKind other number earlier later earlierKept laterKept

/-- A written version keeps what is traced. -/
theorem traced (traced : store.Traced) (admits : store.Admits kind id proposed)
    (material : (changeTo store kind id proposed).isMaterial = true)
    (next : version = store.counter id + 1)
    (writes : Writes env kind id proposed attribution version store outcome after) :
    after.Traced := by
  have recordedAfter := writes.recorded traced.recorded admits material next
  exact ⟨recordedAfter, fun _ _ _ => writes.last_after traced admits,
    fun _ _ _ => writes.first_after traced admits next,
    fun _ _ _ _ _ => writes.follows_after traced admits recordedAfter next⟩

end Env.Writes

/-! ## Reachable stores -/

namespace Store

theorem Traced.move {env : Env} (registered : env.registry = .standard) {store after : Store}
    (traced : store.Traced) (move : Move env store after) : after.Traced := by
  rcases move.applied_or_keepsRecords with ⟨_, _, _, _, _, applied⟩ | kept
  · obtain ⟨admits, applies⟩ := Env.apply_applies registered traced.recorded.rows applied
    cases applies with
    | unchanged immaterial => exact traced
    | written material next writes =>
        exact writes.traced traced admits material (traced.recorded.next_version next)
  · have recorded := traced.recorded.of_keepsRecords kept
    rw [kept] at recorded ⊢
    exact ⟨recorded, traced.last, traced.first, traced.follows⟩

end Store

theorem Reachable.traced {store : Store} (reachable : Reachable .standard store) : store.Traced :=
  reachable.keeps Store.traced_empty fun _ _ _ registered traced move =>
    traced.move registered move

/-- What the snapshots of a record explain: the content that is loaded, the changes from one
version to the next, and the times in the row. -/
structure Store.Explains (store : Store) (id : EntityId) (row : EntityRow) : Prop where
  versions : ∀ version, (∃ snapshot, store.recorded? row.kind id version = some snapshot) ↔
    1 ≤ version ∧ version ≤ row.version
  loaded : ∀ snapshot, store.recorded? row.kind id row.version = some snapshot →
    store.load (standard row.kind) id = snapshot.content.canonical
  changed : ∀ version earlier later, store.recorded? row.kind id version = some earlier →
    store.recorded? row.kind id (version + 1) = some later → later.change ≠ .deleted →
    later.change =
      ((standard row.kind).compare (some earlier.content) (some later.content)).kind
  differs : ∀ version earlier later, store.recorded? row.kind id version = some earlier →
    store.recorded? row.kind id (version + 1) = some later → later.change ≠ .deleted →
    (standard row.kind).normal earlier.content ≠ (standard row.kind).normal later.content
  emptied : ∀ version earlier later, store.recorded? row.kind id version = some earlier →
    store.recorded? row.kind id (version + 1) = some later → later.change = .deleted →
    version + 1 = row.version ∧
      later.fields = (earlier.fields.filter fun _ value => !value.isNull) ∧ later.relations = ∅
  created : ∀ snapshot, store.recorded? row.kind id 1 = some snapshot →
    row.createdAt = snapshot.changedAt
  updated : ∀ snapshot, store.recorded? row.kind id row.version = some snapshot →
    row.updatedAt = snapshot.changedAt

/-- In every store that a run can lead to, the history of every record explains its present. -/
theorem Reachable.explained {store : Store} (reachable : Reachable .standard store)
    {id : EntityId} {row : EntityRow} (found : store.row? id = some row) :
    store.Explains id row := by
  have traced := reachable.traced
  have recorded := traced.recorded
  have fits {version : Nat} {snapshot : Snapshot}
      (kept : store.recorded? row.kind id version = some snapshot) :
      snapshot.Fits (standard row.kind).historyTable id version row := by
    obtain ⟨other, otherFound, _, fits⟩ := recorded.row_of_recorded? kept
    rw [found] at otherFound
    cases otherFound
    exact fits
  refine ⟨?_, ?_, ?_, ?_, ?_, ?_, ?_⟩
  · intro version
    constructor
    · rintro ⟨snapshot, kept⟩
      exact ⟨(fits kept).first, (fits kept).last⟩
    · rintro ⟨first, last⟩
      exact recorded.complete id row found version first last
  · intro snapshot kept
    rw [Store.load_of_sound recorded.rows found]
    exact (traced.last id row snapshot found kept).1
  · intro version earlier later earlierKept laterKept
    exact (traced.follows row.kind id version earlier later earlierKept laterKept).changed
  · intro version earlier later earlierKept laterKept notDeleted same
    have change := (traced.follows row.kind id version earlier later earlierKept
      laterKept).changed notDeleted
    have immaterial := Descriptor.immaterial_of_normal_eq
      (Descriptor.standard_relation_names row.kind) same
    rw [Change.isMaterial, ← change] at immaterial
    exact of_decide_eq_false immaterial (fits laterKept).material
  · intro version earlier later earlierKept laterKept deleted
    exact ⟨((fits laterKept).deleted.mp deleted).2,
      (traced.follows row.kind id version earlier later earlierKept laterKept).emptied deleted⟩
  · intro snapshot kept
    exact traced.first id row snapshot found kept
  · intro snapshot kept
    exact (traced.last id row snapshot found kept).2

/-- A store with a story that was sent with an empty comment and a tag named twice, got another
title and was deleted. -/
def Store.withWithdrawnStory : Store :=
  .following ⟨.standard, 3, 0⟩
    [.commit .attr ⟨⟨1⟩⟩ (some ⟨.ofList [("key", .text "draft")], .empty⟩) ⟨"editor", .direct⟩,
      .commit .story ⟨⟨2⟩⟩ (some ⟨.ofList [("title", .text "rain"), ("comments", .null)],
        .ofList [("attributes", [⟨⟨1⟩⟩, ⟨⟨1⟩⟩])]⟩) ⟨"editor", .direct⟩,
      .modify .story ⟨⟨2⟩⟩ ⟨"editor", .direct⟩ fun content =>
        content.setField "title" (.text "storm"),
      .delete .story ⟨⟨2⟩⟩ ⟨"editor", .direct⟩]

theorem explained_withWithdrawnStory :
    Reachable .standard .withWithdrawnStory ∧
    ∃ row, Store.withWithdrawnStory.row? ⟨⟨2⟩⟩ = some row ∧
      (row.deleted = true ∧ row.version = 3) ∧
      Store.withWithdrawnStory.Explains ⟨⟨2⟩⟩ row := by
  have reachable : Reachable .standard .withWithdrawnStory :=
    reachable_following ⟨.standard, 3, 0⟩ _
  have stored : (Store.withWithdrawnStory.row? ⟨⟨2⟩⟩).map (fun row => (row.deleted, row.version)) =
      some (true, 3) := by decide +kernel
  obtain ⟨row, found, deleted⟩ := Option.map_eq_some_iff.mp stored
  exact ⟨reachable, row, found, Prod.mk.inj deleted, reachable.explained found⟩

end Chronicle
