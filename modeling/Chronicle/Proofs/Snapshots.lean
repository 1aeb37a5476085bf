import Chronicle.Proofs.History
import Chronicle.Proofs.Tables

/-!
# What snapshots record

The snapshot that is written with a version has the values and the members of the proposed
content, and each member with the version that it has once the row is written
(`Env.Writes.refs_self`). Its content and the content of the row are two views of the same
thing: the row holds the canonical form (`Env.Writes.content_canonical`).
-/

namespace Chronicle

open Descriptor (standard)

/-! ## Reading snapshots -/

/-- The snapshot of a version of a record of a standard kind. -/
def Store.recorded? (store : Store) (kind : Kind) (id : EntityId) (version : Nat) :
    Option Snapshot :=
  store.snapshots.get? ((standard kind).historyTable, id, version)

/-- What is read as the snapshot of a version is what is recorded. -/
theorem Env.snapshotAt_standard {env : Env} (registered : env.registry = .standard)
    (store : Store) (kind : Kind) (id : EntityId) {version : Nat}
    (bounded : version < versionLimit) :
    env.snapshotAt store kind id version = .ok (store.recorded? kind id version) := by
  have stored : store.snapshot? (standard kind) id version =
      .ok (store.recorded? kind id version) := by
    simp only [Store.snapshot?, bind_eq_ok, pure_eq_ok]
    refine ⟨(), if_pos bounded, (), ?_, rfl⟩
    rw [Store.checkHistory, Descriptor.standard_fixedColumns]
    rfl
  rw [snapshotAt, descriptor_standard registered]
  exact ofStore_eq_ok.mpr stored

theorem Descriptor.standard_historyTable_injective {first second : Kind}
    (same : (standard first).historyTable = (standard second).historyTable) : first = second := by
  cases first <;> cases second <;> first | rfl | exact absurd same (by decide)

namespace Store.Recorded

variable {store : Store} {kind : Kind} {id : EntityId} {version : Nat} {snapshot : Snapshot}

/-- What is recorded of a record is of its kind, and of no version beyond that of its row. -/
theorem row_of_recorded? (recorded : store.Recorded)
    (found : store.recorded? kind id version = some snapshot) :
    ∃ row, store.row? id = some row ∧ row.kind = kind ∧
      snapshot.Fits (standard kind).historyTable id version row := by
  obtain ⟨row, rowFound, fits⟩ := recorded.fits _ _ _ _ found
  exact ⟨row, rowFound, (Descriptor.standard_historyTable_injective fits.table_eq).symm, fits⟩

/-- What is recorded of a record fits its row. -/
theorem fits_of_recorded? (recorded : store.Recorded) {row : EntityRow}
    (rowFound : store.row? id = some row)
    (found : store.recorded? row.kind id version = some snapshot) :
    snapshot.Fits (standard row.kind).historyTable id version row := by
  obtain ⟨other, otherFound, _, fits⟩ := recorded.row_of_recorded? found
  rw [rowFound] at otherFound
  cases otherFound
  exact fits

theorem le_counter (recorded : store.Recorded)
    (found : store.recorded? kind id version = some snapshot) : version ≤ store.counter id := by
  obtain ⟨row, rowFound, _, fits⟩ := recorded.row_of_recorded? found
  rw [counter_of_row? rowFound]
  exact fits.last

end Store.Recorded

/-! ## Members of a snapshot -/

namespace Snapshot

/-- The members that a snapshot lists under a relation, with their versions. -/
def refs (snapshot : Snapshot) (relation : String) : List MemberRef :=
  (snapshot.relations.get? relation).getD []

theorem members_content (snapshot : Snapshot) (relation : String) :
    snapshot.content.members relation = (snapshot.refs relation).map MemberRef.id := by
  rw [Content.members, content, Dict.get?_map, refs]
  cases snapshot.relations.get? relation <;> rfl

end Snapshot

/-- The members that are recorded for a content: those it has under declared relations, each
with its version if it is live. -/
theorem Store.get?_memberRefs {descriptor : Descriptor}
    (distinctNames : (descriptor.relations.map RelationSpec.name).Nodup) {content : Content}
    (declared : descriptor.Declares content) (store : Store) (relation : String) :
    ((store.memberRefs descriptor content).get? relation).getD [] =
      (content.members relation).map fun member => ⟨member, store.liveVersion? member⟩ := by
  have found (refs : List MemberRef) :
      (store.memberRefs descriptor content).get? relation = some refs ↔
        (∃ spec ∈ descriptor.relations, spec.name = relation) ∧ content.members relation ≠ [] ∧
          refs = (content.members relation).map fun member =>
            ⟨member, store.liveVersion? member⟩ := by
    rw [memberRefs, Dict.get?_ofList_of_nodup, List.mem_filterMap]
    · constructor
      · rintro ⟨spec, listed, given⟩
        split at given
        · cases given
        · rename_i some
          cases given
          exact ⟨⟨spec, listed, rfl⟩, some, rfl⟩
      · rintro ⟨⟨spec, listed, rfl⟩, some, rfl⟩
        refine ⟨spec, listed, ?_⟩
        split
        · rename_i none
          exact absurd none some
        · rfl
    · -- each entry has the name of its relation
      rw [List.Nodup, List.pairwise_map] at distinctNames
      rw [List.Nodup, List.pairwise_map, List.pairwise_filterMap]
      refine distinctNames.imp fun {spec other} different entry given otherEntry otherGiven => ?_
      split at given
      · cases given
      · split at otherGiven
        · cases otherGiven
        · cases given
          cases otherGiven
          exact different
  cases look : (store.memberRefs descriptor content).get? relation with
  | some refs => exact ((found refs).mp look).2.2
  | none =>
      have nobody : content.members relation = [] := by
        refine Classical.byContradiction fun some => ?_
        obtain ⟨member, listed⟩ := List.exists_mem_of_ne_nil _ some
        have known := declared relation member listed
        rw [Descriptor.relation?, List.find?_isSome] at known
        obtain ⟨spec, inList, named⟩ := known
        have there := (found _).mpr ⟨⟨spec, inList, of_decide_eq_true named⟩, some, rfl⟩
        rw [look] at there
        cases there
      rw [nobody]
      rfl

/-- Where there are no members none are recorded. -/
theorem Store.memberRefs_eq_empty {content : Content}
    (nobody : ∀ relation, content.members relation = []) (store : Store)
    (descriptor : Descriptor) : store.memberRefs descriptor content = ∅ := by
  rw [memberRefs, List.filterMap_eq_nil_iff.mpr]
  · rfl
  · intro relation _
    rw [nobody]

/-! ## The snapshot of a version -/

namespace Env.Writes

variable {env : Env} {kind : Kind} {id : EntityId} {proposed : Option Content}
  {attribution : Attribution} {version : Nat} {store after : Store} {outcome : Outcome}

theorem recorded?_self
    (writes : Writes env kind id proposed attribution version store outcome after) :
    after.recorded? kind id version =
      some (versionSnapshot env store kind id proposed attribution version) :=
  writes.snapshot?_self

theorem recorded?_of_ne
    (writes : Writes env kind id proposed attribution version store outcome after)
    {other : Kind} {otherId : EntityId} {number : Nat}
    (different : (otherId, number) ≠ (id, version)) :
    after.recorded? other otherId number = store.recorded? other otherId number :=
  writes.snapshot?_of_ne fun same => different (congrArg Prod.snd same)

theorem recorded?_of_other
    (writes : Writes env kind id proposed attribution version store outcome after)
    {other : EntityId} (different : other ≠ id) (otherKind : Kind) (number : Nat) :
    after.recorded? otherKind other number = store.recorded? otherKind other number :=
  writes.recorded?_of_ne fun same => different (congrArg Prod.fst same)

theorem recorded?_of_older
    (writes : Writes env kind id proposed attribution version store outcome after)
    {number : Nat} (different : number ≠ version) (otherKind : Kind) (other : EntityId) :
    after.recorded? otherKind other number = store.recorded? otherKind other number :=
  writes.recorded?_of_ne fun same => different (congrArg Prod.snd same)

/-- Which records are live, and in which version, is settled once the row is written. -/
theorem liveVersion?_eq
    (writes : Writes env kind id proposed attribution version store outcome after)
    (member : EntityId) :
    after.liveVersion? member =
      (store.setRow id (versionRow env store kind id proposed version)).liveVersion? member := by
  rw [Store.liveVersion?, Store.liveVersion?, Store.row?, writes.entities]
  rfl

/-- The snapshot lists the recorded members, each with its version if it is live. -/
theorem refs_self (admits : store.Admits kind id proposed)
    (writes : Writes env kind id proposed attribution version store outcome after)
    (relation : String) :
    (versionSnapshot env store kind id proposed attribution version).refs relation =
      ((versionContent store id proposed).members relation).map fun member =>
        ⟨member, after.liveVersion? member⟩ := by
  simp only [writes.liveVersion?_eq]
  exact Store.get?_memberRefs (Descriptor.standard_relation_names kind)
    (versionContent_declares admits) _ relation

theorem members_content_self (admits : store.Admits kind id proposed)
    (writes : Writes env kind id proposed attribution version store outcome after)
    (relation : String) :
    (versionSnapshot env store kind id proposed attribution version).content.members relation =
      (versionContent store id proposed).members relation := by
  rw [Snapshot.members_content, writes.refs_self admits, List.map_map]
  exact List.map_id _

/-- The row holds the canonical form of what the snapshot records. -/
theorem content_canonical (admits : store.Admits kind id proposed)
    (writes : Writes env kind id proposed attribution version store outcome after) :
    (versionRow env store kind id proposed version).content =
      (versionSnapshot env store kind id proposed attribution version).content.canonical :=
  Content.canonical_congr (fun _ => rfl) fun relation => by
    rw [writes.members_content_self admits]

/-- The snapshot counts as what was recorded. -/
theorem content_normal (admits : store.Admits kind id proposed)
    (writes : Writes env kind id proposed attribution version store outcome after) :
    (standard kind).normal
        (versionSnapshot env store kind id proposed attribution version).content =
      (standard kind).normal (versionContent store id proposed) :=
  (Descriptor.standard_normal_eq_iff ..).mpr ⟨fun _ => rfl, fun relation member => by
    rw [writes.members_content_self admits]⟩

end Env.Writes

end Chronicle
