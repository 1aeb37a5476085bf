import Chronicle.Proofs.Application
import Chronicle.Proofs.Completion
import Chronicle.Proofs.Disputes
import Chronicle.Proofs.References

/-!
# Conflicts that can be resolved

A conflict is noticed with a live record, and only submissions and resolutions change it: whoever
deletes the record leaves it pending. So a desk can resolve it as long as its record is live, by
whatever choice makes an acceptable content (`Conflict.Open`), of which there is one at least. Once
the record is deleted, no resolution is carried out (`Conflict.Stranded`).
-/

namespace Chronicle

open Descriptor (standard)

/-! ## What was compared with -/

/-- The incoming sides of all pending conflicts were compared with live records. -/
def Store.ComparesLive (store : Store) : Prop :=
  ∀ key conflict, store.conflicts.get? key = some conflict →
    store.HadLive conflict.entity conflict.current

theorem Store.Disputed.comparesLive_move {env : Env} (registered : env.registry = .standard)
    {store after : Store} (disputed : store.Disputed) (live : store.ComparesLive)
    (move : Move env store after) : after.ComparesLive := by
  have recorded := disputed.chained.traced.recorded
  have remembers := disputed.chained.remembers_move registered move
  intro key conflict found
  refine remembers.hadLive recorded ?_
  rcases (disputed.redisputes_move registered move).kept_or_set found with before | ⟨_, current, _⟩
  · exact live key conflict before
  · exact recorded.hadLive current

theorem Trail.comparesLive {store : Store} (trail : Trail .standard .empty store) :
    store.ComparesLive := by
  refine (trail.keeps (motive := fun store => store.Disputed ∧ store.ComparesLive) ?_
    ⟨Store.disputed_empty, fun _ _ found => nomatch found⟩).2
  intro env before after registered both move
  exact ⟨both.1.move registered move, both.1.comparesLive_move registered both.2 move⟩

/-- The last version of a deleted record is its deletion, and it was live at earlier ones only. -/
theorem Store.Recorded.deletion {store : Store} (recorded : store.Recorded) {id : EntityId}
    {row : EntityRow} (found : store.row? id = some row) (deleted : row.deleted = true) :
    (∃ snapshot, store.recorded? row.kind id row.version = some snapshot ∧
      snapshot.change = .deleted) ∧
    ∀ version, store.HadLive id version → version < row.version := by
  constructor
  · obtain ⟨last, kept⟩ := recorded.complete id row found row.version
      (recorded.rows id row found).positive (Nat.le_refl _)
    exact ⟨last, kept, (recorded.fits_of_recorded? found kept).deleted.mpr ⟨deleted, rfl⟩⟩
  · rintro version ⟨other, snapshot, otherFound, kept, notDeleted⟩
    rw [found] at otherFound
    cases otherFound
    have fits := recorded.fits_of_recorded? found kept
    refine Nat.lt_of_le_of_ne fits.last fun here => ?_
    exact notDeleted (fits.deleted.mpr ⟨deleted, here⟩)

/-! ## Resolutions -/

namespace Resolution

/-- What was chosen makes an acceptable content of the stored one: the descriptor accepts it, and
its members are of the right kinds. -/
structure Fits (resolution : Resolution) (store : Store) (kind : Kind) (content : Content) :
    Prop where
  accepted : (standard kind).check (resolution.applyTo content) = .ok ()
  members : store.memberFault? (standard kind) (resolution.applyTo content) = none

variable {kind : Kind} {content : Content}

theorem get?_applyTo_relations {resolution : Resolution} {relation : String}
    {list : List EntityId} :
    (resolution.applyTo content).relations.get? relation = some list ↔
      resolution.relations.get? relation = some list ∨
        resolution.relations.get? relation = none ∧ content.relations.get? relation = some list :=
  Dict.get?_foldl_entries_eq_some_iff

/-- A choice that fits what a live record stores can be committed. -/
theorem Fits.admits {resolution : Resolution} {store : Store} {id : EntityId} {row : EntityRow}
    (fits : resolution.Fits store kind row.content) (live : store.live? id = some row)
    (sameKind : row.kind = kind) : store.Admits kind id (some (resolution.applyTo row.content)) := by
  obtain ⟨found, notDeleted⟩ := Store.live?_eq_some_iff.mp live
  refine ⟨?_, ?_, ?_, fun _ => Option.some_ne_none _⟩
  · rintro _ ⟨⟩
    exact fits.accepted
  · rintro _ ⟨⟩
    exact fits.members
  · intro other same
    rw [found] at same
    cases same
    exact ⟨sameKind, notDeleted⟩

/-- The choice that keeps the stored values and no members. -/
def withoutMembers (kind : Kind) : Resolution :=
  ⟨.empty, .ofList ((standard kind).relations.map fun relation => (relation.name, []))⟩

theorem relations_withoutMembers {relation : String} {list : List EntityId}
    (found : (withoutMembers kind).relations.get? relation = some list) :
    list = [] ∧ ((standard kind).relation? relation).isSome = true := by
  obtain ⟨earlier, later, same, _⟩ := Dict.get?_ofList_eq_some_iff.mp found
  have listed : (relation, list) ∈ (standard kind).relations.map fun spec => (spec.name, []) := by
    rw [same]
    exact List.mem_append_right earlier List.mem_cons_self
  obtain ⟨spec, declared, pair⟩ := List.mem_map.mp listed
  cases pair
  exact ⟨rfl, List.find?_isSome.mpr ⟨spec, declared, decide_eq_true rfl⟩⟩

/-- What is stored is acceptable without its members, whatever has become of them: one that did not
exist when it was listed may have another kind now. -/
theorem fits_withoutMembers (accepted : (standard kind).check content = .ok ()) (store : Store) :
    (withoutMembers kind).Fits store kind content := by
  obtain ⟨fields, values, relations⟩ := Descriptor.check_eq_ok_iff.mp accepted
  constructor
  · refine Descriptor.check_eq_ok_iff.mpr ⟨fields, values, fun relation list found => ?_⟩
    rcases get?_applyTo_relations.mp found with chosen | ⟨_, stored⟩
    · exact Descriptor.relationFault?_eq_none_iff.mpr (relations_withoutMembers chosen).2
    · exact relations relation list stored
  · refine Store.memberFault?_eq_none_iff.mpr fun spec declared member listed => ?_
    obtain ⟨list, chosen⟩ : ∃ list, (withoutMembers kind).relations.get? spec.name = some list :=
      Dict.exists_get?_ofList (List.mem_map.mpr ⟨spec, declared, rfl⟩)
    rw [Content.members_eq_of_get? (get?_applyTo_relations.mpr (Or.inl chosen)),
      (relations_withoutMembers chosen).1] at listed
    cases listed

end Resolution

namespace Env

variable {env : Env} {store : Store} {kind : Kind} {id : EntityId}

/-- A pending conflict of a live record is resolved by every choice that fits, and is not pending
any more. -/
theorem resolve_of_live (registered : env.registry = .standard) (started : ¬ env.now < 0)
    (chained : store.Chained) {pending : Conflict} (found : store.conflict? kind id = some pending)
    {row : EntityRow} (live : store.live? id = some row) (sameKind : row.kind = kind)
    (bounded : row.version + 1 < versionLimit) {resolution : Resolution}
    (fits : resolution.Fits store kind row.content) (actor : Actor) :
    ∃ resolved after, env.resolve kind id resolution actor store = (.ok resolved, after) ∧
      after.conflict? kind id = none := by
  have sound := chained.traced.recorded.rows
  obtain ⟨rowFound, notDeleted⟩ := Store.live?_eq_some_iff.mp live
  have read : env.live store kind id = .ok (row.record id) :=
    (live_eq_ok registered sound).mpr ⟨row, rowFound, notDeleted, sameKind, rfl⟩
  have admits := fits.admits live sameKind
  obtain ⟨outcome, next, applied⟩ : ∃ outcome next, env.apply kind id
      (some (resolution.applyTo row.content)) ⟨actor, .resolution pending.id⟩ store =
        .ok (outcome, next) :=
    apply_carried registered started chained admits fun _ => by
      rwa [Store.counter_of_row? rowFound]
  have nextSound : next.SoundRows := apply_soundRows registered sound applied
  have leftSound : (next.deleteConflictsFor kind id).2.SoundRows :=
    fun other row found => nextSound other row found
  obtain ⟨nextRow, nextFound, nextKind, nextLive, _⟩ := apply_row registered sound applied
  have left : env.live (next.deleteConflictsFor kind id).2 kind id = .ok (nextRow.record id) :=
    (live_eq_ok registered leftSound).mpr ⟨nextRow, nextFound, nextLive, nextKind, rfl⟩
  have carried : env.resolve kind id resolution actor store =
      (.ok ⟨nextRow.record id, outcome, (next.deleteConflictsFor kind id).1⟩,
        (next.deleteConflictsFor kind id).2) := by
    unfold resolve Step.transact
    simp only [found, read, applied, left, EntityRow.record, bind, Except.bind, pure, Except.pure]
  exact ⟨_, _, carried, Dict.get?_erase_self _ _⟩

/-- A pending conflict of a deleted record is not resolved by any choice, and stays pending. -/
theorem resolve_of_deleted {pending : Conflict} (found : store.conflict? kind id = some pending)
    {row : EntityRow} (rowFound : store.row? id = some row) (deleted : row.deleted = true)
    (resolution : Resolution) (actor : Actor) :
    env.resolve kind id resolution actor store = (.error (.recordDeleted id), store) := by
  unfold resolve Step.transact live
  simp only [found, rowFound, deleted, if_pos, bind, Except.bind]

end Env

/-! ## Reachable stores -/

/-- A pending conflict with the present row of its record, which is live. As long as the record has
versions left, every choice that fits resolves the conflict, and there is such a choice. -/
structure Conflict.Open (conflict : Conflict) (env : Env) (store : Store) (row : EntityRow) :
    Prop where
  live : store.live? conflict.entity = some row
  kind_eq : row.kind = conflict.kind
  choice : ∃ resolution : Resolution, resolution.Fits store conflict.kind row.content
  resolved : row.version + 1 < versionLimit → ∀ (resolution : Resolution) (actor : Actor),
    resolution.Fits store conflict.kind row.content →
      ∃ resolved after,
        env.resolve conflict.kind conflict.entity resolution actor store = (.ok resolved, after) ∧
        after.conflict? conflict.kind conflict.entity = none

/-- A pending conflict with the last row of its record, which was deleted after the incoming side
was last compared with it. No choice resolves the conflict. -/
structure Conflict.Stranded (conflict : Conflict) (env : Env) (store : Store) (row : EntityRow) :
    Prop where
  found : store.row? conflict.entity = some row
  kind_eq : row.kind = conflict.kind
  gone : row.deleted = true
  deleted : ∃ snapshot, store.recorded? conflict.kind conflict.entity row.version = some snapshot ∧
    snapshot.change = .deleted
  later : conflict.current < row.version
  refused : ∀ (resolution : Resolution) (actor : Actor),
    env.resolve conflict.kind conflict.entity resolution actor store =
      (.error (.recordDeleted conflict.entity), store)

/-- In every store that a run can lead to, a pending conflict is about a record that was live when
its incoming side was last compared with it. A desk can resolve the conflict, unless the record was
deleted since. -/
theorem Reachable.pending_resolvable {store : Store} (reachable : Reachable .standard store)
    {env : Env} (registered : env.registry = .standard) (started : ¬ env.now < 0)
    {conflict : Conflict} (listed : conflict ∈ store.conflicts.values) :
    store.HadLive conflict.entity conflict.current ∧
      ∃ row, conflict.Open env store row ∨ conflict.Stranded env store row := by
  have trail := Trail.of_run reachable
  have disputed := trail.disputed
  have recorded := disputed.chained.traced.recorded
  obtain ⟨key, kept⟩ := store.conflicts.mem_values_iff.mp listed
  obtain ⟨kindKey, entityKey⟩ := disputed.sound.keyed key conflict kept
  have pending : store.conflict? conflict.kind conflict.entity = some conflict := by
    rw [Store.conflict?, kindKey, entityKey]
    exact kept
  have had := trail.comparesLive key conflict kept
  obtain ⟨row, found, kind, _⟩ := (disputed.stands key conflict kept).owned
  refine ⟨had, row, ?_⟩
  cases deleted : row.deleted with
  | false =>
      have live := Store.live?_eq_some_iff.mpr ⟨found, deleted⟩
      refine Or.inl ⟨live, kind, ⟨.withoutMembers conflict.kind, ?_⟩,
        fun bounded resolution actor fits => ?_⟩
      · exact Resolution.fits_withoutMembers (kind ▸ (recorded.rows _ row found).accepted) store
      · exact Env.resolve_of_live registered started disputed.chained pending live kind bounded fits
          actor
  | true =>
      obtain ⟨deletion, earlier⟩ := recorded.deletion found deleted
      rw [kind] at deletion
      exact Or.inr ⟨found, kind, deleted, deletion, earlier _ had,
        Env.resolve_of_deleted pending found deleted⟩

/-- A store with a tag that was renamed, then sent with another name by who had not seen that, and
then deleted. -/
def Store.withStrandedName : Store :=
  .following ⟨.standard, 3, 0⟩
    [.commit .attr ⟨⟨1⟩⟩ (some ⟨.ofList [("key", .text "draft")], .empty⟩) ⟨"editor", .direct⟩,
      .commit .attr ⟨⟨1⟩⟩ (some ⟨.ofList [("key", .text "final")], .empty⟩) ⟨"editor", .direct⟩,
      .submit (.naming [(1, "other")]),
      .delete .attr ⟨⟨1⟩⟩ ⟨"editor", .direct⟩]

/-- The other name of the contested tag can still be decided upon, that of the deleted tag
cannot. -/
theorem pending_resolvable_tags :
    (Reachable .standard .withContestedTag ∧ Reachable .standard .withStrandedName) ∧
    ¬ (0 : Int64) < 0 ∧
    (∃ conflict ∈ Store.withContestedTag.conflicts.values, ∃ row,
      conflict.Open ⟨.standard, 3, 0⟩ .withContestedTag row) ∧
    ∃ conflict ∈ Store.withStrandedName.conflicts.values, ∃ row,
      conflict.Stranded ⟨.standard, 3, 0⟩ .withStrandedName row := by
  have contested : Reachable .standard .withContestedTag := reachable_following ⟨.standard, 3, 0⟩ _
  have stranded : Reachable .standard .withStrandedName := reachable_following ⟨.standard, 3, 0⟩ _
  have started : ¬ (0 : Int64) < 0 := by decide
  have registered : (⟨.standard, 3, 0⟩ : Env).registry = .standard := rfl
  refine ⟨⟨contested, stranded⟩, started, ?_, ?_⟩
  · have pending : (Store.withContestedTag.conflict? .attr ⟨⟨1⟩⟩).map
        (fun conflict => (Store.withContestedTag.row? conflict.entity).map EntityRow.deleted) =
        some (some false) := by decide +kernel
    obtain ⟨conflict, found, present⟩ := Option.map_eq_some_iff.mp pending
    have listed := (Dict.mem_values_iff _).mpr ⟨_, found⟩
    obtain ⟨_, row, can | cannot⟩ := contested.pending_resolvable registered started listed
    · exact ⟨conflict, listed, row, can⟩
    · rw [cannot.found, Option.map_some, cannot.gone] at present
      cases present
  · have pending : (Store.withStrandedName.conflict? .attr ⟨⟨1⟩⟩).map
        (fun conflict => Store.withStrandedName.live? conflict.entity) = some none := by
      decide +kernel
    obtain ⟨conflict, found, absent⟩ := Option.map_eq_some_iff.mp pending
    have listed := (Dict.mem_values_iff _).mpr ⟨_, found⟩
    obtain ⟨_, row, can | cannot⟩ := stranded.pending_resolvable registered started listed
    · rw [can.live] at absent
      cases absent
    · exact ⟨conflict, listed, row, cannot⟩

/-- The record of a pending conflict need not be live. -/
theorem not_pending_live :
    ¬ ∀ store, Reachable .standard store → ∀ conflict ∈ store.conflicts.values,
      (store.live? conflict.entity).isSome = true := by
  intro live
  have pending : (Store.withStrandedName.conflict? .attr ⟨⟨1⟩⟩).map
      (fun conflict => (Store.withStrandedName.live? conflict.entity).isSome) = some false := by
    decide +kernel
  obtain ⟨conflict, found, gone⟩ := Option.map_eq_some_iff.mp pending
  have stays := live .withStrandedName (reachable_following ⟨.standard, 3, 0⟩ _) conflict
    ((Dict.mem_values_iff _).mpr ⟨_, found⟩)
  rw [gone] at stays
  cases stays

end Chronicle
