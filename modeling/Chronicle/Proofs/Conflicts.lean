import Chronicle.Dict.Lemmas
import Chronicle.Proofs.Steps
import Chronicle.Submission

/-!
# The table of conflicts and the records

What has to hold for a conflict to be added or refreshed. Whatever is done about conflicts
leaves the records and all their history as they are (`Store.KeepsRecords`).
-/

namespace Chronicle

/-- Two stores have the same records with all their history: they differ at most in the conflicts
that are pending and in the identifiers that have been handed out. -/
def Store.KeepsRecords (before after : Store) : Prop :=
  after = { before with conflicts := after.conflicts, supply := after.supply }

/-- Two stores have the same records, and what is pending in the second is pending in the first. -/
structure Store.Sheds (before after : Store) : Prop where
  records : before.KeepsRecords after
  pending : ∀ key conflict, after.conflicts.get? key = some conflict →
    before.conflicts.get? key = some conflict

namespace Store

/-! ## Records that are kept -/

namespace KeepsRecords

variable {first second third : Store}

theorem refl (store : Store) : store.KeepsRecords store := rfl

theorem trans (early : first.KeepsRecords second) (late : second.KeepsRecords third) :
    first.KeepsRecords third := by
  unfold KeepsRecords at *
  rw [late, early]

theorem symm (kept : first.KeepsRecords second) : second.KeepsRecords first := by
  rw [KeepsRecords, kept]

theorem row?_eq (kept : first.KeepsRecords second) (id : EntityId) :
    second.row? id = first.row? id := by
  rw [kept]
  rfl

end KeepsRecords

/-! ## Conflicts that are withdrawn -/

namespace Sheds

theorem refl (store : Store) : store.Sheds store :=
  ⟨.refl store, fun _ _ found => found⟩

theorem trans {first second third : Store} (early : first.Sheds second)
    (late : second.Sheds third) : first.Sheds third :=
  ⟨early.records.trans late.records, fun key conflict found =>
    early.pending key conflict (late.pending key conflict found)⟩

theorem deleteConflict (store : Store) (kind : Kind) (id : ConflictId) :
    store.Sheds (store.deleteConflict kind id) := by
  refine ⟨rfl, ?_⟩
  intro key conflict found
  rw [Store.deleteConflict, Dict.get?_filter, Option.filter_eq_some_iff] at found
  exact found.1

theorem withdrawConflict (store : Store) (kind : Kind) (id : EntityId) (scope : Scope) :
    store.Sheds (store.withdrawConflict kind id scope) := by
  unfold Store.withdrawConflict
  split
  · exact .refl store
  · split
    · exact .deleteConflict store kind _
    · exact .refl store

theorem withdrawDropped (store : Store) (kind : Kind) (scope : Scope) (story : EntityId)
    (sent : List EntityId) : store.Sheds (store.withdrawDropped kind scope story sent) := by
  unfold Store.withdrawDropped
  dsimp only
  generalize (store.memberConflicts kind scope story).filter _ = dropped
  induction dropped generalizing store with
  | nil => exact .refl store
  | cons first rest ih => exact (Sheds.deleteConflict store kind first.id).trans (ih _)

end Sheds

/-- A conflict that is still pending after it could be withdrawn is another producer's. -/
theorem withdrawConflict_scope {store : Store} {kind : Kind} {id : EntityId} {scope : Scope}
    {conflict : Conflict}
    (pending : (store.withdrawConflict kind id scope).conflict? kind id = some conflict) :
    conflict.scope ≠ scope := by
  unfold withdrawConflict at pending
  split at pending
  · rename_i none
    rw [none] at pending
    cases pending
  · rename_i other found
    split at pending
    · rw [deleteConflict, conflict?, Dict.get?_filter] at pending
      rw [conflict?] at found
      rw [found] at pending
      simp [Option.filter] at pending
    · rename_i foreign
      rw [found] at pending
      cases pending
      exact foreign

/-! ## Adding and refreshing -/

theorem insertConflict_eq_ok {store after : Store} {conflict : Conflict} :
    store.insertConflict conflict = .ok after ↔
      checkVersions conflict = .ok () ∧ conflict.parent.isSome = !decide (conflict.kind = .story) ∧
        store.conflictWithId? conflict.kind conflict.id = none ∧
        store.conflict? conflict.kind conflict.entity = none ∧
        after = store.setConflict conflict := by
  unfold insertConflict
  rw [bind_eq_ok]
  constructor
  · rintro ⟨_, versions, inserted⟩
    split at inserted
    · cases inserted
    · rename_i parentFits
      split at inserted
      · cases inserted
      · rename_i idFree
        split at inserted
        · cases inserted
        · rename_i entityFree
          exact ⟨versions, Bool.eq_not.mpr parentFits, by simpa using idFree,
            by simpa using entityFree, (Except.ok.inj inserted).symm⟩
  · rintro ⟨versions, parentFits, idFree, entityFree, rfl⟩
    refine ⟨(), versions, ?_⟩
    rw [if_neg (by rw [parentFits]; simp), idFree, entityFree]
    rfl

theorem refreshConflict_eq_ok {store after : Store} {conflict : Conflict} :
    store.refreshConflict conflict = .ok after ↔
      checkVersions conflict = .ok () ∧ ¬ (conflict.kind = .story ∧ conflict.parent.isSome) ∧
        ∃ pending, store.conflictWithId? conflict.kind conflict.id = some pending ∧
          after = store.setConflict { pending with
            scope := conflict.scope
            base := conflict.base
            current := conflict.current
            incoming := conflict.incoming
            digest := conflict.digest
            parent := conflict.parent.or pending.parent
            updatedAt := conflict.updatedAt } := by
  unfold refreshConflict
  rw [bind_eq_ok]
  constructor
  · rintro ⟨_, versions, refreshed⟩
    split at refreshed
    · cases refreshed
    · rename_i parentFits
      split at refreshed
      · cases refreshed
      · rename_i pending found
        exact ⟨versions, parentFits, pending, found, (Except.ok.inj refreshed).symm⟩
  · rintro ⟨versions, parentFits, pending, found, rfl⟩
    refine ⟨(), versions, ?_⟩
    rw [if_neg parentFits, found]

/-- What noticing that a content is in conflict with a record does to a store: nothing if it is
held already, otherwise the pending conflict of the record is refreshed, or a new one is added. -/
inductive Notices (descriptor : Descriptor) (record : Record) (scope : Scope) (base : Option Nat)
    (incoming : Content) (parent : Option Parent) (now : Int64) (store : Store) : Store → Prop
  | held {pending : Conflict} (found : store.conflict? record.kind record.id = some pending)
      (same : pending.holds scope (descriptor.digest incoming) parent = true) :
      Notices descriptor record scope base incoming parent now store store
  | refreshed {pending stored : Conflict}
      (found : store.conflict? record.kind record.id = some pending)
      (parentFits : ¬ (pending.kind = .story ∧ parent.isSome))
      (kept : store.conflictWithId? pending.kind pending.id = some stored) :
      Notices descriptor record scope base incoming parent now store (store.setConflict
        { stored with
          scope := scope
          base := base
          current := record.version
          incoming := incoming
          digest := descriptor.digest incoming
          parent := parent.or stored.parent
          updatedAt := now })
  | inserted (generator : Generator) (absent : store.conflict? record.kind record.id = none)
      (parentFits : parent.isSome = !decide (record.kind = .story)) :
      Notices descriptor record scope base incoming parent now store
        ((store.newConflictId generator).2.setConflict
          { id := (store.newConflictId generator).1
            kind := record.kind
            entity := record.id
            scope := scope
            base := base
            current := record.version
            firstStored := record.content
            incoming := incoming
            digest := descriptor.digest incoming
            parent := parent
            createdAt := now
            updatedAt := now })

end Store

namespace Env

variable {env : Env} {record : Record} {scope : Scope} {base : Option Nat} {incoming : Content}
  {parent : Option Parent} {store after : Store} {summary : ConflictSummary}

/-- What is told when a conflict has been noticed: the one that was pending if it holds what was
sent already, otherwise one that has been refreshed or added. -/
theorem noticeConflict_eq_ok
    (noticed : env.noticeConflict record scope base incoming parent store = .ok (summary, after)) :
    ∃ descriptor now, env.descriptor record.kind = .ok descriptor ∧ env.clock = .ok now ∧
      ((∃ pending, store.conflict? record.kind record.id = some pending ∧
          pending.holds scope (descriptor.digest incoming) parent = true ∧
          summary = pending.summary record ∧ after = store) ∨
        (∃ pending conflict, store.conflict? record.kind record.id = some pending ∧
          conflict = { pending with
            scope := scope
            base := base
            current := record.version
            incoming := incoming
            digest := descriptor.digest incoming
            parent := parent
            updatedAt := now } ∧
          store.refreshConflict conflict = .ok after ∧ summary = conflict.summary record) ∨
        ∃ conflict : Conflict, store.conflict? record.kind record.id = none ∧
          conflict =
            { id := (store.newConflictId env.generator).1
              kind := record.kind
              entity := record.id
              scope := scope
              base := base
              current := record.version
              firstStored := record.content
              incoming := incoming
              digest := descriptor.digest incoming
              parent := parent
              createdAt := now
              updatedAt := now } ∧
          (store.newConflictId env.generator).2.insertConflict conflict = .ok after ∧
          summary = conflict.summary record) := by
  unfold noticeConflict at noticed
  simp only [bind_eq_ok] at noticed
  obtain ⟨descriptor, known, now, clock, noticed⟩ := noticed
  refine ⟨descriptor, now, known, clock, ?_⟩
  split at noticed
  · rename_i pending found
    split at noticed
    · rename_i same
      cases noticed
      exact Or.inl ⟨pending, found, same, rfl, rfl⟩
    · simp only [bind_eq_ok, ofStore_eq_ok, pure_eq_ok, Prod.mk.injEq] at noticed
      obtain ⟨_, refreshed, rfl, rfl⟩ := noticed
      exact Or.inr (Or.inl ⟨pending, _, found, rfl, refreshed, rfl⟩)
  · rename_i absent
    simp only [bind_eq_ok, ofStore_eq_ok, pure_eq_ok, Prod.mk.injEq] at noticed
    obtain ⟨_, inserted, rfl, rfl⟩ := noticed
    exact Or.inr (Or.inr ⟨_, absent, rfl, inserted, rfl⟩)

theorem noticeConflict_notices
    (noticed : env.noticeConflict record scope base incoming parent store = .ok (summary, after)) :
    ∃ descriptor now, env.descriptor record.kind = .ok descriptor ∧
      store.Notices descriptor record scope base incoming parent now after := by
  obtain ⟨descriptor, now, known, _, ⟨pending, found, same, _, rfl⟩ |
    ⟨pending, _, found, rfl, refreshed, _⟩ | ⟨_, absent, rfl, inserted, _⟩⟩ :=
      noticeConflict_eq_ok noticed
  · exact ⟨descriptor, now, known, .held found same⟩
  · obtain ⟨_, parentFits, stored, kept, rfl⟩ := Store.refreshConflict_eq_ok.mp refreshed
    exact ⟨descriptor, now, known, .refreshed found parentFits kept⟩
  · obtain ⟨_, parentFits, _, _, rfl⟩ := Store.insertConflict_eq_ok.mp inserted
    exact ⟨descriptor, now, known, .inserted env.generator absent parentFits⟩

/-- Noticing a conflict changes no record. -/
theorem noticeConflict_keepsRecords
    (noticed : env.noticeConflict record scope base incoming parent store = .ok (summary, after)) :
    store.KeepsRecords after := by
  obtain ⟨_, _, _, notices⟩ := noticeConflict_notices noticed
  cases notices with
  | held found same => exact .refl store
  | refreshed found parentFits kept => rfl
  | inserted generator absent parentFits => rfl

end Env

end Chronicle
