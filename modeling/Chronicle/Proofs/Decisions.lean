import Chronicle.Proofs.Accounts
import Chronicle.Proofs.Application
import Chronicle.Proofs.Disputes

/-!
# What a decision does

A desk that decides a pending conflict makes one edit of the stored record: what it chose is put in
the place of what is there (`Resolution.Overlays`). If that counts as what was stored, the record
stays as it is; otherwise it gets one version, which is put down to the desk and to the conflict. In
both cases the conflict is no longer pending, and nothing else is touched (`Env.Decides`).
-/

namespace Chronicle

open Descriptor (standard)

/-- What is wanted has the chosen values and lists, and otherwise those that are stored. -/
structure Resolution.Overlays (resolution : Resolution) (stored wanted : Content) : Prop where
  fields : ∀ name, wanted.fields.get? name =
    (resolution.fields.get? name).or (stored.fields.get? name)
  relations : ∀ relation, wanted.relations.get? relation =
    (resolution.relations.get? relation).or (stored.relations.get? relation)

theorem Resolution.overlays_applyTo (resolution : Resolution) (stored : Content) :
    resolution.Overlays stored (resolution.applyTo stored) where
  fields := Dict.get?_foldl_entries _ _
  relations := Dict.get?_foldl_entries _ _

/-- A conflict has been decided: `row` is what was stored of its record, `wanted` what the desk
wants instead, and `next` what is stored then. -/
structure Env.Decides (env : Env) (kind : Kind) (id : EntityId) (actor : Actor) (pending : Conflict)
    (row : EntityRow) (wanted : Content) (next : EntityRow) (store : Store) (resolved : Resolved)
    (after : Store) : Prop where
  live : row.kind = kind ∧ row.deleted = false
  found : after.row? id = some next
  stays : next.kind = kind ∧ next.deleted = false
  counts : (standard kind).normal next.content = (standard kind).normal wanted
  changed : (standard kind).normal wanted ≠ (standard kind).normal row.content →
    next.version = row.version + 1 ∧ store.recorded? kind id next.version = none ∧
      ∃ snapshot : Snapshot, snapshot.origin = .resolution pending.id ∧
        snapshot.changedBy = actor ∧ snapshot.version = next.version ∧
        after.snapshots =
          store.snapshots.insert ((standard kind).historyTable, id, next.version) snapshot
  unchanged : (standard kind).normal wanted = (standard kind).normal row.content →
    next = row ∧ after.snapshots = store.snapshots ∧ after.links = store.links ∧
      after.places = store.places
  answer : resolved.record = next.record id ∧ resolved.outcome.version = next.version ∧
    resolved.cleared = 1
  cleared : after.conflict? kind id = none
  otherConflicts : ∀ key, key ≠ (kind, id) → after.conflicts.get? key = store.conflicts.get? key
  otherRows : ∀ other, other ≠ id → after.row? other = store.row? other
  otherLinks : ∀ key : String × EntityId × EntityId × Nat, key.2.1 ≠ id →
    after.links.get? key = store.links.get? key ∧ after.places.get? key = store.places.get? key
  supply : after.supply = store.supply

namespace Env

variable {env : Env} {kind : Kind} {id : EntityId} {resolution : Resolution} {actor : Actor}
  {store after : Store} {resolved : Resolved}

/-- A conflict that was decided was pending for a live record, which has been committed with what
was chosen. -/
theorem resolve_eq_ok (registered : env.registry = .standard) (sound : store.SoundRows)
    (carried : env.resolve kind id resolution actor store = (.ok resolved, after)) :
    ∃ pending row edited next, store.conflict? kind id = some pending ∧
      (store.row? id = some row ∧ row.kind = kind ∧ row.deleted = false) ∧
      env.apply kind id (some (resolution.applyTo row.content)) ⟨actor, .resolution pending.id⟩
        store = .ok (resolved.outcome, edited) ∧
      after = { edited with conflicts := edited.conflicts.erase (kind, id) } ∧
      (edited.row? id = some next ∧ next.kind = kind ∧ next.deleted = false) ∧
      resolved.record = next.record id ∧ resolved.cleared = (edited.conflictsFor kind id).length := by
  have done := transact_eq_ok.mp carried
  dsimp only at done
  cases found : store.conflict? kind id with
  | none =>
      rw [found] at done
      cases done
  | some pending =>
      simp only [found, bind_eq_ok, pure_eq_ok, Prod.exists, Prod.mk.injEq] at done
      obtain ⟨_, read, outcome, edited, applied, _, reread, rfl, rfl⟩ := done
      obtain ⟨row, rowFound, notDeleted, sameKind, rfl⟩ := (live_eq_ok registered sound).mp read
      have editedSound := apply_soundRows registered sound applied
      have leftSound : (edited.deleteConflictsFor kind id).2.SoundRows := editedSound
      obtain ⟨next, nextFound, nextLive, nextKind, rfl⟩ :=
        (live_eq_ok registered leftSound).mp reread
      exact ⟨pending, row, edited, next, rfl, ⟨rowFound, sameKind, notDeleted⟩, applied, rfl,
        ⟨nextFound, nextKind, nextLive⟩, rfl, rfl⟩

end Env

/-- A decision is one edit of the record, by which what was chosen takes the place of what is
stored, and the end of its conflict. -/
theorem Reachable.resolve_decides {env : Env} (registered : env.registry = .standard)
    {store : Store} (reachable : Reachable .standard store) {kind : Kind} {id : EntityId}
    {resolution : Resolution} {actor : Actor} {resolved : Resolved} {after : Store}
    (carried : env.resolve kind id resolution actor store = (.ok resolved, after)) :
    ∃ pending row wanted next, store.conflict? kind id = some pending ∧
      store.row? id = some row ∧ resolution.Overlays row.content wanted ∧
      env.Decides kind id actor pending row wanted next store resolved after := by
  have chained := reachable.chained
  have sound := chained.traced.recorded.rows
  obtain ⟨pending, row, edited, next, found, ⟨rowFound, live⟩, applied, rfl, ⟨nextFound, stays⟩,
    record, cleared⟩ := Env.resolve_eq_ok registered sound carried
  have kept := Env.apply_conflicts registered sound applied
  have one : resolved.cleared = 1 := by
    rw [cleared, Store.conflictsFor, Store.conflict?, kept, ← Store.conflict?, found]
    rfl
  obtain ⟨same, differs⟩ := Env.apply_accounts registered chained applied
  rw [Store.reflects_some_iff rowFound] at same differs
  refine ⟨pending, row, resolution.applyTo row.content, next, found, rowFound,
    resolution.overlays_applyTo row.content, ?_⟩
  by_cases counts : (standard kind).normal (resolution.applyTo row.content) =
      (standard kind).normal row.content
  · obtain ⟨rfl, version, _⟩ := same counts
    rw [rowFound] at nextFound
    cases nextFound
    exact {
      live := live
      found := rowFound
      stays := stays
      counts := counts.symm
      changed := fun differ => absurd counts differ
      unchanged := fun _ => ⟨rfl, rfl, rfl, rfl⟩
      answer := ⟨record, version.trans (Store.counter_of_row? rowFound), one⟩
      cleared := Dict.get?_erase_self _ _
      otherConflicts := fun _ different => Dict.get?_erase_of_ne _ different
      otherRows := fun _ _ => rfl
      otherLinks := fun _ _ => ⟨rfl, rfl⟩
      supply := rfl }
  · have accounts := differs counts
    rw [Store.counter_of_row? rowFound] at accounts
    have written := accounts.row
    rw [nextFound] at written
    cases written
    exact {
      live := live
      found := nextFound
      stays := stays
      counts := Descriptor.standard_normal_canonical kind _
      changed := fun _ => ⟨rfl, accounts.free, _, rfl, rfl, rfl, accounts.snapshots⟩
      unchanged := fun count => absurd count counts
      answer := ⟨record, accounts.told.2.2.1, one⟩
      cleared := Dict.get?_erase_self _ _
      otherConflicts := fun _ different => by rw [Dict.get?_erase_of_ne _ different, kept]
      otherRows := accounts.otherRows
      otherLinks := fun key other => accounts.otherLinks key fun own => absurd own other
      supply := accounts.supply }

/-- The contested tag gets its fourth version if the desk chooses the other name, and stays as it is
if the desk chooses nothing. -/
theorem resolve_decides_withContestedTag :
    Reachable .standard .withContestedTag ∧
    (∃ resolved after, Env.resolve ⟨.standard, 3, 0⟩ .attr ⟨⟨1⟩⟩
        ⟨.ofList [("key", .text "other")], .empty⟩ "desk" .withContestedTag = (.ok resolved, after) ∧
      resolved.record.version = 4 ∧
      ∃ pending row wanted next, Store.withContestedTag.conflict? .attr ⟨⟨1⟩⟩ = some pending ∧
        Store.withContestedTag.row? ⟨⟨1⟩⟩ = some row ∧
        Resolution.Overlays ⟨.ofList [("key", .text "other")], .empty⟩ row.content wanted ∧
        Env.Decides ⟨.standard, 3, 0⟩ .attr ⟨⟨1⟩⟩ "desk" pending row wanted next .withContestedTag
          resolved after) ∧
    ∃ resolved after, Env.resolve ⟨.standard, 3, 0⟩ .attr ⟨⟨1⟩⟩ ⟨.empty, .empty⟩ "desk"
        .withContestedTag = (.ok resolved, after) ∧
      resolved.record.version = 3 ∧
      ∃ pending row wanted next, Store.withContestedTag.conflict? .attr ⟨⟨1⟩⟩ = some pending ∧
        Store.withContestedTag.row? ⟨⟨1⟩⟩ = some row ∧
        Resolution.Overlays ⟨.empty, .empty⟩ row.content wanted ∧
        Env.Decides ⟨.standard, 3, 0⟩ .attr ⟨⟨1⟩⟩ "desk" pending row wanted next .withContestedTag
          resolved after := by
  have reachable : Reachable .standard .withContestedTag := reachable_following ⟨.standard, 3, 0⟩ _
  refine ⟨reachable, ?_, ?_⟩
  · have answered : (Env.resolve ⟨.standard, 3, 0⟩ .attr ⟨⟨1⟩⟩
        ⟨.ofList [("key", .text "other")], .empty⟩ "desk" .withContestedTag).1.toOption.map
          (fun resolved => resolved.record.version) = some 4 := by decide +kernel
    obtain ⟨resolved, given, version⟩ := Option.map_eq_some_iff.mp answered
    obtain ⟨after, carried⟩ := exists_eq_ok_of_toOption given
    exact ⟨resolved, after, carried, version, Reachable.resolve_decides rfl reachable carried⟩
  · have answered : (Env.resolve ⟨.standard, 3, 0⟩ .attr ⟨⟨1⟩⟩ ⟨.empty, .empty⟩ "desk"
        .withContestedTag).1.toOption.map (fun resolved => resolved.record.version) = some 3 := by
      decide +kernel
    obtain ⟨resolved, given, version⟩ := Option.map_eq_some_iff.mp answered
    obtain ⟨after, carried⟩ := exists_eq_ok_of_toOption given
    exact ⟨resolved, after, carried, version, Reachable.resolve_decides rfl reachable carried⟩

end Chronicle
