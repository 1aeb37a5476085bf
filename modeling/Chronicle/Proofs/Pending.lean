import Chronicle.Proofs.Divergence
import Chronicle.Proofs.Trail
import Mathlib.Data.List.Nodup
import Mathlib.Data.List.Perm.Subperm

/-!
# Pending conflicts

In every store that a run can lead to, a pending conflict is kept under its own record, and that
record exists (`Store.SoundConflicts`). Since no two conflicts are about one record, an
identifier that is not in use can always be drawn, so noticing a conflict is never refused
(`Env.noticeConflict_carried`).
-/

namespace Chronicle

open Descriptor (standard)

/-! ## Unused identifiers -/

/-- With fewer identifiers in use than there are, an unused one is drawn. -/
theorem Supply.draw_not_mem {used : List Uuid} (spare : used.length < 2 ^ 128) (supply : Supply)
    (generator : Generator) : (supply.draw generator used).1 ∉ used := by
  have unused := generator.fresh [] supply.issued used
  rw [List.append_nil] at unused
  exact unused (Uuid.exists_not_mem spare)

/-! ## The table of conflicts -/

/-- Each conflict is kept under its own record, and that record exists. -/
structure Store.SoundConflicts (store : Store) : Prop where
  keyed : ∀ key conflict, store.conflicts.get? key = some conflict →
    conflict.kind = key.1 ∧ conflict.entity = key.2
  owned : ∀ key conflict, store.conflicts.get? key = some conflict →
    ∃ row, store.row? key.2 = some row ∧ row.kind = key.1

namespace Store

theorem soundConflicts_empty : Store.empty.SoundConflicts := by
  constructor
  · intro key conflict found
    cases found
  · intro key conflict found
    cases found

theorem conflictWithId?_eq_some {store : Store} {kind : Kind} {id : ConflictId}
    {conflict : Conflict} (found : store.conflictWithId? kind id = some conflict) :
    ∃ key, store.conflicts.get? key = some conflict ∧ conflict.kind = kind ∧ conflict.id = id := by
  have test := List.find?_some found
  obtain ⟨key, kept⟩ := store.conflicts.mem_values_iff.mp (List.mem_of_find?_eq_some found)
  exact ⟨key, kept, of_decide_eq_true test⟩

namespace SoundConflicts

variable {store : Store}

/-- A conflict may be put down for a record that exists. -/
theorem setConflict (sound : store.SoundConflicts) {conflict : Conflict} {row : EntityRow}
    (found : store.row? conflict.entity = some row) (kind : row.kind = conflict.kind) :
    (store.setConflict conflict).SoundConflicts := by
  constructor
  · intro key other kept
    by_cases same : key = (conflict.kind, conflict.entity)
    · subst same
      rw [Store.setConflict, Dict.get?_insert_self] at kept
      cases kept
      exact ⟨rfl, rfl⟩
    · rw [Store.setConflict, Dict.get?_insert_of_ne _ same] at kept
      exact sound.keyed key other kept
  · intro key other kept
    by_cases same : key = (conflict.kind, conflict.entity)
    · subst same
      exact ⟨row, found, kind⟩
    · rw [Store.setConflict, Dict.get?_insert_of_ne _ same] at kept
      exact sound.owned key other kept

/-- Conflicts stay sound if some are withdrawn. -/
theorem of_sheds {after : Store} (sound : store.SoundConflicts) (sheds : store.Sheds after) :
    after.SoundConflicts := by
  constructor
  · intro key conflict found
    exact sound.keyed key conflict (sheds.pending key conflict found)
  · intro key conflict found
    rw [sheds.records.row?_eq]
    exact sound.owned key conflict (sheds.pending key conflict found)

/-- Conflicts stay sound as long as records keep their kinds. -/
theorem of_rows (sound : store.SoundConflicts) {after : Store}
    (same : after.conflicts = store.conflicts)
    (kinds : ∀ id row, store.row? id = some row →
      ∃ next, after.row? id = some next ∧ next.kind = row.kind) : after.SoundConflicts := by
  constructor
  · intro key conflict found
    rw [same] at found
    exact sound.keyed key conflict found
  · intro key conflict found
    rw [same] at found
    obtain ⟨row, rowFound, kind⟩ := sound.owned key conflict found
    obtain ⟨next, nextFound, nextKind⟩ := kinds key.2 row rowFound
    exact ⟨next, nextFound, nextKind.trans kind⟩

/-- Fewer conflicts are pending than there are identifiers, as long as some record has none. -/
theorem size_lt (sound : store.SoundConflicts) {id : EntityId} {row : EntityRow}
    (found : store.row? id = some row) (none : store.conflict? row.kind id = none) :
    store.conflicts.values.length < 2 ^ 128 := by
  have entry {key : Kind × EntityId} (listed : key ∈ store.conflicts.keys) :
      ∃ row, store.row? key.2 = some row ∧ row.kind = key.1 := by
    obtain ⟨conflict, kept⟩ := store.conflicts.mem_keys_iff.mp listed
    exact sound.owned key conflict kept
  have nodup : (id :: store.conflicts.keys.map Prod.snd).Nodup := by
    refine List.nodup_cons.mpr ⟨?_, List.Nodup.map_on ?_ ?_⟩
    · intro listed
      obtain ⟨⟨kind, owner⟩, key, rfl⟩ := List.mem_map.mp listed
      obtain ⟨other, otherFound, otherKind⟩ := entry key
      rw [found] at otherFound
      cases otherFound
      obtain ⟨conflict, kept⟩ := store.conflicts.mem_keys_iff.mp key
      rw [conflict?, otherKind, kept] at none
      cases none
    · rintro ⟨firstKind, firstId⟩ first ⟨secondKind, secondId⟩ second same
      obtain ⟨firstRow, firstFound, rfl⟩ := entry first
      obtain ⟨secondRow, secondFound, rfl⟩ := entry second
      cases same
      rw [firstFound] at secondFound
      cases secondFound
      rfl
    · exact store.conflicts.keys_sorted.imp fun before => Key.ne_of_before before
  have numbers : ((id :: store.conflicts.keys.map Prod.snd).map
      fun id : EntityId => id.uuid.bits.toNat).Nodup := by
    refine nodup.map ?_
    rintro ⟨⟨first⟩⟩ ⟨⟨second⟩⟩ same
    have bits : first = second := BitVec.eq_of_toNat_eq same
    rw [bits]
  have bounded : (id :: store.conflicts.keys.map Prod.snd).map
      (fun id : EntityId => id.uuid.bits.toNat) ⊆ List.range (2 ^ 128) := by
    intro number listed
    obtain ⟨id, _, rfl⟩ := List.mem_map.mp listed
    exact List.mem_range.mpr id.uuid.bits.isLt
  have count := (numbers.subperm bounded).length_le
  rw [List.length_map, List.length_range, List.length_cons, List.length_map, Dict.keys,
    List.length_map] at count
  rw [Dict.values, List.length_map]
  omega

/-- The identifier for a new conflict is that of no other. -/
theorem newConflictId_fresh (sound : store.SoundConflicts) {id : EntityId} {row : EntityRow}
    (found : store.row? id = some row) (none : store.conflict? row.kind id = none)
    {conflict : Conflict} (listed : conflict ∈ store.conflicts.values) (generator : Generator) :
    conflict.id ≠ (store.newConflictId generator).1 := by
  have spare : (store.conflicts.values.map fun conflict => conflict.id.uuid).length < 2 ^ 128 := by
    rw [List.length_map]
    exact sound.size_lt found none
  intro same
  refine store.supply.draw_not_mem spare generator (List.mem_map.mpr ⟨conflict, listed, ?_⟩)
  rw [same]
  rfl

/-- No conflict is found under the identifier for a new one. -/
theorem newConflictId_free (sound : store.SoundConflicts) {id : EntityId} {row : EntityRow}
    (found : store.row? id = some row) (none : store.conflict? row.kind id = none) (kind : Kind)
    (generator : Generator) : (store.newConflictId generator).2.conflictWithId? kind
      (store.newConflictId generator).1 = Option.none := by
  refine List.find?_eq_none.mpr fun conflict listed test => ?_
  exact sound.newConflictId_fresh found none listed generator (of_decide_eq_true test).2

end SoundConflicts

end Store

/-! ## Noticing -/

namespace Env

variable {env : Env} {store after : Store}

/-- What is outdated is the stored record, of the kind that was named. -/
theorem stale?_found (registered : env.registry = .standard) (sound : store.SoundRows)
    {kind : Kind} {sent : Bundle} {record : Record}
    (outdated : env.stale? store kind sent = .ok (some record)) :
    ∃ row, store.row? sent.id = some row ∧ row.kind = kind ∧ record = row.record sent.id := by
  obtain ⟨sameKind, looked⟩ := (stale?_eq_ok registered sound).mp outdated
  obtain ⟨row, unseen, same⟩ := Option.map_eq_some_iff.mp looked.symm
  obtain ⟨live, _⟩ := Option.filter_eq_some_iff.mp unseen
  obtain ⟨found, _⟩ := Store.live?_eq_some_iff.mp live
  exact ⟨row, found, sameKind row live, same.symm⟩

theorem noticeConflict_soundConflicts {record : Record} {scope : Scope} {base : Option Nat}
    {incoming : Content} {parent : Option Parent} {summary : ConflictSummary}
    (sound : store.SoundConflicts)
    (owner : ∃ row, store.row? record.id = some row ∧ row.kind = record.kind)
    (noticed : env.noticeConflict record scope base incoming parent store = .ok (summary, after)) :
    after.SoundConflicts := by
  obtain ⟨row, found, kind⟩ := owner
  obtain ⟨_, _, _, notices⟩ := noticeConflict_notices noticed
  cases notices with
  | held _ _ => exact sound
  | @refreshed pending stored _ parentFits kept =>
      obtain ⟨key, keptUnder, _⟩ := Store.conflictWithId?_eq_some kept
      obtain ⟨kindKey, entityKey⟩ := sound.keyed key stored keptUnder
      obtain ⟨own, ownFound, ownKind⟩ := sound.owned key stored keptUnder
      rw [← entityKey] at ownFound
      rw [← kindKey] at ownKind
      exact sound.setConflict ownFound ownKind
  | inserted generator absent parentFits =>
      have drawn : (store.newConflictId generator).2.SoundConflicts := sound.of_rows rfl fun id row found =>
        ⟨row, found, rfl⟩
      exact drawn.setConflict found kind

theorem checkVersions_eq_ok {conflict : Conflict}
    (base : ∀ version, conflict.base = some version → version < versionLimit)
    (current : conflict.current < versionLimit) : Store.checkVersions conflict = .ok () := by
  unfold Store.checkVersions
  rw [bind_eq_ok]
  refine ⟨(), ?_, if_pos current⟩
  rw [forM_eq_ok]
  intro version listed
  exact if_pos (base version (Option.mem_toList.mp listed))

/-- A conflict of a live record can always be noticed, and what is told about it is what is
stored. -/
theorem noticeConflict_carried (registered : env.registry = .standard) (started : ¬ env.now < 0)
    (sound : store.SoundConflicts) {id : EntityId} {row : EntityRow}
    (found : store.row? id = some row) (current : row.version < versionLimit) (scope : Scope)
    {base : Option Nat} (bounded : ∀ version, base = some version → version < versionLimit)
    (incoming : Content) {parent : Option Parent}
    (parentFits : parent.isSome = !decide (row.kind = .story)) :
    ∃ summary after,
      env.noticeConflict (row.record id) scope base incoming parent store = .ok (summary, after) ∧
        summary.kind = row.kind ∧ summary.entity = id ∧ summary.storedVersion = row.version ∧
        summary.stored = row.content := by
  have clock : env.clock = .ok env.now := clock_eq_ok.mpr ⟨rfl, started⟩
  unfold noticeConflict
  simp only [descriptor_standard registered, clock, EntityRow.record, bind, Except.bind]
  cases pendingHere : store.conflict? row.kind id with
  | some pending =>
      obtain ⟨kindKey, entityKey⟩ := sound.keyed (row.kind, id) pending pendingHere
      have listed : pending ∈ store.conflicts.values :=
        store.conflicts.mem_values_iff.mpr ⟨_, pendingHere⟩
      dsimp only
      split
      · exact ⟨_, _, rfl, kindKey, entityKey, rfl, rfl⟩
      · have versions : Store.checkVersions { pending with
            scope := scope
            base := base
            current := row.version
            incoming := incoming
            digest := (standard row.kind).digest incoming
            parent := parent
            updatedAt := env.now } = .ok () := checkVersions_eq_ok bounded current
        have noParent : ¬ (pending.kind = .story ∧ parent.isSome) := by
          rintro ⟨story, given⟩
          have same : row.kind = .story := kindKey.symm.trans story
          rw [parentFits, same] at given
          cases given
        have kept : ∃ other, store.conflictWithId? pending.kind pending.id = some other := by
          refine Option.isSome_iff_exists.mp (List.find?_isSome.mpr ⟨pending, listed, ?_⟩)
          exact decide_eq_true ⟨rfl, rfl⟩
        obtain ⟨other, otherKept⟩ := kept
        have refreshed := Store.refreshConflict_eq_ok.mpr
          ⟨versions, noParent, other, otherKept, rfl⟩
        rw [refreshed]
        exact ⟨_, _, rfl, kindKey, entityKey, rfl, rfl⟩
  | none =>
      have idFree := sound.newConflictId_free found pendingHere row.kind env.generator
      have versions : Store.checkVersions
          { id := (store.newConflictId env.generator).1
            kind := row.kind
            entity := id
            scope := scope
            base := base
            current := row.version
            firstStored := row.content
            incoming := incoming
            digest := (standard row.kind).digest incoming
            parent := parent
            createdAt := env.now
            updatedAt := env.now } = .ok () := checkVersions_eq_ok bounded current
      have inserted := Store.insertConflict_eq_ok.mpr
        ⟨versions, parentFits, idFree, pendingHere, rfl⟩
      dsimp only
      rw [inserted]
      exact ⟨_, _, rfl, rfl, rfl, rfl, rfl⟩

end Env

/-! ## Reachable stores -/

theorem Store.SoundConflicts.move {env : Env} (registered : env.registry = .standard)
    {store after : Store} (rows : store.SoundRows) (sound : store.SoundConflicts)
    (move : Move env store after) : after.SoundConflicts := by
  cases move with
  | applied done =>
      exact sound.of_rows (Env.apply_conflicts registered rows done) fun id row found =>
        Env.apply_kind registered rows done found
  | noticed outdated done =>
      obtain ⟨row, found, _, rfl⟩ := Env.stale?_found registered rows outdated
      exact Env.noticeConflict_soundConflicts sound ⟨row, found, rfl⟩ done
  | withdrawn stays =>
      refine sound.of_sheds ⟨rfl, ?_⟩
      intro key conflict found
      rw [Dict.get?_filter, Option.filter_eq_some_iff] at found
      exact found.1
  | drawn supply advances => exact sound.of_rows rfl fun id row found => ⟨row, found, rfl⟩

theorem Store.SoundRows.move {env : Env} (registered : env.registry = .standard)
    {store after : Store} (rows : store.SoundRows) (move : Move env store after) :
    after.SoundRows := by
  rcases move.applied_or_keepsRecords with ⟨_, _, _, _, _, applied⟩ | kept
  · exact Env.apply_soundRows registered rows applied
  · rw [kept]
    exact rows

/-- Rows and conflicts stay sound, whatever happens. -/
theorem Store.sound_along {registry : Registry} (registered : registry = .standard)
    {store after : Store} (sound : store.SoundRows ∧ store.SoundConflicts)
    (trail : Trail registry store after) : after.SoundRows ∧ after.SoundConflicts := by
  refine trail.keeps (motive := fun store => store.SoundRows ∧ store.SoundConflicts) ?_ sound
  intro env before after same sound move
  have registered : env.registry = .standard := same.trans registered
  exact ⟨sound.1.move registered move, sound.2.move registered sound.1 move⟩

/-- In every store that a run can lead to, rows and conflicts are sound. -/
theorem Reachable.sound {store : Store} (reachable : Reachable .standard store) :
    store.SoundRows ∧ store.SoundConflicts := by
  refine Store.sound_along rfl ⟨?_, Store.soundConflicts_empty⟩ (.of_run reachable)
  intro id row found
  cases found

end Chronicle
