import Chronicle.Proofs.Judgement
import Chronicle.Proofs.Moments
import Chronicle.Proofs.Pending

/-!
# What pending conflicts say about their records

A pending conflict tells of two versions of its record: the one that was stored when the conflict
was first noticed, and the one that its incoming side was last compared with. Commits and other
producers go on, but both versions stay in the history of the record (`Conflict.Stands`). And
however often the incoming side is replaced, what the conflict is about and what was noticed
first stay the same (`Conflict.Continues`): an identifier that was handed out once is not given to
another conflict, so whatever is pending under it later continues it (`Conflict.GoesOnIn`).
-/

namespace Chronicle

open Descriptor (standard)

/-! ## Conflicts that stand -/

/-- What a pending conflict says agrees with the history of its record. -/
structure Conflict.Stands (conflict : Conflict) (store : Store) : Prop where
  owned : ∃ row, store.row? conflict.entity = some row ∧ row.kind = conflict.kind ∧
    1 ≤ conflict.current ∧ conflict.current ≤ row.version
  unseen : conflict.base ≠ some conflict.current
  digested : conflict.digest = (standard conflict.kind).digest conflict.incoming
  parented : conflict.parent.isSome = !decide (conflict.kind = .story)
  differs : ∃ snapshot,
    store.recorded? conflict.kind conflict.entity conflict.current = some snapshot ∧
    (standard conflict.kind).normal conflict.incoming ≠
      (standard conflict.kind).normal snapshot.content
  noticed : ∃ version snapshot, version ≤ conflict.current ∧
    store.recorded? conflict.kind conflict.entity version = some snapshot ∧
    snapshot.change ≠ .deleted ∧
    (standard conflict.kind).normal conflict.firstStored =
      (standard conflict.kind).normal snapshot.content

/-- A conflict that stands does so as long as the past is remembered. -/
theorem Conflict.Stands.of_remembers {conflict : Conflict} {earlier later : Store}
    (stands : conflict.Stands earlier) (remembers : earlier.Remembers later) :
    conflict.Stands later := by
  obtain ⟨row, found, kind, positive, reached⟩ := stands.owned
  obtain ⟨next, nextFound, nextKind, mono⟩ := remembers.rows _ row found
  have same {version : Nat} (past : version ≤ conflict.current) :
      later.recorded? conflict.kind conflict.entity version =
        earlier.recorded? conflict.kind conflict.entity version := by
    refine remembers.recorded _ _ _ ?_
    rw [Store.counter_of_row? found]
    exact Nat.le_trans past reached
  obtain ⟨snapshot, kept, differs⟩ := stands.differs
  obtain ⟨version, original, past, originalKept, notDeleted, normal⟩ := stands.noticed
  exact ⟨⟨next, nextFound, nextKind.trans kind, positive, Nat.le_trans reached mono⟩,
    stands.unseen, stands.digested, stands.parented,
    ⟨snapshot, by rw [same (Nat.le_refl _), kept], differs⟩,
    ⟨version, original, past, by rw [same past, originalKept], notDeleted, normal⟩⟩

/-- A parent that fits may take the place of the one that is kept. -/
theorem Conflict.Stands.parented_or {conflict : Conflict} {store : Store}
    (stands : conflict.Stands store) {parent : Option Parent}
    (fits : ¬ (conflict.kind = .story ∧ parent.isSome)) :
    (parent.or conflict.parent).isSome = !decide (conflict.kind = .story) := by
  rw [Option.isSome_or, stands.parented]
  by_cases story : conflict.kind = .story
  · have none : parent.isSome = false := Bool.eq_false_iff.mpr fun given => fits ⟨story, given⟩
    simp [none, story]
  · simp [story]

/-- What was noticed first is no newer than the present version of the record. -/
theorem Conflict.Stands.noticed_before {conflict : Conflict} {store : Store}
    (stands : conflict.Stands store) {row : EntityRow}
    (found : store.row? conflict.entity = some row) :
    ∃ version snapshot, version ≤ row.version ∧
      store.recorded? conflict.kind conflict.entity version = some snapshot ∧
      snapshot.change ≠ .deleted ∧
      (standard conflict.kind).normal conflict.firstStored =
        (standard conflict.kind).normal snapshot.content := by
  obtain ⟨own, ownFound, _, _, reached⟩ := stands.owned
  rw [found] at ownFound
  cases ownFound
  obtain ⟨version, snapshot, past, original⟩ := stands.noticed
  exact ⟨version, snapshot, Nat.le_trans past reached, original⟩

/-- A live record is recorded as it is stored, and not as deleted. -/
theorem Store.Traced.exists_current {store : Store} (traced : store.Traced) {id : EntityId}
    {row : EntityRow} (live : store.live? id = some row) :
    ∃ snapshot, store.recorded? row.kind id row.version = some snapshot ∧
      snapshot.change ≠ .deleted ∧
      (standard row.kind).normal row.content = (standard row.kind).normal snapshot.content := by
  obtain ⟨found, isLive⟩ := Store.live?_eq_some_iff.mp live
  have positive := (traced.recorded.rows id row found).positive
  obtain ⟨snapshot, kept⟩ := traced.recorded.complete id row found row.version positive
    (Nat.le_refl _)
  refine ⟨snapshot, kept, ?_, ?_⟩
  · intro deleted
    obtain ⟨other, otherFound, _, fits⟩ := traced.recorded.row_of_recorded? kept
    rw [found] at otherFound
    cases otherFound
    rw [(fits.deleted.mp deleted).1] at isLive
    cases isLive
  · rw [(traced.last id row snapshot found kept).1, Descriptor.standard_normal_canonical]

/-- A conflict with the present version of a live record stands, if its incoming side is something
else and what was noticed first is recorded. -/
theorem Conflict.Stands.of_live {conflict : Conflict} {store : Store} (traced : store.Traced)
    {row : EntityRow} (live : store.live? conflict.entity = some row)
    (kind : conflict.kind = row.kind) (current : conflict.current = row.version)
    (unseen : conflict.base ≠ some row.version)
    (digested : conflict.digest = (standard row.kind).digest conflict.incoming)
    (parented : conflict.parent.isSome = !decide (conflict.kind = .story))
    (differs : (standard row.kind).normal row.content ≠
      (standard row.kind).normal conflict.incoming)
    (noticed : ∃ version snapshot, version ≤ row.version ∧
      store.recorded? row.kind conflict.entity version = some snapshot ∧
      snapshot.change ≠ .deleted ∧
      (standard row.kind).normal conflict.firstStored =
        (standard row.kind).normal snapshot.content) : conflict.Stands store := by
  obtain ⟨found, _⟩ := Store.live?_eq_some_iff.mp live
  obtain ⟨snapshot, recorded, _, normal⟩ := traced.exists_current live
  have positive := (traced.recorded.rows _ row found).positive
  rw [← kind] at digested differs noticed recorded normal
  rw [← current] at positive unseen noticed recorded
  rw [normal] at differs
  exact ⟨⟨row, found, kind.symm, positive, Nat.le_of_eq current⟩, unseen, digested, parented,
    ⟨snapshot, recorded, differs.symm⟩, noticed⟩

/-! ## Conflicts that go on -/

/-- A conflict with another incoming side: about the same record, and first noticed at the same
time and content. -/
structure Conflict.Continues (later earlier : Conflict) : Prop where
  id_eq : later.id = earlier.id
  kind_eq : later.kind = earlier.kind
  entity_eq : later.entity = earlier.entity
  firstStored_eq : later.firstStored = earlier.firstStored
  createdAt_eq : later.createdAt = earlier.createdAt

namespace Conflict.Continues

theorem refl (conflict : Conflict) : conflict.Continues conflict := ⟨rfl, rfl, rfl, rfl, rfl⟩

theorem trans {first second third : Conflict} (late : third.Continues second)
    (early : second.Continues first) : third.Continues first :=
  ⟨late.id_eq.trans early.id_eq, late.kind_eq.trans early.kind_eq,
    late.entity_eq.trans early.entity_eq, late.firstStored_eq.trans early.firstStored_eq,
    late.createdAt_eq.trans early.createdAt_eq⟩

end Conflict.Continues

/-- No two pending conflicts have one identifier. -/
def Store.ConflictsApart (store : Store) : Prop :=
  ∀ key other first second, store.conflicts.get? key = some first →
    store.conflicts.get? other = some second → first.id = second.id → key = other

/-- Where a conflict that is set comes from: it continues the one that is pending in its place, or
it is new. A new one gets an identifier that is that of no other and that, as long as there is one,
had not been handed out before. -/
inductive Conflict.Arises (next : Conflict) (store after : Store) (place : Kind × EntityId) : Prop where
  | continued {earlier : Conflict} (found : store.conflicts.get? place = some earlier)
      (continues : next.Continues earlier)
  | new (free : ∀ key conflict, store.conflicts.get? key = some conflict → conflict.id ≠ next.id)
      (drawn : after.supply.issued = next.id.uuid :: store.supply.issued)
      (unissued : store.supply.issued.length < 2 ^ 128 → next.id.uuid ∉ store.supply.issued)

/-- A conflict that had the identifier before is the one that is continued. -/
theorem Conflict.Arises.of_same_id {next conflict : Conflict} {store after : Store}
    {place key : Kind × EntityId} (arises : next.Arises store after place)
    (apart : store.ConflictsApart) (found : store.conflicts.get? key = some conflict)
    (same : next.id = conflict.id) : key = place ∧ next.Continues conflict := by
  cases arises with
  | @continued earlier earlierFound continues =>
      have here : key = place :=
        apart key place conflict earlier found earlierFound (same.symm.trans continues.id_eq)
      subst here
      rw [found] at earlierFound
      cases earlierFound
      exact ⟨rfl, continues⟩
  | new free _ _ => exact absurd same.symm (free key conflict found)

/-! ## The table of conflicts along a trail -/

/-- What one move does to the table of conflicts: nothing is added to it, or one conflict of a live
record is set that stands. -/
inductive Store.Redisputes (store after : Store) : Prop where
  | shed (pending : ∀ key conflict, after.conflicts.get? key = some conflict →
      store.conflicts.get? key = some conflict)
  | set {place : Kind × EntityId} {next : Conflict} (arises : next.Arises store after place)
      (live : store.liveVersion? next.entity = some next.current)
      (stands : next.Stands store)
      (table : after.conflicts = store.conflicts.insert place next)

namespace Store.Redisputes

variable {store after : Store}

theorem conflictsApart (redisputes : store.Redisputes after) (apart : store.ConflictsApart) :
    after.ConflictsApart := by
  intro key other first second firstFound secondFound same
  cases redisputes with
  | shed pending =>
      exact apart key other first second (pending key first firstFound)
        (pending other second secondFound) same
  | @set place next arises live stands table =>
      rw [table] at firstFound secondFound
      by_cases firstHere : key = place <;> by_cases secondHere : other = place
      · rw [firstHere, secondHere]
      · subst firstHere
        rw [Dict.get?_insert_self] at firstFound
        rw [Dict.get?_insert_of_ne _ secondHere] at secondFound
        cases firstFound
        exact absurd (arises.of_same_id apart secondFound same).1 secondHere
      · subst secondHere
        rw [Dict.get?_insert_of_ne _ firstHere] at firstFound
        rw [Dict.get?_insert_self] at secondFound
        cases secondFound
        exact absurd (arises.of_same_id apart firstFound same.symm).1 firstHere
      · rw [Dict.get?_insert_of_ne _ firstHere] at firstFound
        rw [Dict.get?_insert_of_ne _ secondHere] at secondFound
        exact apart key other first second firstFound secondFound same

/-- A conflict that is pending after a move was so before, or it was set by it. -/
theorem kept_or_set (redisputes : store.Redisputes after) {key : Kind × EntityId}
    {conflict : Conflict} (found : after.conflicts.get? key = some conflict) :
    store.conflicts.get? key = some conflict ∨
      conflict.Arises store after key ∧
        store.liveVersion? conflict.entity = some conflict.current ∧ conflict.Stands store := by
  cases redisputes with
  | shed pending => exact Or.inl (pending key conflict found)
  | @set place next arises live stands table =>
      rw [table] at found
      by_cases here : key = place
      · subst here
        rw [Dict.get?_insert_self] at found
        cases found
        exact Or.inr ⟨arises, live, stands⟩
      · rw [Dict.get?_insert_of_ne _ here] at found
        exact Or.inl found

end Store.Redisputes

/-- In a store, all pending conflicts stand and have identifiers of their own, which have been
handed out. -/
structure Store.Disputed (store : Store) : Prop where
  chained : store.Chained
  sound : store.SoundConflicts
  apart : store.ConflictsApart
  issued : ∀ key conflict, store.conflicts.get? key = some conflict →
    conflict.id.uuid ∈ store.supply.issued
  stands : ∀ key conflict, store.conflicts.get? key = some conflict → conflict.Stands store

namespace Store

theorem disputed_empty : Store.empty.Disputed := by
  refine ⟨Store.chained_empty, Store.soundConflicts_empty, ?_, ?_, ?_⟩
  · intro key other first second found
    cases found
  · intro key conflict found
    cases found
  · intro key conflict found
    cases found

namespace Disputed

variable {store after : Store}

/-- The conflict with the identifier of one that is pending is that one. -/
theorem eq_of_conflictWithId? (disputed : store.Disputed) {key : Kind × EntityId}
    {pending stored : Conflict} (found : store.conflicts.get? key = some pending)
    (kept : store.conflictWithId? pending.kind pending.id = some stored) : stored = pending := by
  obtain ⟨other, storedFound, _, same⟩ := conflictWithId?_eq_some kept
  have here : other = key := disputed.apart other key stored pending storedFound found same
  rw [here, found] at storedFound
  exact (Option.some.inj storedFound).symm

/-- The identifier for a new conflict has not been handed out before, unless all have been. -/
theorem newConflictId_unissued (disputed : store.Disputed)
    (spare : store.supply.issued.length < 2 ^ 128) (generator : Generator) :
    (store.newConflictId generator).1.uuid ∉ store.supply.issued := by
  obtain ⟨id, unissued⟩ := Uuid.exists_not_mem spare
  have unused := generator.fresh store.supply.issued []
    (store.conflicts.values.map fun conflict => conflict.id.uuid) ⟨id, fun taken => ?_⟩
  · rw [List.append_nil] at unused
    exact fun listed => unused (List.mem_append_right _ listed)
  · -- what is in use has been handed out
    rcases List.mem_append.mp taken with inUse | listed
    · obtain ⟨conflict, isPending, rfl⟩ := List.mem_map.mp inUse
      obtain ⟨key, found⟩ := store.conflicts.mem_values_iff.mp isPending
      exact unissued (disputed.issued key conflict found)
    · exact unissued listed

/-- A conflict that is noticed with a live record stands, whether it was pending or is new. -/
theorem redisputes_of_notices (disputed : store.Disputed) {id : EntityId} {row : EntityRow}
    (live : store.live? id = some row) {scope : Scope} {base : Option Nat} {incoming : Content}
    {parent : Option Parent} {now : Int64} (unseen : base ≠ some row.version)
    (differs : (standard row.kind).normal row.content ≠ (standard row.kind).normal incoming)
    (notices : store.Notices (standard row.kind) (row.record id) scope base incoming parent now
      after) : store.Redisputes after := by
  have traced := disputed.chained.traced
  obtain ⟨found, notDeleted⟩ := Store.live?_eq_some_iff.mp live
  have current : store.liveVersion? id = some row.version :=
    liveVersion?_eq_some_iff.mpr ⟨row, found, notDeleted, rfl⟩
  cases notices with
  | held _ _ => exact .shed fun _ _ found => found
  | @refreshed pending stored pendingHere parentFits kept =>
      change store.conflicts.get? (row.kind, id) = some pending at pendingHere
      cases disputed.eq_of_conflictWithId? pendingHere kept
      obtain ⟨kind, entity⟩ := disputed.sound.keyed _ pending pendingHere
      change pending.kind = row.kind at kind
      change pending.entity = id at entity
      subst entity
      have stands := disputed.stands _ pending pendingHere
      have noticed := stands.noticed_before found
      rw [kind] at noticed
      have arises (after : Store) : Conflict.Arises
          { pending with
            scope := scope
            base := base
            current := row.version
            incoming := incoming
            digest := (standard row.kind).digest incoming
            parent := parent.or pending.parent
            updatedAt := now } store after (row.kind, pending.entity) :=
        .continued pendingHere ⟨rfl, rfl, rfl, rfl, rfl⟩
      refine .set (arises _) current (.of_live traced live kind rfl unseen rfl
        (stands.parented_or parentFits) differs noticed) ?_
      rw [Store.setConflict, ← kind]
      rfl
  | inserted generator absent parentFits =>
      obtain ⟨snapshot, recorded, notDeleted, normal⟩ := traced.exists_current live
      have noticed : ∃ version snapshot, version ≤ row.version ∧
          store.recorded? row.kind id version = some snapshot ∧ snapshot.change ≠ .deleted ∧
          (standard row.kind).normal row.content = (standard row.kind).normal snapshot.content :=
        ⟨row.version, snapshot, Nat.le_refl _, recorded, notDeleted, normal⟩
      have free (key : Kind × EntityId) (conflict : Conflict)
          (kept : store.conflicts.get? key = some conflict) :
          conflict.id ≠ (store.newConflictId generator).1 :=
        disputed.sound.newConflictId_fresh found absent
          (store.conflicts.mem_values_iff.mpr ⟨key, kept⟩) generator
      exact .set (.new free rfl fun spare => disputed.newConflictId_unissued spare generator) current
        (.of_live traced live rfl rfl unseen rfl parentFits differs noticed) rfl

theorem redisputes_move {env : Env} (registered : env.registry = .standard)
    (disputed : store.Disputed) (move : Move env store after) : store.Redisputes after := by
  have rows := disputed.chained.traced.recorded.rows
  cases move with
  | applied done =>
      exact .shed fun key conflict found => by
        rwa [Env.apply_conflicts registered rows done] at found
  | noticed outdated done =>
      rename_i kind bundle record scope parent summary
      obtain ⟨sameKind, looked⟩ := (Env.stale?_eq_ok registered rows).mp outdated
      obtain ⟨row, unseen, rfl⟩ := Option.map_eq_some_iff.mp looked.symm
      obtain ⟨live, different⟩ := Option.filter_eq_some_iff.mp unseen
      rw [Bool.and_eq_true, decide_eq_true_eq] at different
      cases sameKind row live
      obtain ⟨descriptor, now, known, notices⟩ := Env.noticeConflict_notices done
      have standardKind : descriptor = standard row.kind :=
        Except.ok.inj (known.symm.trans (Env.descriptor_standard registered row.kind))
      subst standardKind
      refine disputed.redisputes_of_notices live different.1 (fun same => ?_) notices
      have immaterial := Descriptor.immaterial_of_normal_eq
        (Descriptor.standard_relation_names row.kind) same
      rw [different.2] at immaterial
      cases immaterial
  | withdrawn stays =>
      refine .shed fun key conflict found => ?_
      rw [Dict.get?_filter, Option.filter_eq_some_iff] at found
      exact found.1
  | drawn supply advances => exact .shed fun _ _ found => found

/-- No move takes an identifier back that was handed out. -/
theorem advances {env : Env} (registered : env.registry = .standard) (disputed : store.Disputed)
    (move : Move env store after) : store.supply.issued <:+ after.supply.issued := by
  cases move with
  | applied done =>
      have same := Env.apply_supply registered disputed.chained.traced.recorded.rows done
      exact ⟨[], by rw [List.nil_append, same]⟩
  | noticed outdated done =>
      obtain ⟨_, _, _, notices⟩ := Env.noticeConflict_notices done
      cases notices with
      | held _ _ => exact List.suffix_refl _
      | refreshed _ _ _ => exact List.suffix_refl _
      | inserted generator _ _ => exact List.suffix_cons _ _
  | withdrawn stays => exact List.suffix_refl _
  | drawn supply advances => exact advances

theorem move {env : Env} (registered : env.registry = .standard) (disputed : store.Disputed)
    (move : Move env store after) : after.Disputed := by
  have remembers := disputed.chained.remembers_move registered move
  have redisputes := disputed.redisputes_move registered move
  have advances := disputed.advances registered move
  refine ⟨disputed.chained.move registered move,
    disputed.sound.move registered disputed.chained.traced.recorded.rows move,
    redisputes.conflictsApart disputed.apart, ?_, ?_⟩
  · intro key conflict found
    rcases redisputes.kept_or_set found with before | ⟨arises, _⟩
    · exact advances.mem (disputed.issued key conflict before)
    · cases arises with
      | continued earlierFound continues =>
          rw [continues.id_eq]
          exact advances.mem (disputed.issued _ _ earlierFound)
      | new _ drawn _ =>
          rw [drawn]
          exact List.mem_cons_self
  · intro key conflict found
    refine Conflict.Stands.of_remembers ?_ remembers
    rcases redisputes.kept_or_set found with before | ⟨_, _, stands⟩
    · exact disputed.stands key conflict before
    · exact stands

end Disputed

end Store

/-- All conflicts stand along a trail if they do at its start. -/
theorem Store.Disputed.along {first last : Store} (disputed : first.Disputed)
    (trail : Trail .standard first last) : last.Disputed :=
  trail.keeps (fun _ _ _ registered disputed move => disputed.move registered move) disputed

theorem Trail.disputed {store : Store} (trail : Trail .standard .empty store) : store.Disputed :=
  Store.disputed_empty.along trail

/-! ## As long as a conflict is pending -/

/-- What is pending in a store under the identifier of a conflict continues it. -/
def Conflict.GoesOnIn (conflict : Conflict) (store : Store) : Prop :=
  ∀ next ∈ store.conflicts.values, next.id = conflict.id → next.Continues conflict

namespace Conflict.GoesOnIn

variable {conflict : Conflict} {store after : Store}

/-- A pending conflict is the only one with its identifier. -/
theorem of_pending (apart : store.ConflictsApart) (listed : conflict ∈ store.conflicts.values) :
    conflict.GoesOnIn store := by
  intro next nextListed same
  obtain ⟨key, found⟩ := store.conflicts.mem_values_iff.mp listed
  obtain ⟨other, nextFound⟩ := store.conflicts.mem_values_iff.mp nextListed
  cases apart other key next conflict nextFound found same
  rw [found] at nextFound
  cases nextFound
  exact .refl conflict

/-- A move leaves what a conflict is about and what was noticed first, and it gives no other conflict
an identifier that was handed out before. -/
theorem move {env : Env} (goesOn : conflict.GoesOnIn store) (registered : env.registry = .standard)
    (disputed : store.Disputed) (issued : conflict.id.uuid ∈ store.supply.issued)
    (move : Move env store after) (spare : after.supply.issued.length ≤ 2 ^ 128) :
    conflict.GoesOnIn after := by
  intro next nextListed same
  obtain ⟨key, found⟩ := after.conflicts.mem_values_iff.mp nextListed
  rcases (disputed.redisputes_move registered move).kept_or_set found with before | ⟨arises, _⟩
  · exact goesOn next (store.conflicts.mem_values_iff.mpr ⟨key, before⟩) same
  · cases arises with
    | @continued earlier earlierFound continues =>
        have earlierListed := store.conflicts.mem_values_iff.mpr ⟨key, earlierFound⟩
        exact continues.trans (goesOn earlier earlierListed (continues.id_eq.symm.trans same))
    | new _ drawn unissued =>
        rw [drawn, List.length_cons] at spare
        rw [← same] at issued
        exact absurd issued (unissued spare)

/-- However often a pending conflict is refreshed, it goes on, as long as no more identifiers have
been handed out than there are. -/
theorem along {first last : Store} (disputed : first.Disputed)
    (listed : conflict ∈ first.conflicts.values) (trail : Trail .standard first last)
    (spare : last.supply.issued.length ≤ 2 ^ 128) : conflict.GoesOnIn last := by
  obtain ⟨key, found⟩ := first.conflicts.mem_values_iff.mp listed
  refine (trail.keeps (motive := fun store => store.Disputed ∧
    conflict.id.uuid ∈ store.supply.issued ∧
    (store.supply.issued.length ≤ 2 ^ 128 → conflict.GoesOnIn store)) ?_
    ⟨disputed, disputed.issued key conflict found, fun _ => .of_pending disputed.apart listed⟩).2.2
    spare
  rintro env before after registered ⟨beforeDisputed, issued, goesOn⟩ move
  have advances := beforeDisputed.advances registered move
  refine ⟨beforeDisputed.move registered move, advances.mem issued, fun spare => ?_⟩
  have spareBefore := Nat.le_trans advances.length_le spare
  exact (goesOn spareBefore).move registered beforeDisputed issued move spare

end Conflict.GoesOnIn

/-! ## Reachable stores -/

/-- No two pending conflicts are about one record. -/
theorem Store.SoundConflicts.nodup {store : Store} (sound : store.SoundConflicts) :
    (store.conflicts.values.map fun conflict => (conflict.kind, conflict.entity)).Nodup := by
  have keys : (store.conflicts.values.map fun conflict => (conflict.kind, conflict.entity)) =
      store.conflicts.keys := by
    rw [Dict.values, Dict.keys, List.map_map]
    refine List.map_congr_left fun entry listed => ?_
    obtain ⟨kind, entity⟩ := sound.keyed entry.1 entry.2
      ((store.conflicts.get?_eq_some_iff).mpr listed)
    exact Prod.ext kind entity
  rw [keys]
  exact store.conflicts.keys_sorted.imp fun before => Key.ne_of_before before

/-- In every store that a run can lead to, at most one conflict is pending for a record, and what
it says agrees with the history of the record. Whatever operation is carried out next, and wherever
a run goes on to, what is pending under its identifier then is about the same record and was first
noticed with the same content at the same time, as long as no more identifiers have been handed out
than there are. -/
theorem Reachable.conflicts_stand {store : Store} (reachable : Reachable .standard store) :
    (store.conflicts.values.map fun conflict => (conflict.kind, conflict.entity)).Nodup ∧
    ∀ conflict ∈ store.conflicts.values, conflict.Stands store ∧
      (∀ (env : Env) (operation : Operation), env.registry = .standard →
        (operation.perform env store).supply.issued.length ≤ 2 ^ 128 →
        conflict.GoesOnIn (operation.perform env store)) ∧
      ∀ later, Run .standard store later → later.supply.issued.length ≤ 2 ^ 128 →
        conflict.GoesOnIn later := by
  have disputed := (Trail.of_run reachable).disputed
  refine ⟨disputed.sound.nodup, fun conflict listed => ⟨?_, ?_, ?_⟩⟩
  · obtain ⟨key, found⟩ := store.conflicts.mem_values_iff.mp listed
    exact disputed.stands key conflict found
  · rintro env operation registered spare
    have trail := operation.perform_trail env store
    rw [registered] at trail
    exact .along disputed listed trail spare
  · intro later run spare
    exact .along disputed listed (.of_run run) spare

/-- A store with a tag that was renamed twice, while two producers that had seen its first name
sent others. -/
def Store.withContestedTag : Store :=
  .following ⟨.standard, 3, 0⟩
    [.commit .attr ⟨⟨1⟩⟩ (some ⟨.ofList [("key", .text "draft")], .empty⟩) ⟨"editor", .direct⟩,
      .commit .attr ⟨⟨1⟩⟩ (some ⟨.ofList [("key", .text "final")], .empty⟩) ⟨"editor", .direct⟩,
      .submit (.naming [(1, "other")]),
      .commit .attr ⟨⟨1⟩⟩ (some ⟨.ofList [("key", .text "last")], .empty⟩) ⟨"editor", .direct⟩,
      .submit { Submission.naming [(1, "another")] with scope := "wire" }]

/-- What the first producer sends then, as another name again. -/
def Operation.contesting : Operation :=
  .submit (.naming [(1, "newest")])

/-- The conflict is noticed once more, and goes on as the one that it was. -/
theorem conflicts_stand_withContestedTag :
    Reachable .standard .withContestedTag ∧
    ∃ conflict ∈ Store.withContestedTag.conflicts.values,
      (conflict.firstStored = ⟨.ofList [("key", .text "final")], .empty⟩ ∧ conflict.current = 3) ∧
      (Store.withContestedTag.conflicts.values.map fun conflict =>
        (conflict.kind, conflict.entity)).Nodup ∧
      conflict.Stands .withContestedTag ∧
      conflict.GoesOnIn (Operation.contesting.perform ⟨.standard, 3, 1⟩ .withContestedTag) ∧
      ∃ next ∈ (Operation.contesting.perform ⟨.standard, 3, 1⟩ .withContestedTag).conflicts.values,
        next.id = conflict.id ∧ next.incoming ≠ conflict.incoming ∧ next.Continues conflict := by
  have reachable : Reachable .standard .withContestedTag := reachable_following ⟨.standard, 3, 0⟩ _
  have run : Run .standard .withContestedTag
      (Operation.contesting.perform ⟨.standard, 3, 1⟩ .withContestedTag) := .step .start 3 1 _
  have spare : (Operation.contesting.perform ⟨.standard, 3, 1⟩
      .withContestedTag).supply.issued.length ≤ 2 ^ 128 := by decide +kernel
  have pending : (Store.withContestedTag.conflict? .attr ⟨⟨1⟩⟩).map
      (fun conflict => (conflict.firstStored, conflict.current)) =
      some (⟨.ofList [("key", .text "final")], .empty⟩, 3) := by decide +kernel
  have refreshed : ((Operation.contesting.perform ⟨.standard, 3, 1⟩ .withContestedTag).conflict?
      .attr ⟨⟨1⟩⟩).map (fun next => (next.id, next.incoming)) =
      (Store.withContestedTag.conflict? .attr ⟨⟨1⟩⟩).map fun conflict =>
        (conflict.id, ⟨.ofList [("key", .text "newest")], .empty⟩) := by decide +kernel
  have sent : (Store.withContestedTag.conflict? .attr ⟨⟨1⟩⟩).map Conflict.incoming =
      some ⟨.ofList [("key", .text "another")], .empty⟩ := by decide +kernel
  obtain ⟨conflict, found, told⟩ := Option.map_eq_some_iff.mp pending
  rw [found, Option.map_some] at refreshed sent
  obtain ⟨next, nextFound, same⟩ := Option.map_eq_some_iff.mp refreshed
  obtain ⟨named, incoming⟩ := Prod.mk.inj same
  have listed : conflict ∈ Store.withContestedTag.conflicts.values :=
    (Dict.mem_values_iff _).mpr ⟨_, found⟩
  have nextListed := (Dict.mem_values_iff _).mpr ⟨_, nextFound⟩
  obtain ⟨single, each⟩ := reachable.conflicts_stand
  obtain ⟨stands, performed, followed⟩ := each conflict listed
  refine ⟨reachable, conflict, listed, Prod.mk.inj told, single, stands,
    performed ⟨.standard, 3, 1⟩ .contesting rfl spare, next, nextListed, named, ?_,
    followed _ run spare next nextListed named⟩
  rw [incoming, Option.some.inj sent]
  decide +kernel

end Chronicle
