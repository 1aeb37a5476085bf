import Chronicle.Proofs.Rows

/-!
# What a commit does

A commit that is carried out either finds nothing to change, because the record holds what is
proposed (`Store.Admits.immaterial_iff`), or writes one version of one record: its row, one
snapshot, and link rows. `Applies` says all of this, together with what has been checked before, and
`Env.apply_applies` gives it for every commit to a store whose rows are sound.
-/

namespace Chronicle

open Descriptor (standard)

/-! ## Sound rows -/

/-- What holds of the row of every record: its version can be stored, and its content is
canonical and acceptable; a deleted record has no members. -/
structure EntityRow.Sound (row : EntityRow) : Prop where
  positive : 0 < row.version
  bounded : row.version < versionLimit
  canonical : row.content.IsCanonical
  accepted : (standard row.kind).check row.content = .ok ()
  emptied : row.deleted = true → ∀ relation, row.content.members relation = []

namespace Store

def SoundRows (store : Store) : Prop := ∀ id row, store.row? id = some row → row.Sound

/-- The version that the row of a record has; 0 if there is none. -/
def counter (store : Store) (id : EntityId) : Nat := ((store.row? id).map EntityRow.version).getD 0

theorem counter_of_row? {store : Store} {id : EntityId} {row : EntityRow}
    (found : store.row? id = some row) : store.counter id = row.version := by
  rw [counter, found, Option.map_some, Option.getD_some]

/-- The content that the row of a record holds. -/
def stored? (store : Store) (id : EntityId) : Option Content :=
  (store.row? id).map EntityRow.content

theorem stored?_of_row? {store : Store} {id : EntityId} {row : EntityRow}
    (found : store.row? id = some row) : store.stored? id = some row.content := by
  rw [stored?, found, Option.map_some]

theorem load_of_sound {store : Store} (sound : store.SoundRows) {id : EntityId} {row : EntityRow}
    (found : store.row? id = some row) : store.load (standard row.kind) id = row.content :=
  load_eq_content found (sound id row found).canonical
    (Descriptor.declares_of_check (sound id row found).accepted)

/-! ## Before writing -/

/-- What is checked before anything is written. -/
structure Admits (store : Store) (kind : Kind) (id : EntityId) (proposed : Option Content) :
    Prop where
  accepted : ∀ content, proposed = some content → (standard kind).check content = .ok ()
  members : ∀ content, proposed = some content →
    store.memberFault? (standard kind) content = none
  present : ∀ row, store.row? id = some row → row.kind = kind ∧ row.deleted = false
  something : store.row? id = none → proposed ≠ none

/-- Each member that a content lists is of the kind its relation points to, if it exists. -/
theorem memberFault?_eq_none_iff {store : Store} {descriptor : Descriptor} {content : Content} :
    store.memberFault? descriptor content = none ↔
      ∀ relation ∈ descriptor.relations, ∀ member ∈ content.members relation.name,
        ∀ row, store.row? member = some row → row.kind = relation.target := by
  simp only [memberFault?, List.findSome?_eq_none_iff]
  constructor
  · intro sound relation declared member listed row found
    have passes := sound relation declared member listed
    rw [found] at passes
    exact Classical.byContradiction fun other => by simp [other] at passes
  · intro sound relation declared member listed
    cases found : store.row? member with
    | none => rfl
    | some row => simp [sound relation declared member listed row found]

/-- With fewer members there are no more faults. -/
theorem memberFault?_of_fewer {store : Store} {descriptor : Descriptor} {content fewer : Content}
    (fits : store.memberFault? descriptor content = none)
    (among : ∀ relation, ∀ member ∈ fewer.members relation, member ∈ content.members relation) :
    store.memberFault? descriptor fewer = none := by
  rw [memberFault?_eq_none_iff] at fits ⊢
  intro relation declared member listed
  exact fits relation declared member (among relation.name member listed)

theorem checkProposed_eq_ok {store : Store} {descriptor : Descriptor} {proposed : Option Content} :
    store.checkProposed descriptor proposed = .ok () ↔
      ∀ content, proposed = some content → descriptor.check content = .ok () ∧
        store.memberFault? descriptor content = none := by
  cases proposed with
  | none => exact ⟨fun _ => nofun, fun _ => rfl⟩
  | some content =>
      simp only [checkProposed, bind_eq_ok, mapError_eq_ok, Option.some.injEq, forall_eq']
      constructor
      · rintro ⟨_, accepted, fits⟩
        refine ⟨accepted, ?_⟩
        split at fits
        · cases fits
        · assumption
      · rintro ⟨accepted, fits⟩
        refine ⟨(), accepted, ?_⟩
        rw [fits]
        rfl

theorem previous_of_row? {store : Store} {descriptor : Descriptor} {id : EntityId} {row : EntityRow}
    (found : store.row? id = some row) (same : row.kind = descriptor.kind)
    (live : row.deleted = false) :
    store.previous descriptor id = .ok (some (store.load descriptor id), row.version) := by
  rw [previous, found]
  dsimp only
  rw [if_neg (not_not_intro same), if_neg (by simp [live])]

/-- What is known of a record before a commit: there is none, or it is live and of the kind. -/
theorem previous_cases {store : Store} {descriptor : Descriptor} {id : EntityId}
    {before : Option Content × Nat} (given : store.previous descriptor id = .ok before) :
    (store.row? id = none ∧ before = (none, 0)) ∨
      ∃ row, store.row? id = some row ∧ row.kind = descriptor.kind ∧ row.deleted = false ∧
        before = (some (store.load descriptor id), row.version) := by
  unfold previous at given
  split at given
  · rename_i missing
    exact Or.inl ⟨missing, (Except.ok.inj given).symm⟩
  · rename_i row found
    split at given
    · cases given
    · rename_i same
      split at given
      · cases given
      · rename_i live
        exact Or.inr ⟨row, found, Decidable.not_not.mp same, Bool.eq_false_iff.mpr live,
          (Except.ok.inj given).symm⟩

theorem previous_eq_ok {store : Store} {kind : Kind} {id : EntityId}
    {before : Option Content × Nat} (sound : store.SoundRows) :
    store.previous (standard kind) id = .ok before ↔
      (∀ row, store.row? id = some row → row.kind = kind ∧ row.deleted = false) ∧
        before = (store.stored? id, store.counter id) := by
  constructor
  · intro given
    obtain ⟨missing, rfl⟩ | ⟨row, found, same, live, rfl⟩ := previous_cases given
    · refine ⟨fun row found => ?_, ?_⟩
      · cases missing.symm.trans found
      · rw [stored?, counter, missing]
        rfl
    · rw [Descriptor.standard_kind] at same
      subst same
      refine ⟨fun other here => ?_, ?_⟩
      · cases found.symm.trans here
        exact ⟨rfl, live⟩
      · rw [load_of_sound sound found, stored?_of_row? found, counter_of_row? found]
  · rintro ⟨fits, rfl⟩
    cases found : store.row? id with
    | none =>
        rw [previous, stored?, counter, found]
        rfl
    | some row =>
        obtain ⟨rfl, live⟩ := fits row found
        rw [previous_of_row? found (Descriptor.standard_kind row.kind).symm live,
          load_of_sound sound found, stored?_of_row? found, counter_of_row? found]

/-! ## Writing snapshots and links -/

/-- A snapshot is added under a version that can be stored and has none, if the table is one of
snapshots. -/
theorem insertSnapshot_eq_ok_iff {store after : Store} {descriptor : Descriptor}
    {snapshot : Snapshot} :
    store.insertSnapshot descriptor snapshot = .ok after ↔
      descriptor.fixedColumns? = none ∧
        (0 < snapshot.version ∧ snapshot.version < versionLimit) ∧
        store.snapshots.get? (descriptor.historyTable, snapshot.entity, snapshot.version) = none ∧
        after = { store with
          snapshots := store.snapshots.insert
            (descriptor.historyTable, snapshot.entity, snapshot.version) snapshot } := by
  simp only [insertSnapshot, bind_eq_ok, VersionColumn.check]
  constructor
  · rintro ⟨_, inRange, written⟩
    split at inRange
    · rename_i bounded
      split at written
      · cases written
      · rename_i snapshots
        split at written
        · cases written
        · rename_i free
          obtain ⟨positive, absent⟩ := not_or.mp free
          refine ⟨snapshots, ⟨Nat.pos_of_ne_zero positive, bounded⟩, ?_,
            (Except.ok.inj written).symm⟩
          rw [Dict.contains] at absent
          simpa using absent
    · cases inRange
  · rintro ⟨snapshots, ⟨positive, bounded⟩, free, rfl⟩
    refine ⟨(), if_pos bounded, ?_⟩
    rw [snapshots]
    dsimp only
    rw [if_neg]
    rintro (zero | taken)
    · exact absurd zero (Nat.ne_of_gt positive)
    · rw [Dict.contains, free] at taken
      cases taken

theorem insertSnapshot_eq_ok {store after : Store} {kind : Kind} {snapshot : Snapshot} :
    store.insertSnapshot (standard kind) snapshot = .ok after ↔
      (0 < snapshot.version ∧ snapshot.version < versionLimit) ∧
        store.snapshots.get? ((standard kind).historyTable, snapshot.entity, snapshot.version) =
          none ∧
        after = { store with
          snapshots := store.snapshots.insert
            ((standard kind).historyTable, snapshot.entity, snapshot.version) snapshot } := by
  rw [insertSnapshot_eq_ok_iff]
  exact and_iff_right (Descriptor.standard_fixedColumns kind)

end Store

namespace Env

/-- Link rows touch nothing but the table of links. -/
theorem writeLink_frame {env : Env} {owner : EntityId} {version : Nat} {actor : Actor}
    {now : Int64} {event : LinkEvent} {store after : Store} {skipped : Option SkippedLink}
    (written : env.writeLink owner version actor now event store = .ok (skipped, after)) :
    after = { store with links := after.links, places := after.places } := by
  unfold writeLink at written
  split at written
  · cases written
    rfl
  · simp only [bind_eq_ok, ofStore_eq_ok, pure_eq_ok, Prod.mk.injEq] at written
    obtain ⟨last, _, next, inserted, _, rfl⟩ := written
    unfold Store.insertLink at inserted
    simp only [bind_eq_ok] at inserted
    obtain ⟨_, _, _, _, _, _, inserted⟩ := inserted
    split at inserted
    · cases inserted
    · cases inserted
    · split at inserted
      · cases inserted
      · cases inserted
        rfl

/-! ## Versions -/

/-- The change that brings a record to a proposed content. -/
def changeTo (store : Store) (kind : Kind) (id : EntityId) (proposed : Option Content) : Change :=
  (standard kind).compare (store.stored? id) proposed

/-- What a version records: the proposed content, or what remains of a deleted record. -/
def versionContent (store : Store) (id : EntityId) (proposed : Option Content) : Content :=
  proposed.getD (Content.remains (store.stored? id))

/-- The row that a record gets with a version. -/
def versionRow (env : Env) (store : Store) (kind : Kind) (id : EntityId)
    (proposed : Option Content) (version : Nat) : EntityRow :=
  .next (store.row? id) kind version (versionContent store id proposed) proposed.isNone env.now

/-- The snapshot that a record gets with a version. -/
def versionSnapshot (env : Env) (store : Store) (kind : Kind) (id : EntityId)
    (proposed : Option Content) (attribution : Attribution) (version : Nat) : Snapshot where
  entity := id
  kind := kind
  version := version
  changedAt := env.now
  changedBy := attribution.actor
  origin := attribution.origin
  change := (changeTo store kind id proposed).kind
  fields := (versionContent store id proposed).fields
  relations := (store.setRow id (versionRow env store kind id proposed version)).memberRefs
    (standard kind) (versionContent store id proposed)

/-- The store once the row and the snapshot of a version are written, before its links. -/
def versioned (env : Env) (store : Store) (kind : Kind) (id : EntityId)
    (proposed : Option Content) (attribution : Attribution) (version : Nat) : Store :=
  { store with
    entities := store.entities.insert id (versionRow env store kind id proposed version)
    snapshots := store.snapshots.insert ((standard kind).historyTable, id, version)
      (versionSnapshot env store kind id proposed attribution version) }

/-- One version of a record has been written: its row, its snapshot and its links. -/
structure Writes (env : Env) (kind : Kind) (id : EntityId) (proposed : Option Content)
    (attribution : Attribution) (version : Nat) (store : Store) (outcome : Outcome)
    (after : Store) : Prop where
  started : ¬ env.now < 0
  positive : 0 < version
  bounded : version < versionLimit
  free : store.snapshots.get? ((standard kind).historyTable, id, version) = none
  links : ∃ skipped, inTurn (env.writeLink id version attribution.actor env.now)
      ((standard kind).linkEvents (changeTo store kind id proposed))
      (versioned env store kind id proposed attribution version) = .ok (skipped, after) ∧
    outcome = ⟨id, kind, version, changeTo store kind id proposed,
      skipped.filterMap fun link => link⟩

/-- A version records members only under declared relations. -/
theorem versionContent_declares {store : Store} {kind : Kind} {id : EntityId}
    {proposed : Option Content} (admits : store.Admits kind id proposed) :
    (standard kind).Declares (versionContent store id proposed) := by
  cases same : proposed with
  | none => exact fun relation member listed => absurd listed List.not_mem_nil
  | some content => exact Descriptor.declares_of_check (admits.accepted content same)

/-- A change that is given both contents neither creates nor deletes. -/
theorem compare_some_kind (descriptor : Descriptor) (before after : Content) :
    (descriptor.compare (some before) (some after)).kind ≠ .created ∧
      (descriptor.compare (some before) (some after)).kind ≠ .deleted := by
  simp only [Descriptor.compare]
  split
  · simp
  · split
    · simp
    · simp

theorem compare_kind_created_iff (descriptor : Descriptor) {before after : Option Content}
    (something : before = none → after ≠ none) :
    (descriptor.compare before after).kind = .created ↔ before = none := by
  cases before with
  | none =>
      cases after with
      | none => exact absurd rfl (something rfl)
      | some after => exact ⟨fun _ => rfl, fun _ => rfl⟩
  | some before =>
      cases after with
      | none => exact ⟨nofun, nofun⟩
      | some after => exact ⟨fun same => absurd same (compare_some_kind _ _ _).1, nofun⟩

theorem compare_kind_deleted_iff (descriptor : Descriptor) {before after : Option Content}
    (something : before = none → after ≠ none) :
    (descriptor.compare before after).kind = .deleted ↔ after = none := by
  cases before with
  | none =>
      cases after with
      | none => exact absurd rfl (something rfl)
      | some after => exact ⟨nofun, nofun⟩
  | some before =>
      cases after with
      | none => exact ⟨fun _ => rfl, fun _ => rfl⟩
      | some after => exact ⟨fun same => absurd same (compare_some_kind _ _ _).2, nofun⟩

end Env

/-- The proposed content counts as what the record holds. -/
def Store.Reflects (store : Store) (kind : Kind) (id : EntityId) (proposed : Option Content) : Prop :=
  ∃ row content, store.row? id = some row ∧ proposed = some content ∧
    (standard kind).normal content = (standard kind).normal row.content

instance (store : Store) (kind : Kind) (id : EntityId) (proposed : Option Content) :
    Decidable (store.Reflects kind id proposed) :=
  decidable_of_iff ((store.row? id).any fun row => proposed.any fun content =>
      decide ((standard kind).normal content = (standard kind).normal row.content)) (by
    simp only [Option.any_eq_true, decide_eq_true_eq, Store.Reflects]
    exact exists_congr fun row => by simp only [exists_and_left])

theorem Store.reflects_some_iff {store : Store} {kind : Kind} {id : EntityId} {row : EntityRow}
    (found : store.row? id = some row) {content : Content} :
    store.Reflects kind id (some content) ↔
      (standard kind).normal content = (standard kind).normal row.content := by
  constructor
  · rintro ⟨other, given, here, sent, counts⟩
    rw [found] at here
    cases here
    cases sent
    exact counts
  · intro counts
    exact ⟨row, content, found, rfl, counts⟩

namespace Store.Admits

variable {store : Store} {kind : Kind} {id : EntityId} {proposed : Option Content}

theorem something_stored (admits : store.Admits kind id proposed) :
    store.stored? id = none → proposed ≠ none := fun none =>
  admits.something (Option.map_eq_none_iff.mp none)

/-- The row of a record that gets a version can be written to. -/
theorem opens (admits : store.Admits kind id proposed) (sound : store.SoundRows)
    (row : EntityRow) (found : store.row? id = some row) : row.Open kind := by
  obtain ⟨rfl, live⟩ := admits.present row found
  have rowSound := sound id row found
  exact ⟨rfl, live, rowSound.canonical, Descriptor.declares_of_check rowSound.accepted⟩

theorem created_iff (admits : store.Admits kind id proposed) :
    (Env.changeTo store kind id proposed).kind = .created ↔ store.row? id = none := by
  rw [Env.changeTo, Env.compare_kind_created_iff _ admits.something_stored, stored?,
    Option.map_eq_none_iff]

theorem deleted_eq (admits : store.Admits kind id proposed) :
    decide ((Env.changeTo store kind id proposed).kind = .deleted) = proposed.isNone := by
  have absent : decide (proposed = none) = proposed.isNone := by cases proposed <;> rfl
  rw [Env.changeTo, decide_eq_decide.mpr (Env.compare_kind_deleted_iff _ admits.something_stored),
    absent]

/-- A commit finds nothing to change exactly if the proposed content is held already. -/
theorem immaterial_iff (admits : store.Admits kind id proposed) (sound : store.SoundRows) :
    (Env.changeTo store kind id proposed).isMaterial = false ↔ store.Reflects kind id proposed := by
  have created := admits.created_iff
  cases found : store.row? id with
  | none =>
      have new := created.mpr found
      constructor
      · intro immaterial
        rw [Change.isMaterial, new] at immaterial
        cases immaterial
      · rintro ⟨row, _, here, _⟩
        rw [found] at here
        cases here
  | some row =>
      obtain ⟨rfl, _⟩ := admits.present row found
      cases same : proposed with
      | none =>
          constructor
          · intro immaterial
            rw [Env.changeTo, Store.stored?, found] at immaterial
            cases immaterial
          · rintro ⟨_, _, _, impossible, _⟩
            cases impossible
      | some content =>
          rw [Env.changeTo, Store.stored?, found, Option.map_some, Store.reflects_some_iff found,
            Descriptor.standard_immaterial_iff (sound id row found).accepted
              (admits.accepted content same)]
          exact eq_comm

end Store.Admits

namespace Env

/-- A version that has been written is the one that was admitted. -/
theorem writeVersion_writes {env : Env} {kind : Kind} {id : EntityId} {proposed : Option Content}
    {attribution : Attribution} {version : Nat} {store after : Store} {outcome : Outcome}
    (sound : store.SoundRows) (admits : store.Admits kind id proposed)
    (written : env.writeVersion (standard kind) id (versionContent store id proposed)
      (changeTo store kind id proposed) attribution version store = .ok (outcome, after)) :
    Writes env kind id proposed attribution version store outcome after := by
  have declared := versionContent_declares admits
  simp only [writeVersion, bind_eq_ok, ofStore_eq_ok, Prod.exists, pure_eq_ok, Prod.mk.injEq,
    clock_eq_ok] at written
  obtain ⟨_, ⟨rfl, started⟩, rowed, rows, logged, snapshots, skipped, last, links, rfl, rfl⟩ :=
    written
  obtain ⟨⟨positive, bounded⟩, rfl⟩ :=
    (Store.writeRow_eq_ok (admits.opens sound) admits.created_iff declared).mp rows
  obtain ⟨_, free, rfl⟩ := Store.insertSnapshot_eq_ok.mp snapshots
  simp only [Descriptor.standard_kind, admits.deleted_eq] at links
  exact ⟨started, positive, bounded, free, skipped, links, by rw [Descriptor.standard_kind]⟩

namespace Writes

variable {env : Env} {kind : Kind} {id : EntityId} {proposed : Option Content}
  {attribution : Attribution} {version : Nat} {store after : Store} {outcome : Outcome}

/-- Link rows come last, and leave the rest of the version as it is. -/
theorem frame (writes : Writes env kind id proposed attribution version store outcome after) :
    after = { versioned env store kind id proposed attribution version with
      links := after.links, places := after.places } := by
  obtain ⟨skipped, links, _⟩ := writes.links
  refine inTurn_keeps (motive := fun next => next =
    { versioned env store kind id proposed attribution version with
      links := next.links, places := next.places }) ?_ rfl links
  intro event _ before result next kept written
  rw [writeLink_frame written, kept]

theorem entities (writes : Writes env kind id proposed attribution version store outcome after) :
    after.entities = store.entities.insert id (versionRow env store kind id proposed version) :=
  congrArg Store.entities writes.frame

theorem snapshots (writes : Writes env kind id proposed attribution version store outcome after) :
    after.snapshots = store.snapshots.insert ((standard kind).historyTable, id, version)
      (versionSnapshot env store kind id proposed attribution version) :=
  congrArg Store.snapshots writes.frame

theorem conflicts (writes : Writes env kind id proposed attribution version store outcome after) :
    after.conflicts = store.conflicts :=
  (congrArg Store.conflicts writes.frame).trans rfl

theorem supply (writes : Writes env kind id proposed attribution version store outcome after) :
    after.supply = store.supply :=
  (congrArg Store.supply writes.frame).trans rfl

theorem row?_self (writes : Writes env kind id proposed attribution version store outcome after) :
    after.row? id = some (versionRow env store kind id proposed version) := by
  rw [Store.row?, writes.entities, Dict.get?_insert_self]

theorem row?_of_ne (writes : Writes env kind id proposed attribution version store outcome after)
    {other : EntityId} (different : other ≠ id) : after.row? other = store.row? other := by
  rw [Store.row?, writes.entities, Dict.get?_insert_of_ne _ different, Store.row?]

/-- The row that has been written is sound. -/
theorem sound_self (sound : store.SoundRows) (admits : store.Admits kind id proposed)
    (writes : Writes env kind id proposed attribution version store outcome after) :
    (versionRow env store kind id proposed version).Sound := by
  refine ⟨writes.positive, writes.bounded, Content.isCanonical_canonical _, ?_, ?_⟩
  · refine Descriptor.check_canonical ?_
    cases same : proposed with
    | some content => exact admits.accepted content same
    | none =>
        -- what remains of a deleted record are the fields of its last content
        have exists_row : ∃ row, store.row? id = some row :=
          Option.ne_none_iff_exists'.mp fun none => admits.something none same
        obtain ⟨row, found⟩ := exists_row
        have accepted := (sound id row found).accepted
        rw [(admits.present row found).1] at accepted
        refine Descriptor.check_of_fewer accepted ?_ ?_ ?_
        · intro name value listed
          simpa [versionContent, Content.remains, Store.stored?, found] using listed
        · intro name
          simp [versionContent, Content.remains, Store.stored?, found, Content.value]
        · intro relation list listed
          cases listed
  · intro deleted relation
    cases same : proposed with
    | some content =>
        rw [same] at deleted
        cases deleted
    | none =>
        rw [show (versionRow env store kind id none version).content =
          (Content.remains (store.stored? id)).canonical from rfl, Content.members_canonical]
        rfl

theorem soundRows (sound : store.SoundRows) (admits : store.Admits kind id proposed)
    (writes : Writes env kind id proposed attribution version store outcome after) :
    after.SoundRows := by
  intro other row found
  by_cases same : other = id
  · subst same
    rw [writes.row?_self] at found
    cases found
    exact writes.sound_self sound admits
  · rw [writes.row?_of_ne same] at found
    exact sound other row found

end Writes

/-! ## Commits -/

/-- What a commit that is carried out does: nothing if the proposed content counts as what is
stored, and one version otherwise. -/
inductive Applies (env : Env) (kind : Kind) (id : EntityId) (proposed : Option Content)
    (attribution : Attribution) (store : Store) : Outcome → Store → Prop where
  | unchanged (immaterial : (changeTo store kind id proposed).isMaterial = false) :
      Applies env kind id proposed attribution store
        ⟨id, kind, store.counter id, changeTo store kind id proposed, []⟩ store
  | written {version : Nat} {outcome : Outcome} {after : Store}
      (material : (changeTo store kind id proposed).isMaterial = true)
      (next : version = store.counter id + 1 ∨
        version = max (store.counter id) (store.lastVersion (standard kind) id) + 1)
      (writes : Writes env kind id proposed attribution version store outcome after) :
      Applies env kind id proposed attribution store outcome after

theorem writeNext_eq_ok {env : Env} {descriptor : Descriptor} {id : EntityId} {content : Content}
    {change : Change} {attribution : Attribution} {counter : Nat} {store after : Store}
    {attempts version : Nat} {outcome : Outcome}
    (written : env.writeNext descriptor id content change attribution counter store attempts
      version = .ok (outcome, after)) :
    ∃ chosen, (chosen = version ∨ chosen = max counter (store.lastVersion descriptor id) + 1) ∧
      env.writeVersion descriptor id content change attribution chosen store =
        .ok (outcome, after) := by
  induction attempts generalizing version with
  | zero => cases written
  | succ attempts ih =>
      rw [writeNext] at written
      split at written
      · obtain ⟨chosen, retried | retried, done⟩ := ih written
        · exact ⟨chosen, Or.inr retried, done⟩
        · exact ⟨chosen, Or.inr retried, done⟩
      · exact ⟨version, Or.inl rfl, written⟩

/-- A commit that is carried out was admitted, and does what `Applies` says. -/
theorem apply_applies {env : Env} (registered : env.registry = .standard) {kind : Kind}
    {id : EntityId} {proposed : Option Content} {attribution : Attribution} {store after : Store}
    {outcome : Outcome} (sound : store.SoundRows)
    (applied : env.apply kind id proposed attribution store = .ok (outcome, after)) :
    store.Admits kind id proposed ∧
      Applies env kind id proposed attribution store outcome after := by
  unfold apply at applied
  rw [descriptor_standard registered] at applied
  change (store.checkProposed (standard kind) proposed >>= _) = _ at applied
  rw [bind_eq_ok] at applied
  obtain ⟨_, checked, applied⟩ := applied
  rw [bind_eq_ok] at applied
  obtain ⟨before, given, applied⟩ := applied
  obtain ⟨present, rfl⟩ := (Store.previous_eq_ok sound).mp given
  dsimp only at applied
  split at applied
  · cases applied
  · rename_i something
    have passes := Store.checkProposed_eq_ok.mp checked
    have admits : store.Admits kind id proposed := by
      refine ⟨fun content same => (passes content same).1,
        fun content same => (passes content same).2, present, fun none missing => something ?_⟩
      simp [Store.stored?, none, missing]
    refine ⟨admits, ?_⟩
    split at applied
    · rename_i material
      obtain ⟨version, next, written⟩ := writeNext_eq_ok applied
      exact .written material next (writeVersion_writes sound admits written)
    · rename_i immaterial
      rw [pure_eq_ok] at applied
      cases applied
      exact .unchanged (Bool.eq_false_iff.mpr immaterial)

/-- A commit keeps all rows sound. -/
theorem apply_soundRows {env : Env} (registered : env.registry = .standard) {kind : Kind}
    {id : EntityId} {proposed : Option Content} {attribution : Attribution} {store after : Store}
    {outcome : Outcome} (sound : store.SoundRows)
    (applied : env.apply kind id proposed attribution store = .ok (outcome, after)) :
    after.SoundRows := by
  obtain ⟨admits, applies⟩ := apply_applies registered sound applied
  cases applies with
  | unchanged immaterial => exact sound
  | written material next writes => exact writes.soundRows sound admits

/-- A commit keeps the kind of each record. -/
theorem apply_kind {env : Env} (registered : env.registry = .standard) {kind : Kind}
    {id other : EntityId} {proposed : Option Content} {attribution : Attribution}
    {store after : Store} {outcome : Outcome} {row : EntityRow} (sound : store.SoundRows)
    (applied : env.apply kind id proposed attribution store = .ok (outcome, after))
    (found : store.row? other = some row) :
    ∃ next, after.row? other = some next ∧ next.kind = row.kind := by
  obtain ⟨admits, applies⟩ := apply_applies registered sound applied
  cases applies with
  | unchanged immaterial => exact ⟨row, found, rfl⟩
  | written material next writes =>
      by_cases same : other = id
      · subst same
        exact ⟨_, writes.row?_self, (admits.present row found).1.symm⟩
      · exact ⟨row, by rw [writes.row?_of_ne same, found], rfl⟩

theorem apply_conflicts {env : Env} (registered : env.registry = .standard) {kind : Kind}
    {id : EntityId} {proposed : Option Content} {attribution : Attribution} {store after : Store}
    {outcome : Outcome} (sound : store.SoundRows)
    (applied : env.apply kind id proposed attribution store = .ok (outcome, after)) :
    after.conflicts = store.conflicts := by
  obtain ⟨_, applies⟩ := apply_applies registered sound applied
  cases applies with
  | unchanged immaterial => rfl
  | written material next writes => exact writes.conflicts

/-- A commit draws no identifier. -/
theorem apply_supply {env : Env} (registered : env.registry = .standard) {kind : Kind}
    {id : EntityId} {proposed : Option Content} {attribution : Attribution} {store after : Store}
    {outcome : Outcome} (sound : store.SoundRows)
    (applied : env.apply kind id proposed attribution store = .ok (outcome, after)) :
    after.supply = store.supply := by
  obtain ⟨_, applies⟩ := apply_applies registered sound applied
  cases applies with
  | unchanged immaterial => rfl
  | written material next writes => exact writes.supply

end Env

end Chronicle
