import Chronicle.Proofs.Commit
import Chronicle.Proofs.Content.Agreement

/-!
# Committing the same content again

What is stored of a content leaves out its nulls, its empty lists and its repetitions. None of this
is found to be a change, except for one thing: where the sequence of members counts, a list that
repeats a member is taken for another sequence of the members that are stored (`Descriptor.remainder`).
So a content is committed again without effect unless it has such a list, and else gets one version
after another (`Descriptor.recommitted`).
-/

namespace Chronicle

/-! ## What storing leaves out -/

/-- Compared with what is stored of it, no list has gained or lost a member, but its sequence has
changed if it repeats one. -/
theorem MemberDiff.between_distinct (relation : String) (ordered : Bool) (list : List EntityId) :
    between relation ordered (distinct list) list =
      ⟨relation, [], [], ordered && !decide list.Nodup⟩ := by
  have came : list.filter (fun id => id ∉ distinct list) = [] := by simp
  have left : (distinct list).filter (fun id => id ∉ list) = [] := by simp
  have same : sameMembers (distinct list) list = true := by simp [sameMembers]
  have repeats : decide (distinct list ≠ list) = !decide list.Nodup := by
    rw [← decide_not, decide_eq_decide]
    exact not_congr ⟨fun once => once ▸ distinct_nodup list, distinct_eq_self⟩
  rw [between, came, left, same, repeats, Bool.and_true]
  rfl

namespace Descriptor

/-- The relations whose sequence counts and under which a content repeats a member. -/
def repeating (descriptor : Descriptor) (content : Content) : List RelationSpec :=
  descriptor.relations.filter fun spec => spec.ordered && !decide (content.members spec.name).Nodup

/-- The change that is found from what is stored of a content to the content itself. -/
def remainder (descriptor : Descriptor) (content : Content) : Change where
  kind := if descriptor.repeating content = [] then .noChange else .relationChange
  fields := []
  relations := (descriptor.repeating content).map fun spec => ⟨spec.name, [], [], true⟩

variable {descriptor : Descriptor} {content : Content}

theorem repeating_eq_nil_iff : descriptor.repeating content = [] ↔
    ∀ spec ∈ descriptor.relations, spec.ordered = true → (content.members spec.name).Nodup := by
  simp [repeating, List.filter_eq_nil_iff]

theorem remainder_of_none (none : descriptor.repeating content = []) :
    descriptor.remainder content = .nothing := by
  rw [remainder, none]
  rfl

theorem remainder_kind_of_some (some : descriptor.repeating content ≠ []) :
    (descriptor.remainder content).kind = .relationChange := if_neg some

theorem memberDiffs_canonical (descriptor : Descriptor) (content : Content) :
    descriptor.memberDiffs content.canonical content = (descriptor.remainder content).relations := by
  have diffs (spec : RelationSpec) : MemberDiff.between spec.name spec.ordered
      (content.canonical.members spec.name) (content.members spec.name) =
        ⟨spec.name, [], [], spec.ordered && !decide (content.members spec.name).Nodup⟩ := by
    rw [Content.members_canonical, MemberDiff.between_distinct]
  have counts (spec : RelationSpec) :
      (!(MemberDiff.isEmpty ⟨spec.name, [], [],
        spec.ordered && !decide (content.members spec.name).Nodup⟩)) =
      (spec.ordered && !decide (content.members spec.name).Nodup) := by
    simp [MemberDiff.isEmpty]
  simp only [memberDiffs, remainder, repeating, diffs, List.filter_map, Function.comp_def, counts]
  refine List.map_congr_left fun spec listed => ?_
  rw [(List.mem_filter.mp listed).2]

/-- Between what is stored of a content and the content itself there are only lists that repeat a
member where the sequence counts. -/
theorem compare_canonical (descriptor : Descriptor) (content : Content) :
    descriptor.compare (some content.canonical) (some content) = descriptor.remainder content := by
  have fields : content.canonical.changedFields content = [] :=
    changedFields_eq_nil_iff.mpr fun name => Content.value_canonical content name
  have none : (descriptor.remainder content).relations = [] ↔
      descriptor.repeating content = [] := List.map_eq_nil_iff
  calc descriptor.compare (some content.canonical) (some content)
      = ⟨if content.canonical.changedFields content ≠ [] then .fieldChange
          else if descriptor.memberDiffs content.canonical content ≠ [] then .relationChange
          else .noChange,
        content.canonical.changedFields content,
        descriptor.memberDiffs content.canonical content⟩ := rfl
    _ = descriptor.remainder content := by
      rw [fields, memberDiffs_canonical]
      simp only [ne_eq, not_true, if_false, none, ite_not]
      rfl

/-- A change without effect lists nothing. -/
theorem compare_eq_nothing {before : Option Content}
    (immaterial : (descriptor.compare before (some content)).isMaterial = false) :
    descriptor.compare before (some content) = .nothing := by
  cases before with
  | none => cases immaterial
  | some before =>
      obtain ⟨fields, lists⟩ := isMaterial_compare_eq_false_iff.mp immaterial
      simp [compare, Change.nothing, fields, lists]

/-- No link comes or goes with it. -/
theorem linkEvents_remainder (descriptor : Descriptor) (content : Content) :
    descriptor.linkEvents (descriptor.remainder content) = [] := by
  refine List.flatMap_eq_nil_iff.mpr fun spec _ => ?_
  split
  · rename_i diff log given _
    obtain ⟨_, _, rfl⟩ := List.mem_map.mp (List.mem_of_find?_eq_some given)
    rfl
  · rfl

end Descriptor

/-! ## What is stored -/

namespace Store

variable {store after : Store} {descriptor : Descriptor} {id : EntityId} {content : Content}

theorem previous_congr (same : after.entities = store.entities) :
    after.previous descriptor id = store.previous descriptor id := by
  simp only [previous, load, row?, same]

theorem previous_setRow {row : EntityRow} (same : row.kind = descriptor.kind)
    (live : row.deleted = false) {old : Content}
    (written : row.content = old.replacedBy descriptor content)
    (declared : descriptor.Declares content) :
    (store.setRow id row).previous descriptor id = .ok (some content.canonical, row.version) := by
  have found := row?_setRow_self store id row
  rw [previous_of_row? found same live, load_of_replacedBy found written declared]

/-- A version that is written is read as the canonical form of its content, whatever the record
held before. -/
theorem previous_of_writeRow {before : Option Content × Nat} {version : Nat} {now : Int64}
    (given : store.previous descriptor id = .ok before) (declared : descriptor.Declares content)
    (written : store.writeRow descriptor id version content
      (descriptor.compare before.1 (some content)).kind now = .ok after) :
    after.previous descriptor id = .ok (some content.canonical, version) := by
  simp only [writeRow, bind_eq_ok] at written
  obtain ⟨opened, opens, filled, fills, versioned⟩ := written
  have exists_row : ∃ row, opened.row? id = some row ∧ row.kind = descriptor.kind ∧
      row.deleted = false := by
    obtain ⟨missing, rfl⟩ | ⟨row, found, same, live, rfl⟩ := previous_cases given
    · change store.insertEntity id descriptor.kind now = .ok opened at opens
      rw [insertEntity, missing] at opens
      cases opens
      exact ⟨_, row?_setRow_self .., rfl, rfl⟩
    · obtain ⟨notCreated, notDeleted⟩ :=
        Env.compare_some_kind descriptor (store.load descriptor id) content
      unfold openRow at opens
      split at opens
      · rename_i created
        exact absurd created notCreated
      · rename_i deleted
        exact absurd deleted notDeleted
      · cases opens
        exact ⟨row, found, same, live⟩
  obtain ⟨row, found, same, live⟩ := exists_row
  rw [replaceContent_eq found] at fills
  cases fills
  obtain ⟨_, rfl⟩ := (setVersion_eq_ok (row?_setRow_self ..)).mp versioned
  rw [setRow_setRow]
  exact previous_setRow same live rfl declared

end Store

/-! ## Commits -/

namespace Env

variable {env : Env} {descriptor : Descriptor} {id : EntityId} {content : Content}
  {attribution : Attribution} {store after : Store} {outcome : Outcome}
  {before : Option Content × Nat}

/-- What has been written is what the next commit finds. -/
theorem previous_of_writeVersion {version : Nat}
    (given : store.previous descriptor id = .ok before) (declared : descriptor.Declares content)
    (written : env.writeVersion descriptor id content (descriptor.compare before.1 (some content))
      attribution version store = .ok (outcome, after)) :
    outcome.version = version ∧ outcome.change = descriptor.compare before.1 (some content) ∧
      after.previous descriptor id = .ok (some content.canonical, version) ∧
      descriptor.fixedColumns? = none := by
  simp only [writeVersion, bind_eq_ok, ofStore_eq_ok, Prod.exists, pure_eq_ok, Prod.mk.injEq]
    at written
  obtain ⟨now, _, rowed, rows, logged, snapshots, skipped, last, links, rfl, rfl⟩ := written
  obtain ⟨plain, _, _, rfl⟩ := Store.insertSnapshot_eq_ok_iff.mp snapshots
  have entities : last.entities = rowed.entities := by
    refine inTurn_keeps (motive := fun next => next.entities = rowed.entities) ?_ rfl links
    intro event _ before result next kept written
    rw [writeLink_frame written, ← kept]
  refine ⟨rfl, rfl, ?_, plain⟩
  rw [Store.previous_congr entities]
  exact Store.previous_of_writeRow given declared rows

theorem descriptor_of_registered
    (registered : env.registry.get? descriptor.kind = some descriptor) :
    env.descriptor descriptor.kind = .ok descriptor := by
  rw [Env.descriptor, Registry.get, registered]
  rfl

/-- A commit of an acceptable content is refused for a member, or finds nothing to change, or writes
the next version. -/
theorem apply_of_previous (registered : env.registry.get? descriptor.kind = some descriptor)
    (accepted : descriptor.check content = .ok ())
    (given : store.previous descriptor id = .ok before) :
    env.apply descriptor.kind id (some content) attribution store =
      match store.memberFault? descriptor content with
      | some refusal => .error refusal
      | none =>
          if (descriptor.compare before.1 (some content)).isMaterial = true then
            env.writeNext descriptor id content (descriptor.compare before.1 (some content))
              attribution before.2 store (env.retries + 1) (before.2 + 1)
          else
            .ok (⟨id, descriptor.kind, before.2, descriptor.compare before.1 (some content), []⟩,
              store) := by
  rw [apply, descriptor_of_registered registered]
  change (store.checkProposed descriptor (some content) >>= _) = _
  rw [Store.checkProposed, accepted]
  cases store.memberFault? descriptor content with
  | some refusal => rfl
  | none =>
      change (store.previous descriptor id >>= _) = _
      rw [given]
      change (if (before.1.isNone && false) = true then _ else _) = _
      rw [Bool.and_false]
      rfl

theorem exists_previous (registered : env.registry.get? descriptor.kind = some descriptor)
    {proposed : Option Content}
    (applied : env.apply descriptor.kind id proposed attribution store = .ok (outcome, after)) :
    ∃ before, store.previous descriptor id = .ok before := by
  simp only [apply, descriptor_of_registered registered, bind_eq_ok, Except.ok.injEq,
    exists_eq_left'] at applied
  obtain ⟨_, _, before, given, _⟩ := applied
  exact ⟨before, given⟩

/-- What a commit leaves for the next one: what has been written, or what has been there if that
differs in nothing. -/
theorem previous_of_apply (registered : env.registry.get? descriptor.kind = some descriptor)
    (accepted : descriptor.check content = .ok ())
    (applied : env.apply descriptor.kind id (some content) attribution store = .ok (outcome, after)) :
    ∃ last, after.previous descriptor id = .ok (last, outcome.version) ∧
      (outcome.change.isMaterial = false → descriptor.compare last (some content) = .nothing) ∧
      (outcome.change.isMaterial = true →
        last = some content.canonical ∧ descriptor.fixedColumns? = none) := by
  obtain ⟨before, given⟩ := exists_previous registered applied
  rw [apply_of_previous registered accepted given] at applied
  split at applied
  · cases applied
  · split at applied
    · rename_i material
      obtain ⟨version, _, written⟩ := writeNext_eq_ok applied
      obtain ⟨rfl, change, stored, plain⟩ :=
        previous_of_writeVersion given (Descriptor.declares_of_check accepted) written
      refine ⟨some content.canonical, stored, fun immaterial => ?_, fun _ => ⟨rfl, plain⟩⟩
      rw [change, material] at immaterial
      cases immaterial
    · rename_i immaterial
      cases applied
      exact ⟨before.1, given, Descriptor.compare_eq_nothing,
        fun material => absurd material immaterial⟩

/-- A version that only changes the sequence of members is written if its number is free. -/
theorem exists_writeVersion {row : EntityRow} {change : Change} {version : Nat}
    (content : Content) (attribution : Attribution) (found : store.row? id = some row)
    (started : ¬ env.now < 0) (reordered : change.kind = .relationChange)
    (quiet : descriptor.linkEvents change = []) (plain : descriptor.fixedColumns? = none)
    (positive : 0 < version) (bounded : version < versionLimit)
    (free : store.snapshots.get? (descriptor.historyTable, id, version) = none) :
    ∃ after, env.writeVersion descriptor id content change attribution version store =
      .ok (⟨id, descriptor.kind, version, change, []⟩, after) := by
  obtain ⟨rowed, rows, kept⟩ : ∃ rowed, store.writeRow descriptor id version content change.kind
      env.now = .ok rowed ∧ rowed.snapshots = store.snapshots := by
    have opens : store.openRow descriptor id change.kind env.now = .ok store := by
      rw [reordered]
      rfl
    have fills : store.replaceContent descriptor id content = .ok _ :=
      Store.replaceContent_eq found content
    have versioned : (store.setRow id { row with
        content := row.content.replacedBy descriptor content }).setVersion id version env.now = .ok _ :=
      (Store.setVersion_eq_ok (Store.row?_setRow_self ..)).mpr ⟨⟨positive, bounded⟩, rfl⟩
    exact ⟨_, bind_eq_ok.mpr ⟨store, opens, bind_eq_ok.mpr ⟨_, fills, versioned⟩⟩, rfl⟩
  have free : rowed.snapshots.get? (descriptor.historyTable, id, version) = none := by
    rw [kept]
    exact free
  obtain ⟨logged, snapshots⟩ : ∃ logged, rowed.insertSnapshot descriptor
      ⟨id, descriptor.kind, version, env.now, attribution.actor, attribution.origin, change.kind,
        content.fields, rowed.memberRefs descriptor content⟩ = .ok logged :=
    ⟨_, Store.insertSnapshot_eq_ok_iff.mpr ⟨plain, ⟨positive, bounded⟩, free, rfl⟩⟩
  refine ⟨logged, ?_⟩
  simp only [writeVersion, bind_eq_ok, ofStore_eq_ok, Prod.exists, pure_eq_ok, clock_eq_ok, quiet]
  exact ⟨env.now, ⟨rfl, started⟩, rowed, rows, logged, snapshots, [], logged, rfl, rfl⟩

end Env

/-! ## Committing again -/

/-- What comes of committing a content again, by whomever and whenever, after a commit of it with an
outcome has led to a store. -/
structure Recommits (env : Env) (descriptor : Descriptor) (id : EntityId) (content : Content)
    (attribution : Attribution) (outcome : Outcome) (store : Store) : Prop where
  /-- A member may have become a record of another kind, which may be the record itself. -/
  refused : ∀ refusal, store.memberFault? descriptor content = some refusal →
    env.commit descriptor.kind id (some content) attribution store = (.error refusal, store)
  unchanged : outcome.change.isMaterial = false ∨ descriptor.repeating content = [] →
    store.memberFault? descriptor content = none →
    env.commit descriptor.kind id (some content) attribution store =
      (.ok ⟨id, descriptor.kind, outcome.version, .nothing, []⟩, store)
  /-- Where a list repeats a member and the sequence counts, what has just been written is found to
  be a change, and is written once more. -/
  changed : outcome.change.isMaterial = true → descriptor.repeating content ≠ [] →
    ∀ next after,
      env.commit descriptor.kind id (some content) attribution store = (.ok next, after) →
      next.change = descriptor.remainder content ∧ outcome.version < next.version
  /-- The next version is written if its number can be stored and is free. -/
  written : outcome.change.isMaterial = true → descriptor.repeating content ≠ [] →
    store.memberFault? descriptor content = none → ¬ env.now < 0 →
    outcome.version + 1 < versionLimit →
    store.snapshots.get? (descriptor.historyTable, id, outcome.version + 1) = none →
    ∃ after, env.commit descriptor.kind id (some content) attribution store =
      (.ok ⟨id, descriptor.kind, outcome.version + 1, descriptor.remainder content, []⟩, after)

namespace Env

variable {env later : Env} {descriptor : Descriptor} {id : EntityId} {content : Content}
  {attribution : Attribution} {store between : Store} {outcome : Outcome}

theorem recommits (registered : env.registry.get? descriptor.kind = some descriptor)
    (alike : later.registry = env.registry) (accepted : descriptor.check content = .ok ())
    (committed : env.commit descriptor.kind id (some content) attribution store =
      (.ok outcome, between)) (again : Attribution) :
    Recommits later descriptor id content again outcome between := by
  obtain ⟨last, given, immaterial, material⟩ :=
    previous_of_apply registered accepted (transact_eq_ok.mp committed)
  have laterRegistered : later.registry.get? descriptor.kind = some descriptor := by
    rw [alike]
    exact registered
  have answer : later.apply descriptor.kind id (some content) again between = _ :=
    apply_of_previous laterRegistered accepted given
  have compared (wrote : outcome.change.isMaterial = true) :
      descriptor.compare last (some content) = descriptor.remainder content := by
    rw [(material wrote).1, Descriptor.compare_canonical]
  have remains (repeats : descriptor.repeating content ≠ []) :
      (descriptor.remainder content).isMaterial = true := by
    rw [Change.isMaterial, Descriptor.remainder_kind_of_some repeats]
    rfl
  constructor
  · intro refusal fault
    rw [fault] at answer
    exact transact_of_error answer
  · intro same fits
    have nothing : descriptor.compare last (some content) = .nothing := by
      cases wrote : outcome.change.isMaterial with
      | false => exact immaterial wrote
      | true =>
          have none := same.resolve_left fun immaterial => by cases wrote.symm.trans immaterial
          rw [compared wrote, Descriptor.remainder_of_none none]
    rw [fits, nothing] at answer
    exact transact_eq_ok.mpr answer
  · intro wrote repeats next after carried
    rw [commit, transact_eq_ok, answer] at carried
    split at carried
    · cases carried
    · rw [if_pos (by rw [compared wrote, remains repeats])] at carried
      obtain ⟨version, chosen, written⟩ := writeNext_eq_ok carried
      obtain ⟨rfl, change, _⟩ :=
        previous_of_writeVersion given (Descriptor.declares_of_check accepted) written
      refine ⟨change.trans (compared wrote), ?_⟩
      rcases chosen with same | same <;> omega
  · intro wrote repeats fits started bounded free
    obtain ⟨rfl, plain⟩ := material wrote
    obtain ⟨_, impossible⟩ | ⟨row, found, _⟩ := Store.previous_cases given
    · cases impossible
    · obtain ⟨after, written⟩ := exists_writeVersion content again found started
        (Descriptor.remainder_kind_of_some repeats)
        (Descriptor.linkEvents_remainder descriptor content) plain
        (Nat.succ_pos outcome.version) bounded free
      refine ⟨after, transact_eq_ok.mpr ?_⟩
      rw [answer, fits, compared wrote]
      dsimp only
      rw [if_pos (remains repeats), writeNext, written]

end Env

/-- What has been stored of a content that is accepted is found to be a change exactly if the content
repeats a member under a relation whose sequence counts. Without such a relation it is committed
again without effect; with one it gets a further version each time. -/
theorem Descriptor.recommitted {descriptor : Descriptor} {content : Content}
    (accepted : descriptor.check content = .ok ()) :
    ((descriptor.remainder content).kind = .noChange ↔
      ∀ spec ∈ descriptor.relations, spec.ordered = true → (content.members spec.name).Nodup) ∧
    (∀ (store : Store) (id : EntityId), (store.row? id).isSome = true →
      ∃ after, store.replaceContent descriptor id content = .ok after ∧
        descriptor.compare (some (after.load descriptor id)) (some content) =
          descriptor.remainder content) ∧
    ∀ (env later : Env) (id : EntityId) (attribution again : Attribution) (store between : Store)
      (outcome : Outcome), env.registry.get? descriptor.kind = some descriptor →
      later.registry = env.registry →
      env.commit descriptor.kind id (some content) attribution store = (.ok outcome, between) →
      Recommits later descriptor id content again outcome between := by
  refine ⟨?_, fun store id present => ?_,
    fun env later id attribution again store between outcome registered alike committed =>
      Env.recommits registered alike accepted committed again⟩
  · rw [← repeating_eq_nil_iff, remainder]
    split
    · rename_i none
      exact iff_of_true rfl none
    · rename_i some
      exact iff_of_false nofun some
  · obtain ⟨row, found⟩ := Option.isSome_iff_exists.mp present
    refine ⟨_, Store.replaceContent_eq found content, ?_⟩
    rw [Store.load_of_replacedBy (Store.row?_setRow_self ..) rfl (declares_of_check accepted),
      compare_canonical]

/-- The kinds that a series refers to, and the series. -/
def Registry.withSeries : Registry :=
  ⟨Dict.ofList [(.attr, Descriptor.attr), (.newsItem, Descriptor.newsItem), (.story, Descriptor.series)]⟩

/-- The series `Content.light` with one of its parts repeated. -/
def Content.looped : Content := light.setMembers "parts" [⟨⟨5⟩⟩, ⟨⟨7⟩⟩, ⟨⟨5⟩⟩]

/-- A series is committed to an empty store. -/
def Env.firstCommit (content : Content) : Except Refusal Outcome × Store :=
  commit ⟨.withSeries, 3, 0⟩ .story ⟨⟨9⟩⟩ (some content) ⟨"editor", .direct⟩ .empty

/-- A null and a repeated attribute are no change when a series is committed again, but a repeated
part is, since the parts of a series have a sequence. -/
theorem Descriptor.recommitted_series :
    (do
      let registry ← Registry.empty.register attr
      let registry ← registry.register newsItem
      registry.register series) = .ok .withSeries ∧
    series.check .light = .ok () ∧ series.check .looped = .ok () ∧
    (∃ outcome between, Env.firstCommit .light = (.ok outcome, between) ∧
      Env.commit ⟨.withSeries, 3, 5⟩ .story ⟨⟨9⟩⟩ (some .light) ⟨"reader", .direct⟩ between =
        (.ok ⟨⟨⟨9⟩⟩, .story, 1, .nothing, []⟩, between)) ∧
    ∃ outcome between after, Env.firstCommit .looped = (.ok outcome, between) ∧
      Env.commit ⟨.withSeries, 3, 5⟩ .story ⟨⟨9⟩⟩ (some .looped) ⟨"reader", .direct⟩ between =
        (.ok ⟨⟨⟨9⟩⟩, .story, 2, ⟨.relationChange, [], [⟨"parts", [], [], true⟩]⟩, []⟩, after) := by
  have lightAccepted : series.check .light = .ok () := by decide +kernel
  have loopedAccepted : series.check .looped = .ok () := by decide +kernel
  refine ⟨rfl, lightAccepted, loopedAccepted, ?_, ?_⟩
  · have first : (Env.firstCommit .light).1.toOption =
        some ⟨⟨⟨9⟩⟩, .story, 1, series.compare none (some .light), []⟩ := by decide +kernel
    have fits : (Env.firstCommit .light).2.memberFault? series .light = none := by decide +kernel
    obtain ⟨between, committed⟩ := exists_eq_ok_of_toOption first
    rw [committed] at fits
    have again := (recommitted lightAccepted).2.2 ⟨.withSeries, 3, 0⟩ ⟨.withSeries, 3, 5⟩ ⟨⟨9⟩⟩
      ⟨"editor", .direct⟩ ⟨"reader", .direct⟩ .empty between _ rfl rfl committed
    exact ⟨_, between, committed, again.unchanged (Or.inr (by decide +kernel)) fits⟩
  · have first : (Env.firstCommit .looped).1.toOption =
        some ⟨⟨⟨9⟩⟩, .story, 1, series.compare none (some .looped), []⟩ := by decide +kernel
    have fits : (Env.firstCommit .looped).2.memberFault? series .looped = none := by decide +kernel
    have free : (Env.firstCommit .looped).2.snapshots.get? (series.historyTable, ⟨⟨9⟩⟩, 2) =
        none := by decide +kernel
    obtain ⟨between, committed⟩ := exists_eq_ok_of_toOption first
    rw [committed] at fits free
    have again := (recommitted loopedAccepted).2.2 ⟨.withSeries, 3, 0⟩ ⟨.withSeries, 3, 5⟩ ⟨⟨9⟩⟩
      ⟨"editor", .direct⟩ ⟨"reader", .direct⟩ .empty between _ rfl rfl committed
    obtain ⟨after, rewritten⟩ :=
      again.written rfl (by decide +kernel) fits (by decide) (by decide) free
    exact ⟨_, between, after, committed, rewritten⟩

/-- Registered descriptors with different relation names, a sequence among them, do not always find
what has been stored unchanged. -/
theorem Descriptor.not_unchanged_once_stored :
    ¬ ∀ (registry registered : Registry) (descriptor : Descriptor) (content : Content)
      (store stored : Store) (id : EntityId), registry.register descriptor = .ok registered →
      (descriptor.relations.map RelationSpec.name).Nodup → descriptor.check content = .ok () →
      (store.row? id).isSome = true → store.replaceContent descriptor id content = .ok stored →
      (descriptor.compare (some (stored.load descriptor id)) (some content)).kind = .noChange := by
  intro unchanged
  have same := unchanged ⟨Dict.ofList [(.attr, attr), (.newsItem, newsItem)]⟩ .withSeries series .looped
    (Store.empty.setRow ⟨⟨9⟩⟩ ⟨.story, 1, 0, 0, false, .empty⟩) _ ⟨⟨9⟩⟩ rfl (by decide)
    (by decide +kernel) rfl (Store.replaceContent_eq rfl .looped)
  exact absurd same (by decide +kernel)

end Chronicle
