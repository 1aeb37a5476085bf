import Chronicle.Commit
import Chronicle.Proofs.Standard
import Mathlib.Data.List.Pairwise

/-!
# Members that come and leave

A change of a record tells of the members that are listed on one side only. For the relations that
have a log these are the events that a commit writes down (`Descriptor.mem_linkEvents_iff`), and
under the standard registry, where each such relation has a table of its own, there is at most one
for a table and a member (`Descriptor.linkEvents_once`).
-/

namespace Chronicle

open Descriptor (standard)

/-! ## Tables of links -/

/-- Where the links of a relation are written down, if they have a history. -/
def Descriptor.log? (descriptor : Descriptor) (relation : String) : Option LinkLog :=
  (descriptor.relation? relation).bind RelationSpec.log

theorem Descriptor.standard_linkTable {kind : Kind} {relation : String} {log : LinkLog}
    (logged : (standard kind).log? relation = some log) :
    Registry.standard.linkTable log = .own log.table := by
  obtain ⟨spec, known, given⟩ := Option.bind_eq_some_iff.mp logged
  have own : ∀ spec ∈ (standard kind).relations, ∀ log ∈ spec.log,
      Registry.standard.linkTable log = .own log.table := by
    cases kind <;> decide
  exact own spec (List.mem_of_find?_eq_some known) log given

/-- Different relations of a kind have different tables. -/
theorem Descriptor.standard_tables (kind : Kind) :
    (standard kind).relations.Pairwise fun first second =>
      ∀ log ∈ first.log, ∀ other ∈ second.log, log.table ≠ other.table := by
  cases kind <;> decide

/-- The table of a log tells which relation it belongs to. -/
theorem Descriptor.standard_log_injective {kind : Kind} {first second : String}
    {log other : LinkLog} (logged : (standard kind).log? first = some log)
    (otherLogged : (standard kind).log? second = some other) (same : log.table = other.table) :
    first = second ∧ log = other := by
  obtain ⟨spec, known, given⟩ := Option.bind_eq_some_iff.mp logged
  obtain ⟨otherSpec, otherKnown, otherGiven⟩ := Option.bind_eq_some_iff.mp otherLogged
  have named := name_of_relation? known
  have otherNamed := name_of_relation? otherKnown
  have one : spec = otherSpec := by
    by_contra different
    have : Std.Symm fun first second : RelationSpec =>
        ∀ log ∈ first.log, ∀ other ∈ second.log, log.table ≠ other.table :=
      ⟨fun _ _ apart log given other otherGiven => (apart other otherGiven log given).symm⟩
    exact (standard_tables kind).forall (List.mem_of_find?_eq_some known)
      (List.mem_of_find?_eq_some otherKnown) different log given other otherGiven same
  subst one
  exact ⟨named.symm.trans otherNamed, Option.some.inj (given.symm.trans otherGiven)⟩

/-! ## Events of a change -/

/-- The events of one relation. -/
def Change.eventsOf (change : Change) (spec : RelationSpec) : List LinkEvent :=
  match change.relation? spec.name, spec.log with
  | some diff, some log =>
      diff.added.map (fun member => ⟨spec.name, log, member, true⟩) ++
        diff.removed.map (fun member => ⟨spec.name, log, member, false⟩)
  | _, _ => []

theorem Descriptor.linkEvents_eq (descriptor : Descriptor) (change : Change) :
    descriptor.linkEvents change = descriptor.relations.flatMap change.eventsOf := rfl

theorem Change.mem_eventsOf_iff {change : Change} {spec : RelationSpec} {event : LinkEvent} :
    event ∈ change.eventsOf spec ↔ spec.log = some event.log ∧ event.relation = spec.name ∧
      ∃ diff, change.relation? spec.name = some diff ∧
        event.member ∈ if event.linked then diff.added else diff.removed := by
  unfold eventsOf
  split
  · rename_i diff log given logged
    rw [List.mem_append, List.mem_map, List.mem_map, given, logged]
    constructor
    · rintro (⟨member, there, rfl⟩ | ⟨member, there, rfl⟩)
      · exact ⟨rfl, rfl, diff, rfl, there⟩
      · exact ⟨rfl, rfl, diff, rfl, there⟩
    · obtain ⟨relation, otherLog, member, linked⟩ := event
      rintro ⟨sameLog, rfl, _, sameDiff, there⟩
      cases sameLog
      cases sameDiff
      cases linked with
      | true => exact Or.inl ⟨member, there, rfl⟩
      | false => exact Or.inr ⟨member, there, rfl⟩
  · rename_i incomplete
    constructor
    · intro impossible
      cases impossible
    · rintro ⟨logged, _, diff, given, _⟩
      exact absurd logged (incomplete diff event.log given)

/-- A difference with a member is not empty. -/
theorem MemberDiff.isEmpty_eq_false {diff : MemberDiff} {member : EntityId} {linked : Bool}
    (there : member ∈ if linked then diff.added else diff.removed) : diff.isEmpty = false := by
  refine Bool.eq_false_iff.mpr fun empty => ?_
  simp only [isEmpty, Bool.and_eq_true, List.isEmpty_iff] at empty
  rw [empty.1.1, empty.1.2, ite_self] at there
  cases there

namespace Descriptor

section Compare

variable {descriptor : Descriptor} {before after : Option Content}

theorem relations_compare (something : before = none → after ≠ none) :
    (descriptor.compare before after).relations =
      descriptor.memberDiffs (before.getD .empty) (after.getD .empty) := by
  cases before with
  | some _ => rfl
  | none =>
      cases after with
      | none => exact absurd rfl (something rfl)
      | some _ => rfl

/-- The difference under a relation of two contents, of which the first may be missing if the
record is new, and the second if it is deleted. -/
def diffOf (before after : Option Content) (spec : RelationSpec) : MemberDiff :=
  .between spec.name spec.ordered ((before.getD .empty).members spec.name)
    ((after.getD .empty).members spec.name)

/-- A change tells of the differences that are not empty. -/
theorem relation?_compare_eq_some_iff
    (distinctNames : (descriptor.relations.map RelationSpec.name).Nodup)
    (something : before = none → after ≠ none) {spec : RelationSpec}
    (declared : spec ∈ descriptor.relations) {diff : MemberDiff} :
    (descriptor.compare before after).relation? spec.name = some diff ↔
      diff = diffOf before after spec ∧ diff.isEmpty = false := by
  have listed {diff : MemberDiff} :
      diff ∈ (descriptor.compare before after).relations ↔
        ∃ spec ∈ descriptor.relations, diff = diffOf before after spec ∧ diff.isEmpty = false := by
    rw [relations_compare something, memberDiffs, List.mem_filter, List.mem_map,
      Bool.not_eq_true']
    constructor
    · rintro ⟨⟨spec, found, rfl⟩, filled⟩
      exact ⟨spec, found, rfl, filled⟩
    · rintro ⟨spec, found, rfl, filled⟩
      exact ⟨⟨spec, found, rfl⟩, filled⟩
  -- relations with different names have differences with different names
  have named {diff : MemberDiff}
      (found : (descriptor.compare before after).relation? spec.name = some diff) :
      diff = diffOf before after spec ∧ diff.isEmpty = false := by
    obtain ⟨other, otherDeclared, rfl, filled⟩ := listed.mp (List.mem_of_find?_eq_some found)
    have test := List.find?_some found
    have same : other.name = spec.name := of_decide_eq_true test
    have own := relation?_eq_of_mem distinctNames declared
    rw [← same, relation?_eq_of_mem distinctNames otherDeclared] at own
    cases own
    exact ⟨rfl, filled⟩
  constructor
  · exact named
  · rintro ⟨rfl, filled⟩
    cases found : (descriptor.compare before after).relation? spec.name with
    | none =>
        have other := List.find?_eq_none.mp found _ (listed.mpr ⟨spec, declared, rfl, filled⟩)
        exact absurd (decide_eq_true rfl) other
    | some other => rw [(named found).1]

theorem mem_diffOf_added_iff {spec : RelationSpec} {member : EntityId} :
    member ∈ (diffOf before after spec).added ↔
      member ∈ (after.getD .empty).members spec.name ∧
        member ∉ (before.getD .empty).members spec.name := by
  rw [diffOf, MemberDiff.between, mem_distinct, List.mem_filter, decide_eq_true_eq]

theorem mem_diffOf_removed_iff {spec : RelationSpec} {member : EntityId} :
    member ∈ (diffOf before after spec).removed ↔
      member ∈ (before.getD .empty).members spec.name ∧
        member ∉ (after.getD .empty).members spec.name := by
  rw [diffOf, MemberDiff.between, mem_distinct, List.mem_filter, decide_eq_true_eq]

/-- The events of a relation are about the members that are listed on one side only. -/
theorem mem_eventsOf_compare_iff
    (distinctNames : (descriptor.relations.map RelationSpec.name).Nodup)
    (something : before = none → after ≠ none) {spec : RelationSpec}
    (declared : spec ∈ descriptor.relations) {event : LinkEvent} :
    event ∈ (descriptor.compare before after).eventsOf spec ↔
      spec.log = some event.log ∧ event.relation = spec.name ∧
      (event.member ∈ (after.getD .empty).members spec.name ↔ event.linked = true) ∧
      (event.member ∈ (before.getD .empty).members spec.name ↔ event.linked = false) := by
  rw [Change.mem_eventsOf_iff]
  refine and_congr_right fun _ => and_congr_right fun _ => ?_
  simp only [relation?_compare_eq_some_iff distinctNames something declared]
  constructor
  · rintro ⟨_, ⟨rfl, _⟩, there⟩
    cases linked : event.linked with
    | true =>
        rw [linked, if_pos rfl, mem_diffOf_added_iff] at there
        simp [there]
    | false =>
        rw [linked, if_neg Bool.false_ne_true, mem_diffOf_removed_iff] at there
        simp [there]
  · rintro ⟨inAfter, inBefore⟩
    have there : event.member ∈ if event.linked then (diffOf before after spec).added
        else (diffOf before after spec).removed := by
      cases linked : event.linked with
      | true =>
          rw [linked] at inAfter inBefore
          exact mem_diffOf_added_iff.mpr ⟨inAfter.mpr rfl, by simp [inBefore]⟩
      | false =>
          rw [linked] at inAfter inBefore
          exact mem_diffOf_removed_iff.mpr ⟨inBefore.mpr rfl, by simp [inAfter]⟩
    exact ⟨_, ⟨rfl, MemberDiff.isEmpty_eq_false there⟩, there⟩

/-- The events of a change, over all relations that have a log. -/
theorem mem_linkEvents_iff
    (distinctNames : (descriptor.relations.map RelationSpec.name).Nodup)
    (something : before = none → after ≠ none) {event : LinkEvent} :
    event ∈ descriptor.linkEvents (descriptor.compare before after) ↔
      descriptor.log? event.relation = some event.log ∧
      (event.member ∈ (after.getD .empty).members event.relation ↔ event.linked = true) ∧
      (event.member ∈ (before.getD .empty).members event.relation ↔ event.linked = false) := by
  rw [linkEvents_eq, List.mem_flatMap]
  constructor
  · rintro ⟨spec, declared, found⟩
    obtain ⟨logged, named, sides⟩ :=
      (mem_eventsOf_compare_iff distinctNames something declared).mp found
    rw [named, log?, relation?_eq_of_mem distinctNames declared]
    exact ⟨logged, sides⟩
  · rintro ⟨logged, sides⟩
    obtain ⟨spec, known, hasLog⟩ := Option.bind_eq_some_iff.mp logged
    have declared := List.mem_of_find?_eq_some known
    have test := List.find?_some known
    have named : spec.name = event.relation := of_decide_eq_true test
    rw [← named] at sides
    exact ⟨spec, declared, (mem_eventsOf_compare_iff distinctNames something declared).mpr
      ⟨hasLog, named.symm, sides⟩⟩

/-- A difference under a name is that of the two lists under it, whichever declaration it is of. -/
theorem relation?_compare_between {relation : String} {diff : MemberDiff}
    (given : (descriptor.compare before after).relation? relation = some diff) :
    ∃ ordered, diff = .between relation ordered ((before.getD .empty).members relation)
      ((after.getD .empty).members relation) := by
  have listed := List.mem_of_find?_eq_some given
  have something : before = none → after ≠ none := by
    rintro rfl rfl
    cases given
  rw [relations_compare something, memberDiffs, List.mem_filter, List.mem_map] at listed
  obtain ⟨⟨spec, _, rfl⟩, _⟩ := listed
  have test := List.find?_some given
  have named : spec.name = relation := of_decide_eq_true test
  exact ⟨spec.ordered, by rw [named]⟩

theorem eventsOf_compare_nodup {spec : RelationSpec} :
    ((descriptor.compare before after).eventsOf spec).Pairwise fun first second =>
      first.member ≠ second.member := by
  unfold Change.eventsOf
  split
  · rename_i diff log given logged
    obtain ⟨ordered, rfl⟩ := relation?_compare_between given
    refine List.pairwise_append.mpr ⟨?_, ?_, ?_⟩
    · exact List.pairwise_map.mpr (distinct_nodup _)
    · exact List.pairwise_map.mpr (distinct_nodup _)
    · intro first came second left same
      obtain ⟨member, there, rfl⟩ := List.mem_map.mp came
      obtain ⟨other, otherThere, rfl⟩ := List.mem_map.mp left
      change member = other at same
      subst same
      have isNew := (List.mem_filter.mp (mem_distinct.mp there)).2
      have isOld := (List.mem_filter.mp (mem_distinct.mp otherThere)).1
      exact of_decide_eq_true isNew isOld
  · exact List.Pairwise.nil

end Compare

/-- There is at most one event for a table and a member. -/
theorem linkEvents_once (kind : Kind) (before after : Option Content) :
    ((standard kind).linkEvents ((standard kind).compare before after)).Pairwise
      fun first second => first.log.table = second.log.table → first.member ≠ second.member := by
  rw [linkEvents_eq, List.pairwise_flatMap]
  constructor
  · intro spec declared
    refine eventsOf_compare_nodup.imp ?_
    intro first second different _
    exact different
  · -- different relations have different tables
    refine (standard_tables kind).imp fun {spec other} apart first found second otherFound same => ?_
    have logged := (Change.mem_eventsOf_iff.mp found).1
    have otherLogged := (Change.mem_eventsOf_iff.mp otherFound).1
    exact absurd same (apart _ logged _ otherLogged)

end Descriptor

end Chronicle
