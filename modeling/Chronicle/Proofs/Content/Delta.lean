import Chronicle.Proofs.Content.Agreement
import Chronicle.Proofs.Events

/-!
# Changes as deltas

A change says exactly what is different between two contents. Its fields are those whose values
differ, in ascending order. Under each declared relation it says who came and who left, in the
sequence of first occurrences, and whether the sequence alone is another. A relation without a
difference is left out. The change back is the same with what came and what left exchanged
(`Descriptor.compare_exact`).
-/

namespace Chronicle

/-! ## Member lists -/

namespace MemberDiff

/-- The difference the other way: who came has left, and who left has come. -/
def reversed (diff : MemberDiff) : MemberDiff :=
  { diff with added := diff.removed, removed := diff.added }

/-- The difference says exactly how one list became another. -/
structure Exact (diff : MemberDiff) (ordered : Bool) (before after : List EntityId) : Prop where
  /-- Who came is listed after the change and was not before it. -/
  added : ∀ member, member ∈ diff.added ↔ member ∈ after ∧ member ∉ before
  addedOnce : diff.added.Nodup
  addedSequence : diff.added.Pairwise fun first second => after.idxOf first < after.idxOf second
  /-- Who left was listed before the change and is not after it. -/
  removed : ∀ member, member ∈ diff.removed ↔ member ∈ before ∧ member ∉ after
  removedOnce : diff.removed.Nodup
  removedSequence : diff.removed.Pairwise fun first second =>
    before.idxOf first < before.idxOf second
  /-- Those who were listed and did not leave, and those who came, are who is listed now. -/
  rebuilds : ∀ member, (member ∈ before ∧ member ∉ diff.removed) ∨ member ∈ diff.added ↔
    member ∈ after
  /-- Only the sequence is another, and it counts. -/
  reordered : diff.reordered = true ↔
    ordered = true ∧ (∀ member, member ∈ before ↔ member ∈ after) ∧ before ≠ after

theorem sameMembers_iff {first second : List EntityId} :
    sameMembers first second = true ↔ ∀ member, member ∈ first ↔ member ∈ second := by
  simp only [sameMembers, Bool.and_eq_true, List.all_eq_true, decide_eq_true_eq]
  exact ⟨fun both member => ⟨both.1 member, both.2 member⟩,
    fun same => ⟨fun member => (same member).mp, fun member => (same member).mpr⟩⟩

theorem between_exact (relation : String) (ordered : Bool) (before after : List EntityId) :
    (between relation ordered before after).Exact ordered before after := by
  have kept (first second : List EntityId) (member : EntityId) :
      member ∈ distinct (first.filter fun id => id ∉ second) ↔
        member ∈ first ∧ member ∉ second := by
    rw [mem_distinct, List.mem_filter, decide_eq_true_eq]
  exact
    { added := kept after before
      addedOnce := distinct_nodup _
      addedSequence := distinct_filter_sequence _ after
      removed := kept before after
      removedOnce := distinct_nodup _
      removedSequence := distinct_filter_sequence _ before
      rebuilds := fun member => by
        simp only [between, kept]
        by_cases listed : member ∈ before <;> simp [listed]
      reordered := by
        simp only [between, Bool.and_eq_true, sameMembers_iff, decide_eq_true_eq, and_assoc] }

theorem between_reversed (relation : String) (ordered : Bool) (before after : List EntityId) :
    between relation ordered after before = (between relation ordered before after).reversed := by
  have members : sameMembers after before = sameMembers before after := Bool.and_comm _ _
  have lists : decide (after ≠ before) = decide (before ≠ after) :=
    decide_eq_decide.mpr ne_comm
  rw [between, members, lists]
  rfl

theorem isEmpty_reversed (diff : MemberDiff) : diff.reversed.isEmpty = diff.isEmpty := by
  rw [isEmpty, isEmpty, reversed, Bool.and_comm diff.removed.isEmpty]

end MemberDiff

/-! ## Fields -/

namespace Content

theorem changedFields_sorted (before after : Content) :
    (before.changedFields after).Pairwise fun first second => Key.before first second = true :=
  (ascending_sorted _).filter _

theorem changedFields_comm (before after : Content) :
    after.changedFields before = before.changedFields after := by
  have names : ascending (after.fields.keys ++ before.fields.keys) =
      ascending (before.fields.keys ++ after.fields.keys) :=
    ascending_eq_iff.mpr fun name => by rw [List.mem_append, List.mem_append, or_comm]
  rw [changedFields, changedFields, names]
  exact List.filter_congr fun name _ => decide_eq_decide.mpr ne_comm

end Content

/-! ## Changes -/

/-- The change the other way between two contents that both exist. -/
def Change.reversed (change : Change) : Change :=
  { change with relations := change.relations.map MemberDiff.reversed }

namespace Descriptor

/-- The change says exactly how one content became another. A record that does not exist counts as
one without fields and members. -/
structure Exact (descriptor : Descriptor) (before after : Option Content) (change : Change) :
    Prop where
  /-- The fields are those whose values do not agree; absent counts as null. -/
  fields : ∀ name, name ∈ change.fields ↔
    ¬ ((before.getD .empty).value name).Agrees ((after.getD .empty).value name)
  ascending : change.fields.Pairwise fun first second => Key.before first second = true
  /-- A difference under a declared relation is that of its two lists. -/
  listed : ∀ spec ∈ descriptor.relations, ∀ diff, change.relation? spec.name = some diff →
    diff.Exact spec.ordered ((before.getD .empty).members spec.name)
      ((after.getD .empty).members spec.name)
  /-- A declared relation is left out exactly if nothing about it counts as different. -/
  omitted : ∀ spec ∈ descriptor.relations, change.relation? spec.name = none ↔
    (∀ member, member ∈ (before.getD .empty).members spec.name ↔
      member ∈ (after.getD .empty).members spec.name) ∧
    (spec.ordered = true →
      (before.getD .empty).members spec.name = (after.getD .empty).members spec.name)
  /-- There is at most one difference under each declared relation, as these are declared, and none
  under another. -/
  declared : (change.relations.map MemberDiff.relation).Sublist
    (descriptor.relations.map RelationSpec.name)

theorem fields_compare {descriptor : Descriptor} {before after : Option Content}
    (something : before = none → after ≠ none) :
    (descriptor.compare before after).fields =
      (before.getD .empty).changedFields (after.getD .empty) := by
  cases before with
  | some _ => cases after <;> rfl
  | none =>
      cases after with
      | none => exact absurd rfl (something rfl)
      | some _ => rfl

/-- Each relation is declared at its place, and has one difference at most. -/
theorem memberDiffs_sublist (descriptor : Descriptor) (before after : Content) :
    ((descriptor.memberDiffs before after).map MemberDiff.relation).Sublist
      (descriptor.relations.map RelationSpec.name) := by
  have kept := (List.filter_sublist (l := descriptor.relations.map fun spec =>
    MemberDiff.between spec.name spec.ordered (before.members spec.name)
      (after.members spec.name)) (p := fun diff => !diff.isEmpty)).map MemberDiff.relation
  rwa [List.map_map] at kept

theorem memberDiffs_reversed (descriptor : Descriptor) (before after : Content) :
    descriptor.memberDiffs after before =
      (descriptor.memberDiffs before after).map MemberDiff.reversed := by
  have lists : (descriptor.relations.map fun spec => MemberDiff.between spec.name spec.ordered
        (after.members spec.name) (before.members spec.name)) =
      (descriptor.relations.map fun spec => MemberDiff.between spec.name spec.ordered
        (before.members spec.name) (after.members spec.name)).map MemberDiff.reversed := by
    rw [List.map_map]
    exact List.map_congr_left fun spec _ => MemberDiff.between_reversed ..
  have tests : (fun diff : MemberDiff => !diff.isEmpty) ∘ MemberDiff.reversed =
      fun diff => !diff.isEmpty :=
    funext fun diff => congrArg not diff.isEmpty_reversed
  rw [memberDiffs, lists, List.filter_map, tests, memberDiffs]

theorem exact_compare {descriptor : Descriptor}
    (distinctNames : (descriptor.relations.map RelationSpec.name).Nodup)
    {before after : Option Content} (something : before = none → after ≠ none) :
    descriptor.Exact before after (descriptor.compare before after) where
  fields name := by
    rw [fields_compare something, mem_changedFields_iff, FieldValue.agrees_iff]
  ascending := by
    rw [fields_compare something]
    exact Content.changedFields_sorted _ _
  listed spec found diff listed := by
    rw [((relation?_compare_eq_some_iff distinctNames something found).mp listed).1]
    exact MemberDiff.between_exact ..
  omitted spec found := by
    rw [Option.eq_none_iff_forall_ne_some, ← @between_isEmpty_iff spec.name]
    simp only [ne_eq, relation?_compare_eq_some_iff distinctNames something found, diffOf]
    simp
  declared := by
    rw [relations_compare something]
    exact memberDiffs_sublist ..

/-- Where there is nothing before and nothing after, nothing is different. -/
theorem exact_nothing (descriptor : Descriptor) : descriptor.Exact none none .nothing where
  fields name := by
    rw [FieldValue.agrees_iff]
    exact ⟨nofun, fun differ => absurd rfl differ⟩
  ascending := .nil
  listed _ _ _ listed := nomatch listed
  omitted _ _ := ⟨fun _ => ⟨fun _ => Iff.rfl, fun _ => rfl⟩, fun _ => rfl⟩
  declared := List.nil_sublist _

theorem compare_reversed (descriptor : Descriptor) (before after : Content) :
    descriptor.compare (some after) (some before) =
      (descriptor.compare (some before) (some after)).reversed := by
  simp only [compare, Option.getD_some, Content.changedFields_comm before after,
    memberDiffs_reversed descriptor before after, ne_eq, List.map_eq_nil_iff, Change.reversed]

/-- A change says exactly what is different, and between two contents that both exist the change
back says the same the other way. -/
theorem compare_exact {descriptor : Descriptor}
    (distinctNames : (descriptor.relations.map RelationSpec.name).Nodup) :
    (∀ before after : Option Content,
      descriptor.Exact before after (descriptor.compare before after)) ∧
    ∀ before after : Content, descriptor.compare (some after) (some before) =
      (descriptor.compare (some before) (some after)).reversed := by
  refine ⟨fun before after => ?_, compare_reversed descriptor⟩
  by_cases nothing : before = none ∧ after = none
  · obtain ⟨rfl, rfl⟩ := nothing
    exact exact_nothing descriptor
  · exact exact_compare distinctNames fun absent missing => nothing ⟨absent, missing⟩

end Descriptor

/-- The series `Content.light` with its parts in another sequence, one of them repeated, and with
two other attributes in place of one. -/
def Content.shuffled : Content :=
  (light.setMembers "parts" [⟨⟨5⟩⟩, ⟨⟨7⟩⟩, ⟨⟨5⟩⟩]).setMembers "attributes"
    [⟨⟨4⟩⟩, ⟨⟨2⟩⟩, ⟨⟨1⟩⟩, ⟨⟨4⟩⟩]

theorem Descriptor.compare_exact_series :
    ((∀ before after : Option Content,
        series.Exact before after (series.compare before after)) ∧
      ∀ before after : Content, series.compare (some after) (some before) =
        (series.compare (some before) (some after)).reversed) ∧
    series.compare (some .light) (some .shuffled) =
      ⟨.relationChange, [], [⟨"parts", [], [], true⟩,
        ⟨"attributes", [⟨⟨4⟩⟩, ⟨⟨1⟩⟩], [⟨⟨3⟩⟩], false⟩]⟩ :=
  ⟨compare_exact (by decide), by decide +kernel⟩

end Chronicle
