import Chronicle.Content.Change
import Chronicle.Proofs.Content.Canonical

/-!
# Differences that count

Two contents count as the same if all their values agree and all their lists agree as the
descriptor counts them. That is what equal normal forms say (`normal_eq_iff`), and for
contents with declared relations it is what a change without effect says
(`compare_immaterial_iff`).
-/

namespace Chronicle

namespace Descriptor

/-- Two contents with the same values, and the same lists as the descriptor counts them. -/
structure Alike (descriptor : Descriptor) (first second : Content) : Prop where
  values : ∀ name, first.value name = second.value name
  lists : ∀ relation, descriptor.normalMembers relation (first.members relation) =
    descriptor.normalMembers relation (second.members relation)

/-! ## Normal forms -/

theorem get?_normal_fields (descriptor : Descriptor) (content : Content) (name : String) :
    (descriptor.normal content).fields.get? name =
      if (content.value name).isNull then none else some (content.value name) :=
  Content.get?_canonical_fields content name

theorem get?_normal_relations (descriptor : Descriptor) (content : Content) (relation : String) :
    (descriptor.normal content).relations.get? relation =
      if content.members relation = [] then none
      else some (descriptor.normalMembers relation (content.members relation)) := by
  rw [normal, Dict.get?_map, Dict.get?_filter, Content.members]
  cases content.relations.get? relation with
  | none => rfl
  | some list => cases list <;> rfl

theorem normalMembers_eq_nil_iff (descriptor : Descriptor) (relation : String)
    (list : List EntityId) : descriptor.normalMembers relation list = [] ↔ list = [] := by
  unfold normalMembers
  split
  · rfl
  · rw [List.eq_nil_iff_forall_not_mem, List.eq_nil_iff_forall_not_mem]
    simp only [mem_ascending]

/-- Contents have the same normal form exactly if they count as the same. -/
theorem normal_eq_iff (descriptor : Descriptor) (first second : Content) :
    descriptor.normal first = descriptor.normal second ↔ descriptor.Alike first second := by
  constructor
  · intro same
    refine ⟨fun name => ?_, fun relation => ?_⟩
    · have field := congrArg (fun content : Content => content.fields.get? name) same
      simp only [get?_normal_fields] at field
      cases firstValue : first.value name <;> cases secondValue : second.value name <;>
        simp_all [FieldValue.isNull]
    · have list := congrArg (fun content : Content => content.relations.get? relation) same
      simp only [get?_normal_relations] at list
      by_cases firstNone : first.members relation = [] <;>
        by_cases secondNone : second.members relation = []
      · rw [firstNone, secondNone]
      · simp [firstNone, secondNone] at list
      · simp [firstNone, secondNone] at list
      · rw [if_neg firstNone, if_neg secondNone] at list
        exact Option.some.inj list
  · intro alike
    have fields : (descriptor.normal first).fields = (descriptor.normal second).fields :=
      Dict.ext_get? fun name => by rw [get?_normal_fields, get?_normal_fields, alike.values]
    have relations : (descriptor.normal first).relations = (descriptor.normal second).relations := by
      refine Dict.ext_get? fun relation => ?_
      have empty : first.members relation = [] ↔ second.members relation = [] := by
        rw [← normalMembers_eq_nil_iff descriptor relation, alike.lists,
          normalMembers_eq_nil_iff]
      rw [get?_normal_relations, get?_normal_relations, alike.lists]
      by_cases none : first.members relation = []
      · rw [if_pos none, if_pos (empty.mp none)]
      · rw [if_neg none, if_neg fun other => none (empty.mpr other)]
    calc descriptor.normal first
        = ⟨(descriptor.normal first).fields, (descriptor.normal first).relations⟩ := rfl
      _ = ⟨(descriptor.normal second).fields, (descriptor.normal second).relations⟩ := by
          rw [fields, relations]
      _ = descriptor.normal second := rfl

/-! ## Changes -/

theorem mem_changedFields_iff {before after : Content} {name : String} :
    name ∈ before.changedFields after ↔ before.value name ≠ after.value name := by
  have absent {content : Content} (missing : name ∉ content.fields.keys) :
      content.value name = .null := by
    rw [Dict.mem_keys_iff] at missing
    rw [Content.value, Option.eq_none_iff_forall_ne_some.mpr fun value found => missing ⟨value, found⟩,
      Option.getD_none]
  simp only [Content.changedFields, List.mem_filter, mem_ascending, List.mem_append,
    decide_eq_true_eq]
  refine ⟨And.right, fun differ => ⟨Decidable.byContradiction fun unnamed => ?_, differ⟩⟩
  obtain ⟨notBefore, notAfter⟩ := not_or.mp unnamed
  exact differ ((absent notBefore).trans (absent notAfter).symm)

theorem changedFields_eq_nil_iff {before after : Content} :
    before.changedFields after = [] ↔ ∀ name, before.value name = after.value name := by
  simp only [List.eq_nil_iff_forall_not_mem, mem_changedFields_iff, ne_eq, Decidable.not_not]

theorem between_isEmpty_iff {relation : String} {ordered : Bool} {before after : List EntityId} :
    (MemberDiff.between relation ordered before after).isEmpty = true ↔
      (∀ member, member ∈ before ↔ member ∈ after) ∧ (ordered = true → before = after) := by
  have missing (first second : List EntityId) :
      distinct (first.filter fun id => id ∉ second) = [] ↔ ∀ id ∈ first, id ∈ second := by
    rw [distinct_eq_nil_iff, List.filter_eq_nil_iff]
    simp
  simp only [MemberDiff.isEmpty, MemberDiff.between, Bool.and_eq_true, List.isEmpty_iff,
    missing, Bool.not_eq_true', Bool.and_eq_false_iff, decide_eq_false_iff_not, Decidable.not_not]
  constructor
  · rintro ⟨⟨noneCame, noneLeft⟩, unordered | same⟩
    · refine ⟨fun member => ⟨noneLeft member, noneCame member⟩, fun counts => ?_⟩
      rcases unordered with notOrdered | differ
      · rw [notOrdered] at counts
        cases counts
      · have agree : sameMembers before after = true := by
          simp only [sameMembers, Bool.and_eq_true, List.all_eq_true, decide_eq_true_eq]
          exact ⟨noneLeft, noneCame⟩
        rw [agree] at differ
        cases differ
    · exact ⟨fun member => ⟨noneLeft member, noneCame member⟩, fun _ => same⟩
  · rintro ⟨agree, inOrder⟩
    refine ⟨⟨fun member => (agree member).mpr, fun member => (agree member).mp⟩, ?_⟩
    cases ordered with
    | false => exact Or.inl (Or.inl rfl)
    | true => exact Or.inr (inOrder rfl)

/-- Lists agree as they count if they have the same members, in the same sequence where the
sequence counts. -/
theorem normalMembers_eq_iff (descriptor : Descriptor) (relation : String)
    (first second : List EntityId) :
    descriptor.normalMembers relation first = descriptor.normalMembers relation second ↔
      (∀ member, member ∈ first ↔ member ∈ second) ∧
        (descriptor.isOrdered relation = true → first = second) := by
  unfold normalMembers
  split
  · rename_i ordered
    exact ⟨fun same => ⟨fun member => by rw [same], fun _ => same⟩, fun both => both.2 ordered⟩
  · rename_i unordered
    rw [ascending_eq_iff]
    exact ⟨fun same => ⟨same, fun ordered => absurd ordered unordered⟩, fun both => both.1⟩

/-- The relations of a content are declared where it has members. -/
def Declares (descriptor : Descriptor) (content : Content) : Prop :=
  ∀ relation member, member ∈ content.members relation →
    (descriptor.relation? relation).isSome = true

theorem isSome_relation?_iff {descriptor : Descriptor} {relation : String} :
    (descriptor.relation? relation).isSome = true ↔
      relation ∈ descriptor.relations.map RelationSpec.name := by
  rw [relation?, List.find?_isSome]
  simp

theorem relation?_eq_of_mem {descriptor : Descriptor}
    (distinctNames : (descriptor.relations.map RelationSpec.name).Nodup) {spec : RelationSpec}
    (found : spec ∈ descriptor.relations) : descriptor.relation? spec.name = some spec := by
  unfold relation?
  generalize descriptor.relations = specs at found distinctNames
  induction specs with
  | nil => cases found
  | cons first rest ih =>
      obtain ⟨absent, restNames⟩ := List.nodup_cons.mp distinctNames
      rw [List.find?_cons]
      rcases List.mem_cons.mp found with rfl | found
      · simp
      · have other : first.name ≠ spec.name := fun same =>
          absent (List.mem_map.mpr ⟨spec, found, same.symm⟩)
        simp only [other, decide_false]
        exact ih found restNames

/-- No list differs exactly if each declared relation has the same members as they count. -/
theorem memberDiffs_eq_nil_iff_declared {descriptor : Descriptor}
    (distinctNames : (descriptor.relations.map RelationSpec.name).Nodup) {before after : Content} :
    descriptor.memberDiffs before after = [] ↔ ∀ spec ∈ descriptor.relations,
      descriptor.normalMembers spec.name (before.members spec.name) =
        descriptor.normalMembers spec.name (after.members spec.name) := by
  rw [memberDiffs, List.filter_eq_nil_iff]
  simp only [List.forall_mem_map, Bool.not_eq_true', Bool.not_eq_false]
  refine forall₂_congr fun spec found => ?_
  have ordered : descriptor.isOrdered spec.name = spec.ordered := by
    rw [isOrdered, relation?_eq_of_mem distinctNames found]
  rw [between_isEmpty_iff, normalMembers_eq_iff, ordered]

theorem memberDiffs_eq_nil_iff {descriptor : Descriptor}
    (distinctNames : (descriptor.relations.map RelationSpec.name).Nodup) {before after : Content}
    (beforeDeclared : descriptor.Declares before) (afterDeclared : descriptor.Declares after) :
    descriptor.memberDiffs before after = [] ↔
      ∀ relation, descriptor.normalMembers relation (before.members relation) =
        descriptor.normalMembers relation (after.members relation) := by
  rw [memberDiffs_eq_nil_iff_declared distinctNames]
  constructor
  · intro same relation
    cases known : descriptor.relation? relation with
    | some spec =>
        have agree := same spec (List.mem_of_find?_eq_some known)
        rwa [name_of_relation? known] at agree
    | none =>
        have nobody {content : Content} (declared : descriptor.Declares content) :
            content.members relation = [] := by
          refine List.eq_nil_iff_forall_not_mem.mpr fun member listed => ?_
          have some := declared relation member listed
          rw [known] at some
          cases some
        rw [nobody beforeDeclared, nobody afterDeclared]
  · intro same spec _
    exact same spec.name

/-- A change between two contents has no effect exactly if it lists nothing. -/
theorem isMaterial_compare_eq_false_iff {descriptor : Descriptor} {before after : Content} :
    (descriptor.compare (some before) (some after)).isMaterial = false ↔
      before.changedFields after = [] ∧ descriptor.memberDiffs before after = [] := by
  simp only [compare, Change.isMaterial, Option.getD_some]
  by_cases fields : before.changedFields after = [] <;>
    by_cases lists : descriptor.memberDiffs before after = [] <;> simp [fields, lists]

/-- A change between two contents has no effect exactly if they count as the same. -/
theorem compare_immaterial_iff {descriptor : Descriptor}
    (distinctNames : (descriptor.relations.map RelationSpec.name).Nodup) {before after : Content}
    (beforeDeclared : descriptor.Declares before) (afterDeclared : descriptor.Declares after) :
    (descriptor.compare (some before) (some after)).isMaterial = false ↔
      descriptor.normal before = descriptor.normal after := by
  rw [normal_eq_iff]
  rw [isMaterial_compare_eq_false_iff, changedFields_eq_nil_iff,
    memberDiffs_eq_nil_iff distinctNames beforeDeclared afterDeclared]
  exact ⟨fun both => ⟨both.1, both.2⟩, fun alike => ⟨alike.values, alike.lists⟩⟩

/-- What kind a change is depends only on the normal forms of both contents. -/
theorem compare_kind_of_normal_eq {descriptor : Descriptor}
    (distinctNames : (descriptor.relations.map RelationSpec.name).Nodup)
    {before after otherBefore otherAfter : Content}
    (sameBefore : descriptor.normal before = descriptor.normal otherBefore)
    (sameAfter : descriptor.normal after = descriptor.normal otherAfter) :
    (descriptor.compare (some before) (some after)).kind =
      (descriptor.compare (some otherBefore) (some otherAfter)).kind := by
  obtain ⟨valuesBefore, listsBefore⟩ := (normal_eq_iff ..).mp sameBefore
  obtain ⟨valuesAfter, listsAfter⟩ := (normal_eq_iff ..).mp sameAfter
  have fields : before.changedFields after = [] ↔ otherBefore.changedFields otherAfter = [] := by
    simp only [changedFields_eq_nil_iff, valuesBefore, valuesAfter]
  have lists : descriptor.memberDiffs before after = [] ↔
      descriptor.memberDiffs otherBefore otherAfter = [] := by
    simp only [memberDiffs_eq_nil_iff_declared distinctNames, listsBefore, listsAfter]
  simp only [compare, Option.getD_some, ne_eq, fields, lists]

/-- A change without effect on the normal form is immaterial. -/
theorem immaterial_of_normal_eq {descriptor : Descriptor}
    (distinctNames : (descriptor.relations.map RelationSpec.name).Nodup) {before after : Content}
    (same : descriptor.normal before = descriptor.normal after) :
    (descriptor.compare (some before) (some after)).isMaterial = false := by
  have fields : before.changedFields before = [] := changedFields_eq_nil_iff.mpr fun _ => rfl
  have lists : descriptor.memberDiffs before before = [] :=
    (memberDiffs_eq_nil_iff_declared distinctNames).mpr fun _ _ => rfl
  rw [Change.isMaterial, ← compare_kind_of_normal_eq distinctNames rfl same]
  simp [compare, fields, lists]

end Descriptor

end Chronicle
