import Chronicle.Content
import Chronicle.Dict.Lemmas
import Mathlib.Data.List.Basic

/-!
# Canonical contents

What a table can hold of a content: null fields and empty lists are left out, and of a
repeated member the first occurrence stays. Values and membership are those of the
content (`value_canonical`, `mem_members_canonical`), and a content that a descriptor
accepts is still accepted in this form (`check_canonical`).
-/

namespace Chronicle

/-! ## Members without repetition -/

section Distinct

variable {α : Type} [DecidableEq α]

@[simp] theorem mem_distinct {list : List α} {member : α} : member ∈ distinct list ↔ member ∈ list := by
  induction list with
  | nil => rfl
  | cons first rest ih =>
      simp only [distinct, List.mem_cons, List.mem_filter, ih, decide_eq_true_eq]
      by_cases same : member = first <;> simp [same]

theorem distinct_nodup (list : List α) : (distinct list).Nodup := by
  induction list with
  | nil => exact List.nodup_nil
  | cons first rest ih =>
      refine List.nodup_cons.mpr ⟨fun found => ?_, ih.filter _⟩
      have kept := (List.mem_filter.mp found).2
      simp at kept

theorem distinct_eq_self {list : List α} (nodup : list.Nodup) : distinct list = list := by
  induction list with
  | nil => rfl
  | cons first rest ih =>
      obtain ⟨absent, restNodup⟩ := List.nodup_cons.mp nodup
      rw [distinct, ih restNodup]
      refine congrArg (first :: ·) (List.filter_eq_self.mpr fun member found => ?_)
      exact decide_eq_true fun same => absent (same ▸ found)

theorem distinct_eq_nil_iff {list : List α} : distinct list = [] ↔ list = [] := by
  cases list <;> simp [distinct]

/-- What is kept of a list stays in the sequence of first occurrences in that list. -/
theorem distinct_filter_sequence (test : α → Bool) (list : List α) :
    (distinct (list.filter test)).Pairwise fun first second =>
      list.idxOf first < list.idxOf second := by
  induction list with
  | nil => exact List.Pairwise.nil
  | cons head rest ih =>
      -- Without the head itself, a position in the whole list is one more than in the rest.
      have shifted {members : List α} (apart : ∀ member ∈ members, member ≠ head)
          (sequence : members.Pairwise fun first second => rest.idxOf first < rest.idxOf second) :
          members.Pairwise fun first second =>
            (head :: rest).idxOf first < (head :: rest).idxOf second := by
        refine sequence.imp_of_mem fun inFirst inSecond before => ?_
        rw [List.idxOf_cons_ne _ (apart _ inFirst).symm,
          List.idxOf_cons_ne _ (apart _ inSecond).symm]
        exact Nat.succ_lt_succ before
      cases passes : test head with
      | false =>
          rw [List.filter_cons_of_neg (by simp [passes])]
          refine shifted (fun member found same => ?_) ih
          have kept := (List.mem_filter.mp (mem_distinct.mp found)).2
          rw [same, passes] at kept
          cases kept
      | true =>
          rw [List.filter_cons_of_pos passes, distinct]
          have apart (member : α)
              (found : member ∈ (distinct (rest.filter test)).filter fun other => other ≠ head) :
              member ≠ head := of_decide_eq_true (List.mem_filter.mp found).2
          refine List.pairwise_cons.mpr ⟨fun member found => ?_, shifted apart (ih.filter _)⟩
          rw [List.idxOf_cons_self, List.idxOf_cons_ne _ (apart member found).symm]
          exact Nat.succ_pos _

end Distinct

namespace Content

/-- A content as it is stored. -/
def canonical (content : Content) : Content where
  fields := content.fields.filter fun _ value => !value.isNull
  relations := (content.relations.filter fun _ members => !members.isEmpty).map fun _ => distinct

/-! ## Values and members -/

theorem members_eq_of_get? {content : Content} {relation : String} {list : List EntityId}
    (found : content.relations.get? relation = some list) : content.members relation = list := by
  rw [members, found, Option.getD_some]

theorem value_setMembers (content : Content) (relation : String) (list : List EntityId)
    (name : String) : (content.setMembers relation list).value name = content.value name := rfl

theorem members_setMembers_self (content : Content) (relation : String) (list : List EntityId) :
    (content.setMembers relation list).members relation = list := by
  rw [members, setMembers, Dict.get?_insert_self, Option.getD_some]

theorem members_setMembers_of_ne (content : Content) {relation other : String}
    (different : other ≠ relation) (list : List EntityId) :
    (content.setMembers relation list).members other = content.members other := by
  rw [members, setMembers, Dict.get?_insert_of_ne _ different, members]

theorem get?_canonical_fields (content : Content) (name : String) :
    content.canonical.fields.get? name =
      if (content.value name).isNull then none else some (content.value name) := by
  rw [canonical, Dict.get?_filter, value]
  cases content.fields.get? name with
  | none => rfl
  | some value => cases value <;> rfl

theorem get?_canonical_relations (content : Content) (relation : String) :
    content.canonical.relations.get? relation =
      if content.members relation = [] then none
      else some (distinct (content.members relation)) := by
  rw [canonical, Dict.get?_map, Dict.get?_filter, members]
  cases content.relations.get? relation with
  | none => rfl
  | some list => cases list <;> rfl

@[simp] theorem value_canonical (content : Content) (name : String) :
    content.canonical.value name = content.value name := by
  rw [value, get?_canonical_fields]
  cases content.value name <;> rfl

@[simp] theorem members_canonical (content : Content) (relation : String) :
    content.canonical.members relation = distinct (content.members relation) := by
  rw [members, get?_canonical_relations]
  split
  · rename_i none
    rw [none]
    rfl
  · rfl

theorem mem_members_canonical {content : Content} {relation : String} {member : EntityId} :
    member ∈ content.canonical.members relation ↔ member ∈ content.members relation := by
  rw [members_canonical, mem_distinct]

/-! ## Contents in this form -/

/-- Contents that differ in no value and no list are the same once they are canonical. -/
theorem canonical_congr {first second : Content}
    (values : ∀ name, first.value name = second.value name)
    (lists : ∀ relation, distinct (first.members relation) = distinct (second.members relation)) :
    first.canonical = second.canonical := by
  have fields : first.canonical.fields = second.canonical.fields :=
    Dict.ext_get? fun name => by rw [get?_canonical_fields, get?_canonical_fields, values]
  have relations : first.canonical.relations = second.canonical.relations := by
    refine Dict.ext_get? fun relation => ?_
    have empty : first.members relation = [] ↔ second.members relation = [] := by
      rw [← distinct_eq_nil_iff, lists, distinct_eq_nil_iff]
    rw [get?_canonical_relations, get?_canonical_relations, lists]
    by_cases none : first.members relation = []
    · rw [if_pos none, if_pos (empty.mp none)]
    · rw [if_neg none, if_neg fun other => none (empty.mpr other)]
  rw [show first.canonical = ⟨first.canonical.fields, first.canonical.relations⟩ from rfl, fields,
    relations]

@[simp] theorem canonical_canonical (content : Content) :
    content.canonical.canonical = content.canonical :=
  canonical_congr (value_canonical content) fun relation => by
    rw [members_canonical, distinct_eq_self (distinct_nodup _)]

/-- A content is canonical if it has no null field and no list that is empty or repeats
a member. -/
def IsCanonical (content : Content) : Prop := content.canonical = content

theorem isCanonical_canonical (content : Content) : content.canonical.IsCanonical :=
  canonical_canonical content

namespace IsCanonical

variable {content : Content}

theorem members_nodup (canonical : content.IsCanonical) (relation : String) :
    (content.members relation).Nodup := by
  rw [← canonical, members_canonical]
  exact distinct_nodup _

theorem get?_relations (canonical : content.IsCanonical) (relation : String) :
    content.relations.get? relation =
      if content.members relation = [] then none else some (content.members relation) := by
  have stored := get?_canonical_relations content relation
  rw [distinct_eq_self (canonical.members_nodup relation)] at stored
  rw [← stored, canonical]

end IsCanonical

end Content

/-! ## Acceptable contents -/

namespace Descriptor

theorem name_of_field? {descriptor : Descriptor} {name : String} {spec : FieldSpec}
    (known : descriptor.field? name = some spec) : spec.name = name := by
  have named := List.find?_some known
  exact of_decide_eq_true named

theorem name_of_relation? {descriptor : Descriptor} {relation : String} {spec : RelationSpec}
    (known : descriptor.relation? relation = some spec) : spec.name = relation := by
  have named := List.find?_some known
  exact of_decide_eq_true named

/-- A content is accepted if its fields are declared with their types, required fields have
values, and its relations are declared. -/
theorem check_eq_ok_iff {descriptor : Descriptor} {content : Content} :
    descriptor.check content = .ok () ↔
      (∀ name value, content.fields.get? name = some value →
        descriptor.fieldFault? name value = none) ∧
      (∀ spec ∈ descriptor.fields, descriptor.missingFault? content spec = none) ∧
      ∀ relation list, content.relations.get? relation = some list →
        descriptor.relationFault? relation = none := by
  have empty : descriptor.check content = .ok () ↔ descriptor.faults content = [] := by
    unfold check
    split
    · rename_i none
      simp [none]
    · rename_i fault rest some
      simp [some]
  rw [empty, faults]
  simp only [List.append_eq_nil_iff, List.filterMap_eq_nil_iff, and_assoc]
  refine and_congr ?_ (and_congr Iff.rfl ?_)
  · exact ⟨fun none name value found => none (name, value) (content.fields.get?_eq_some_iff.mp found),
      fun none entry found => none entry.1 entry.2 (content.fields.get?_eq_some_iff.mpr found)⟩
  · exact ⟨fun none relation list found =>
        none relation (content.relations.mem_keys_iff.mpr ⟨list, found⟩),
      fun none relation found => by
        obtain ⟨list, found⟩ := content.relations.mem_keys_iff.mp found
        exact none relation list found⟩

/-- Nothing is wrong with a field that is declared, and whose value is null or of its type. -/
theorem fieldFault?_eq_none_iff {descriptor : Descriptor} {name : String} {value : FieldValue} :
    descriptor.fieldFault? name value = none ↔
      ∃ spec, descriptor.field? name = some spec ∧
        (value = .null ∨ value.type? = some spec.type) := by
  unfold fieldFault?
  cases descriptor.field? name with
  | none => simp
  | some spec =>
      have untyped : value.type? = none ↔ value = .null := by cases value <;> simp [FieldValue.type?]
      cases typed : value.type? with
      | none => simp [untyped.mp typed]
      | some actual =>
          have notNull : value ≠ .null := fun null => by
            rw [untyped.mpr null] at typed
            cases typed
          simp [notNull]

theorem missingFault?_eq_none_iff {descriptor : Descriptor} {content : Content} {spec : FieldSpec} :
    descriptor.missingFault? content spec = none ↔
      (spec.required = true → (content.value spec.name).isNull = false) := by
  rw [missingFault?]
  cases spec.required <;> cases (content.value spec.name).isNull <;> simp

theorem relationFault?_eq_none_iff {descriptor : Descriptor} {relation : String} :
    descriptor.relationFault? relation = none ↔ (descriptor.relation? relation).isSome = true := by
  unfold relationFault?
  cases descriptor.relation? relation <;> simp

/-- A field of an accepted content is declared, and its value is null or of its type. -/
theorem field?_of_check {descriptor : Descriptor} {content : Content}
    (accepted : descriptor.check content = .ok ()) {name : String} {value : FieldValue}
    (found : content.fields.get? name = some value) :
    ∃ spec, descriptor.field? name = some spec ∧ (value = .null ∨ value.type? = some spec.type) :=
  fieldFault?_eq_none_iff.mp ((check_eq_ok_iff.mp accepted).1 name value found)

theorem relation?_of_check {descriptor : Descriptor} {content : Content}
    (accepted : descriptor.check content = .ok ()) {relation : String} {list : List EntityId}
    (found : content.relations.get? relation = some list) :
    ∃ spec, descriptor.relation? relation = some spec :=
  Option.isSome_iff_exists.mp
    (relationFault?_eq_none_iff.mp ((check_eq_ok_iff.mp accepted).2.2 relation list found))

/-- What is accepted is still accepted with fewer fields and relations, as long as no value
is lost. -/
theorem check_of_fewer {descriptor : Descriptor} {content fewer : Content}
    (accepted : descriptor.check content = .ok ())
    (fields : ∀ name value, fewer.fields.get? name = some value →
      content.fields.get? name = some value)
    (values : ∀ name, fewer.value name = content.value name)
    (relations : ∀ relation list, fewer.relations.get? relation = some list →
      ∃ list, content.relations.get? relation = some list) :
    descriptor.check fewer = .ok () := by
  obtain ⟨fieldsFit, noneMissing, declared⟩ := check_eq_ok_iff.mp accepted
  refine check_eq_ok_iff.mpr ⟨fun name value found => fieldsFit name value (fields name value found),
    fun spec found => ?_, fun relation list found => ?_⟩
  · have present := noneMissing spec found
    rw [missingFault?] at present ⊢
    rw [values]
    exact present
  · obtain ⟨_, found⟩ := relations relation list found
    exact declared relation _ found

/-- The canonical form of an accepted content is accepted. -/
theorem check_canonical {descriptor : Descriptor} {content : Content}
    (accepted : descriptor.check content = .ok ()) : descriptor.check content.canonical = .ok () := by
  refine check_of_fewer accepted (fun name value found => ?_) (Content.value_canonical content)
    fun relation list found => ?_
  · rw [Content.canonical, Dict.get?_filter, Option.filter_eq_some_iff] at found
    exact found.1
  · rw [Content.canonical, Dict.get?_map, Option.map_eq_some_iff] at found
    obtain ⟨old, found, _⟩ := found
    rw [Dict.get?_filter, Option.filter_eq_some_iff] at found
    exact ⟨old, found.1⟩

/-- Members under a declared relation leave a content acceptable. -/
theorem check_setMembers {descriptor : Descriptor} {content : Content}
    (accepted : descriptor.check content = .ok ()) {relation : String}
    (declared : (descriptor.relation? relation).isSome = true) (list : List EntityId) :
    descriptor.check (content.setMembers relation list) = .ok () := by
  obtain ⟨fields, values, relations⟩ := check_eq_ok_iff.mp accepted
  refine check_eq_ok_iff.mpr ⟨fields, values, fun other members found => ?_⟩
  by_cases same : other = relation
  · rw [same]
    exact relationFault?_eq_none_iff.mpr declared
  · rw [Content.setMembers, Dict.get?_insert_of_ne _ same] at found
    exact relations other members found

/-- So does the lack of a list. -/
theorem check_erase {descriptor : Descriptor} {content : Content}
    (accepted : descriptor.check content = .ok ()) (relation : String) :
    descriptor.check { content with relations := content.relations.erase relation } = .ok () := by
  refine check_of_fewer accepted (fun _ _ kept => kept) (fun _ => rfl) fun other list kept => ?_
  by_cases same : other = relation
  · rw [same, Dict.get?_erase_self] at kept
    cases kept
  · rw [Dict.get?_erase_of_ne _ same] at kept
    exact ⟨list, kept⟩

/-- An accepted content has members only under declared relations. -/
theorem declared_of_mem {descriptor : Descriptor} {content : Content}
    (accepted : descriptor.check content = .ok ()) {relation : String} {member : EntityId}
    (listed : member ∈ content.members relation) : (descriptor.relation? relation).isSome = true := by
  cases found : content.relations.get? relation with
  | none =>
      rw [Content.members, found, Option.getD_none] at listed
      cases listed
  | some list => exact Option.isSome_iff_exists.mpr (relation?_of_check accepted found)

end Descriptor

end Chronicle
