import Chronicle.Proofs.Rows
import Chronicle.Proofs.Tables
import Chronicle.Store.Contents

/-!
# Rows of a content

What adding rows in turn leaves in the tables, and what is read from them. A member keeps the place
where it is listed first (`insertMembers_ok`), so the places put the members in the order of their first
occurrences (`membersOf_eq_distinct`).
-/

namespace Chronicle

/-! ## First places -/

/-- Where a list has a member first. -/
def firstPlace? (list : List EntityId) (member : EntityId) : Option Nat :=
  if member ∈ list then some (list.idxOf member) else none

theorem firstPlace?_cons (head : EntityId) (rest : List EntityId) (member : EntityId) :
    firstPlace? (head :: rest) member =
      if member = head then some 0 else (firstPlace? rest member).map (· + 1) := by
  unfold firstPlace?
  by_cases same : member = head
  · simp [same]
  · by_cases listed : member ∈ rest <;> simp [same, listed, List.idxOf_cons_ne rest (Ne.symm same)]

theorem firstPlace?_eq_some_iff {list : List EntityId} {member : EntityId} {place : Nat} :
    firstPlace? list member = some place ↔ member ∈ list ∧ list.idxOf member = place := by
  simp [firstPlace?]

namespace ContentTables

variable {tables after : ContentTables} {id : EntityId}

/-! ## Reading rows -/

theorem get?_fieldsOf (tables : ContentTables) (id : EntityId) (name : String) :
    (tables.fieldsOf id).get? name = tables.values.get? (id, name) := by
  have once : (((tables.values.filter fun key _ => decide (key.1 = id)).entries.map
      fun row => (row.1.2, row.2)).map Prod.fst).Nodup := by
    rw [List.map_map, List.Nodup, List.pairwise_map]
    refine List.Pairwise.imp_of_mem ?_ (Dict.sorted _)
    intro first second firstListed secondListed before same
    obtain ⟨_, firstOwned⟩ := Dict.mem_entries_filter_iff.mp firstListed
    obtain ⟨_, secondOwned⟩ := Dict.mem_entries_filter_iff.mp secondListed
    refine Key.ne_of_before before (Prod.ext ?_ same)
    rw [of_decide_eq_true firstOwned, of_decide_eq_true secondOwned]
  refine Option.ext fun value => ?_
  rw [fieldsOf, Dict.get?_ofList_of_nodup once]
  constructor
  · intro listed
    obtain ⟨⟨⟨owner, field⟩, stored⟩, inTable, same⟩ := List.mem_map.mp listed
    obtain ⟨found, owned⟩ := Dict.mem_entries_filter_iff.mp inTable
    cases of_decide_eq_true owned
    cases same
    exact found
  · intro found
    exact List.mem_map.mpr ⟨((id, name), value),
      Dict.mem_entries_filter_iff.mpr ⟨found, decide_eq_true rfl⟩, rfl⟩

@[simp] theorem mem_placed_iff {relation : String} {place : Nat} {member : EntityId} :
    (place, member) ∈ tables.placed id relation ↔
      tables.places.get? (id, relation, member) = some place := by
  rw [placed, mem_ascending, List.mem_map]
  constructor
  · rintro ⟨⟨⟨owner, name, other⟩, stored⟩, inTable, same⟩
    obtain ⟨found, owned⟩ := Dict.mem_entries_filter_iff.mp inTable
    obtain ⟨rfl, rfl⟩ := of_decide_eq_true owned
    cases same
    exact found
  · intro found
    exact ⟨((id, relation, member), place),
      Dict.mem_entries_filter_iff.mpr ⟨found, decide_eq_true ⟨rfl, rfl⟩⟩, rfl⟩

theorem mem_membersOf_iff {relation : String} {member : EntityId} :
    member ∈ tables.membersOf id relation ↔
      ∃ place, tables.places.get? (id, relation, member) = some place := by
  simp [membersOf]

/-- A list depends on nothing but its own rows. -/
theorem membersOf_congr {relation : String}
    (same : ∀ member, after.places.get? (id, relation, member) =
      tables.places.get? (id, relation, member)) :
    after.membersOf id relation = tables.membersOf id relation := by
  have placed : after.placed id relation = tables.placed id relation := by
    refine eq_of_sorted (ascending_sorted _) (ascending_sorted _) ?_
    rintro ⟨place, member⟩
    rw [mem_placed_iff, mem_placed_iff, same]
  rw [membersOf, membersOf, placed]

/-- Members that have their first places come in the order of the list, each once. -/
theorem membersOf_eq_distinct {relation : String} {list : List EntityId}
    (placed : ∀ member, tables.places.get? (id, relation, member) = firstPlace? list member) :
    tables.membersOf id relation = distinct list := by
  have sorted : (tables.membersOf id relation).Pairwise fun first second =>
      list.idxOf first < list.idxOf second := by
    rw [membersOf, List.pairwise_map]
    refine List.Pairwise.imp_of_mem ?_ (ascending_sorted _)
    rintro ⟨early, first⟩ ⟨late, second⟩ firstListed secondListed before
    have firstPlaced := (placed first).symm.trans (mem_placed_iff.mp firstListed)
    have secondPlaced := (placed second).symm.trans (mem_placed_iff.mp secondListed)
    obtain ⟨inList, rfl⟩ := firstPlace?_eq_some_iff.mp firstPlaced
    obtain ⟨_, rfl⟩ := firstPlace?_eq_some_iff.mp secondPlaced
    rcases Key.before_mk_iff.mp before with earlier | ⟨same, apart⟩
    · exact of_decide_eq_true earlier
    · exact absurd ((List.idxOf_inj inList).mp same) (Key.ne_of_before apart)
  have sequence := distinct_filter_sequence (fun _ => true) list
  rw [List.filter_true] at sequence
  refine eq_of_ascending (fun _ _ => Nat.lt_asymm) sorted sequence fun member => ?_
  rw [mem_membersOf_iff, mem_distinct, placed]
  simp [firstPlace?]

theorem mem_owners_iff {member owner : EntityId} {relation : String} :
    owner ∈ tables.owners member relation ↔
      ∃ place, tables.places.get? (owner, relation, member) = some place := by
  simp only [owners, List.mem_map, Dict.mem_keys_iff, Dict.get?_filter, Option.filter_eq_some_iff,
    decide_eq_true_eq]
  constructor
  · rintro ⟨⟨_, _, _⟩, ⟨place, found, rfl, rfl⟩, rfl⟩
    exact ⟨place, found⟩
  · rintro ⟨place, found⟩
    exact ⟨_, ⟨place, found, rfl, rfl⟩, rfl⟩

/-- Owners come in ascending order, each once. -/
theorem owners_sorted (tables : ContentTables) (member : EntityId) (relation : String) :
    (tables.owners member relation).Pairwise fun first second => Key.before first second = true := by
  rw [owners, List.pairwise_map]
  refine List.Pairwise.imp_of_mem ?_ (Dict.keys_sorted _)
  rintro ⟨first, name, listed⟩ ⟨second, otherName, other⟩ firstListed secondListed before
  have selected {key : EntityId × String × EntityId}
      (listed : key ∈ (tables.places.filter fun key _ =>
        decide (key.2.1 = relation ∧ key.2.2 = member)).keys) : key.2 = (relation, member) := by
    obtain ⟨place, found⟩ := Dict.mem_keys_iff _ |>.mp listed
    rw [Dict.get?_filter, Option.filter_eq_some_iff] at found
    obtain ⟨sameRelation, sameMember⟩ := of_decide_eq_true found.2
    exact Prod.ext sameRelation sameMember
  rcases Key.before_mk_iff.mp before with earlier | ⟨_, apart⟩
  · exact earlier
  · -- the rows differ in nothing but their owners
    exact absurd ((selected firstListed).trans (selected secondListed).symm) (Key.ne_of_before apart)

theorem get?_addList (lists : Dict String (List EntityId)) (name relation : String)
    (members : List EntityId) : (addList lists name members).get? relation =
      if relation = name ∧ members ≠ [] then some members else lists.get? relation := by
  unfold addList
  by_cases none : members = []
  · simp [none]
  · by_cases here : relation = name <;> simp [none, here, Dict.get?_insert_of_ne]

theorem get?_foldl_addList (tables : ContentTables) (id : EntityId) (specs : List RelationSpec)
    (lists : Dict String (List EntityId)) (relation : String) :
    (specs.foldl (fun lists spec => addList lists spec.name (tables.membersOf id spec.name))
        lists).get? relation =
      if relation ∈ specs.map RelationSpec.name ∧ tables.membersOf id relation ≠ [] then
        some (tables.membersOf id relation)
      else lists.get? relation := by
  induction specs generalizing lists with
  | nil => simp
  | cons first rest ih =>
      rw [List.foldl_cons, ih, get?_addList, List.map_cons]
      by_cases here : relation = first.name
      · subst here
        by_cases members : tables.membersOf id first.name = [] <;> simp [members]
      · simp [here]

/-- Under each declared relation the members that have rows are read. -/
theorem get?_load_relations (tables : ContentTables) (descriptor : Descriptor) (id : EntityId)
    (relation : String) : (tables.load descriptor id).relations.get? relation =
      if (descriptor.relation? relation).isSome = true ∧ tables.membersOf id relation ≠ [] then
        some (tables.membersOf id relation)
      else none := by
  rw [load]
  simp only [get?_foldl_addList, Descriptor.isSome_relation?_iff, Dict.get?_empty]

/-! ## Writing rows -/

/-- The values of a record have been replaced, and nothing else. -/
structure Valued (tables after : ContentTables) (id : EntityId) (fields : Dict String FieldValue) :
    Prop where
  records : after.records = tables.records
  places : after.places = tables.places
  values : ∀ other name, after.values.get? (other, name) =
    if other = id then (fields.get? name).filter fun value => !value.isNull
    else tables.values.get? (other, name)

/-- The members of a record under a relation have been replaced, and nothing else. -/
structure Listed (tables after : ContentTables) (id : EntityId) (relation : String)
    (members : List EntityId) : Prop where
  records : after.records = tables.records
  values : after.values = tables.values
  places : ∀ other name member, after.places.get? (other, name, member) =
    if other = id ∧ name = relation then firstPlace? members member
    else tables.places.get? (other, name, member)

/-- A value is added under a name that has no row, unless it is null. -/
theorem insertValue_ok (known : id ∈ tables.records) {name : String} {added : FieldValue}
    (free : tables.values.get? (id, name) = none) :
    ∃ next, insertValue id tables (name, added) = .ok next ∧
      next.records = tables.records ∧ next.places = tables.places ∧
      ∀ key value, next.values.get? key = some value ↔ tables.values.get? key = some value ∨
        key = (id, name) ∧ value = added ∧ value.isNull = false := by
  by_cases null : added.isNull = true
  · refine ⟨tables, if_pos null, rfl, rfl, fun key value => (or_iff_left ?_).symm⟩
    rintro ⟨_, rfl, notNull⟩
    rw [null] at notNull
    cases notNull
  · refine ⟨{ tables with values := tables.values.insert (id, name) added }, ?_, rfl, rfl,
      fun key value => ?_⟩
    · rw [insertValue, if_neg null, Dict.contains, free, if_neg (by simp), if_pos known]
    · by_cases here : key = (id, name)
      · rw [here, Dict.get?_insert_self, free]
        constructor
        · intro same
          cases same
          exact Or.inr ⟨rfl, rfl, Bool.eq_false_iff.mpr null⟩
        · rintro (impossible | ⟨_, rfl, _⟩)
          · cases impossible
          · rfl
      · rw [Dict.get?_insert_of_ne _ here, or_iff_left fun both => here both.1]

/-- Values with different names are added if none of these has a row. -/
theorem insertValues_ok {entries : List (String × FieldValue)}
    (once : (entries.map Prod.fst).Nodup) (known : id ∈ tables.records)
    (free : ∀ entry ∈ entries, tables.values.get? (id, entry.1) = none) :
    ∃ after, entries.foldlM (insertValue id) tables = .ok after ∧
      after.records = tables.records ∧ after.places = tables.places ∧
      ∀ key value, after.values.get? key = some value ↔ tables.values.get? key = some value ∨
        key.1 = id ∧ (key.2, value) ∈ entries ∧ value.isNull = false := by
  induction entries generalizing tables with
  | nil => exact ⟨tables, rfl, rfl, rfl, by simp⟩
  | cons first rest ih =>
      obtain ⟨fresh, restOnce⟩ := List.nodup_cons.mp once
      obtain ⟨firstFree, restFree⟩ := List.forall_mem_cons.mp free
      obtain ⟨next, added, records, places, values⟩ := insertValue_ok known firstFree
      have nextFree : ∀ entry ∈ rest, next.values.get? (id, entry.1) = none := by
        intro entry listed
        refine Option.eq_none_iff_forall_ne_some.mpr fun value found => ?_
        rcases (values _ _).mp found with before | ⟨same, _⟩
        · rw [restFree entry listed] at before
          cases before
        · exact fresh (List.mem_map.mpr ⟨entry, listed, congrArg Prod.snd same⟩)
      have nextKnown : id ∈ next.records := records ▸ known
      obtain ⟨after, done, restRecords, restPlaces, restValues⟩ := ih restOnce nextKnown nextFree
      refine ⟨after, ?_, restRecords.trans records, restPlaces.trans places, fun key value => ?_⟩
      · rw [List.foldlM_cons, added]
        exact done
      · rw [restValues, values, List.mem_cons, Prod.ext_iff, Prod.ext_iff]
        tauto

/-- To a record that has no row nothing is added but nulls. -/
theorem insertValues_of_missing (missing : id ∉ tables.records)
    (free : ∀ name, tables.values.get? (id, name) = none) (entries : List (String × FieldValue)) :
    entries.foldlM (insertValue id) tables =
      if ∀ entry ∈ entries, entry.2.isNull = true then .ok tables else .error .ownerMissing := by
  induction entries with
  | nil => simp; rfl
  | cons first rest ih =>
      rw [List.foldlM_cons]
      by_cases null : first.2.isNull = true
      · rw [insertValue, if_pos null]
        simp only [List.forall_mem_cons, null, true_and]
        exact ih
      · have refused : insertValue id tables first = .error .ownerMissing := by
          rw [insertValue, if_neg null, Dict.contains, free, if_neg (by simp), if_neg missing]
        rw [refused, if_neg fun all => null (all first List.mem_cons_self)]
        rfl

theorem get?_deleteValues (tables : ContentTables) (id : EntityId) (key : EntityId × String) :
    (tables.deleteValues id).values.get? key =
      if key.1 = id then none else tables.values.get? key := by
  rw [deleteValues, Dict.get?_filter]
  by_cases own : key.1 = id <;> cases tables.values.get? key <;> simp [own]

theorem deleteValues_of_free (free : ∀ name, tables.values.get? (id, name) = none) :
    tables.deleteValues id = tables := by
  have rows : tables.values.filter (fun key _ => decide (key.1 ≠ id)) = tables.values := by
    refine Dict.filter_eq_self fun key value stored => decide_eq_true ?_
    rintro rfl
    rw [free] at stored
    cases stored
  rw [deleteValues, rows]

theorem replaceFields_ok (known : id ∈ tables.records) (fields : Dict String FieldValue) :
    ∃ after, tables.replaceFields id fields = .ok after ∧ tables.Valued after id fields := by
  have once : (fields.entries.map Prod.fst).Nodup :=
    fields.keys_sorted.imp fun before => Key.ne_of_before before
  have deletedKnown : id ∈ (tables.deleteValues id).records := known
  have free : ∀ entry ∈ fields.entries, (tables.deleteValues id).values.get? (id, entry.1) = none :=
    fun entry _ => by rw [get?_deleteValues, if_pos rfl]
  obtain ⟨after, done, records, places, values⟩ := insertValues_ok once deletedKnown free
  refine ⟨after, done, records, places, fun other name => Option.ext fun value => ?_⟩
  rw [values, get?_deleteValues]
  by_cases own : other = id
  · simp [own, Option.filter_eq_some_iff, Dict.get?_eq_some_iff]
  · simp [own]

/-- A member that has no row gets one. -/
theorem insertMember_ok (known : id ∈ tables.records) (relation : String) (member : EntityId)
    (place : Nat) :
    ∃ next, insertMember id relation tables (member, place) = .ok next ∧
      next.records = tables.records ∧ next.values = tables.values ∧
      ∀ key, next.places.get? key =
        (tables.places.get? key).or (if key = (id, relation, member) then some place else none) := by
  unfold insertMember Dict.contains
  cases found : tables.places.get? (id, relation, member) with
  | some old =>
      refine ⟨tables, rfl, rfl, rfl, fun key => ?_⟩
      by_cases here : key = (id, relation, member)
      · rw [here, found]
        rfl
      · rw [if_neg here, Option.or_none]
  | none =>
      refine ⟨_, if_pos known, rfl, rfl, fun key => ?_⟩
      by_cases here : key = (id, relation, member)
      · rw [here, found, Dict.get?_insert_self, if_pos rfl]
        rfl
      · rw [Dict.get?_insert_of_ne _ here, if_neg here, Option.or_none]

/-- A member that has no row gets one with the place where the list has it first. -/
theorem insertMembers_ok (known : id ∈ tables.records) (relation : String)
    (members : List EntityId) (offset : Nat) :
    ∃ after, (members.zipIdx offset).foldlM (insertMember id relation) tables = .ok after ∧
      after.records = tables.records ∧ after.values = tables.values ∧
      ∀ other name member, after.places.get? (other, name, member) =
        (tables.places.get? (other, name, member)).or
          (if other = id ∧ name = relation then (firstPlace? members member).map (· + offset)
          else none) := by
  induction members generalizing tables offset with
  | nil => exact ⟨tables, rfl, rfl, rfl, by simp [firstPlace?]⟩
  | cons first rest ih =>
      obtain ⟨next, added, records, values, places⟩ := insertMember_ok known relation first offset
      have nextKnown : id ∈ next.records := records ▸ known
      obtain ⟨after, done, restRecords, restValues, restPlaces⟩ := ih nextKnown (offset + 1)
      refine ⟨after, ?_, restRecords.trans records, restValues.trans values, fun other name member => ?_⟩
      · rw [List.zipIdx_cons, List.foldlM_cons, added]
        exact done
      · rw [restPlaces, places, Option.or_assoc, firstPlace?_cons]
        by_cases own : other = id ∧ name = relation
        · obtain ⟨rfl, rfl⟩ := own
          by_cases here : member = first
          · simp [here]
          · simp [here, Function.comp_def, Nat.add_assoc, Nat.add_comm 1]
        · have elsewhere : (other, name, member) ≠ (id, relation, first) := fun same => by
            cases same
            exact own ⟨rfl, rfl⟩
          rw [if_neg elsewhere, if_neg own, if_neg own, Option.or_none]

theorem get?_deleteMembers (tables : ContentTables) (id : EntityId) (relation : String)
    (other : EntityId) (name : String) (member : EntityId) :
    (tables.deleteMembers id relation).places.get? (other, name, member) =
      if other = id ∧ name = relation then none else tables.places.get? (other, name, member) := by
  rw [deleteMembers, Dict.get?_filter]
  by_cases own : other = id ∧ name = relation <;>
    cases tables.places.get? (other, name, member) <;> simp [own]

theorem deleteMembers_of_free {relation : String}
    (free : ∀ member, tables.places.get? (id, relation, member) = none) :
    tables.deleteMembers id relation = tables := by
  have rows : tables.places.filter (fun key _ => decide ¬(key.1 = id ∧ key.2.1 = relation)) =
      tables.places := by
    refine Dict.filter_eq_self fun key place stored => decide_eq_true ?_
    rintro ⟨rfl, rfl⟩
    rw [free] at stored
    cases stored
  rw [deleteMembers, rows]

theorem replaceMembers_ok (known : id ∈ tables.records) (relation : String)
    (members : List EntityId) :
    ∃ after, tables.replaceMembers id relation members = .ok after ∧
      tables.Listed after id relation members := by
  have deletedKnown : id ∈ (tables.deleteMembers id relation).records := known
  obtain ⟨after, done, records, values, places⟩ := insertMembers_ok deletedKnown relation members 0
  refine ⟨after, done, records, values, fun other name member => ?_⟩
  rw [places, get?_deleteMembers]
  by_cases own : other = id ∧ name = relation <;> simp [own]

/-- The content of a record has been replaced as far as it is declared, and nothing else. -/
structure Rewritten (tables after : ContentTables) (descriptor : Descriptor) (id : EntityId)
    (content : Content) : Prop where
  records : after.records = tables.records
  values : ∀ other name, after.values.get? (other, name) =
    if other = id then content.canonical.fields.get? name else tables.values.get? (other, name)
  places : ∀ other name member, after.places.get? (other, name, member) =
    if other = id ∧ (descriptor.relation? name).isSome = true then
      firstPlace? (content.members name) member
    else tables.places.get? (other, name, member)

theorem foldlM_replaceMembers_ok (known : id ∈ tables.records) (specs : List RelationSpec)
    (content : Content) :
    ∃ after, specs.foldlM
        (fun tables spec => tables.replaceMembers id spec.name (content.members spec.name)) tables =
          .ok after ∧
      after.records = tables.records ∧ after.values = tables.values ∧
      ∀ other name member, after.places.get? (other, name, member) =
        if other = id ∧ name ∈ specs.map RelationSpec.name then
          firstPlace? (content.members name) member
        else tables.places.get? (other, name, member) := by
  induction specs generalizing tables with
  | nil => exact ⟨tables, rfl, rfl, rfl, by simp⟩
  | cons first rest ih =>
      obtain ⟨next, replaced, listed⟩ :=
        replaceMembers_ok known first.name (content.members first.name)
      have nextKnown : id ∈ next.records := listed.records ▸ known
      obtain ⟨after, done, records, values, places⟩ := ih nextKnown
      refine ⟨after, ?_, records.trans listed.records, values.trans listed.values,
        fun other name member => ?_⟩
      · rw [List.foldlM_cons, replaced]
        exact done
      · rw [places, listed.places, List.map_cons]
        by_cases later : other = id ∧ name ∈ rest.map RelationSpec.name
        · rw [if_pos later, if_pos ⟨later.1, List.mem_cons_of_mem _ later.2⟩]
        · by_cases here : other = id ∧ name = first.name
          · obtain ⟨rfl, rfl⟩ := here
            simp
          · have neither : ¬(other = id ∧ name ∈ first.name :: rest.map RelationSpec.name) := by
              rintro ⟨own, listed⟩
              rcases List.mem_cons.mp listed with same | inRest
              · exact here ⟨own, same⟩
              · exact later ⟨own, inRest⟩
            rw [if_neg later, if_neg here, if_neg neither]

/-- A content is written to every record that is there. -/
theorem replaceContent_ok (known : id ∈ tables.records) (descriptor : Descriptor)
    (content : Content) :
    ∃ after, tables.replaceContent descriptor id content = .ok after ∧
      tables.Rewritten after descriptor id content := by
  obtain ⟨next, valued, fields⟩ := replaceFields_ok known content.fields
  obtain ⟨after, done, records, values, places⟩ :=
    foldlM_replaceMembers_ok (fields.records ▸ known) descriptor.relations content
  refine ⟨after, ?_, records.trans fields.records, fun other name => ?_, fun other name member => ?_⟩
  · rw [replaceContent, valued]
    exact done
  · rw [values, fields.values, Content.canonical, Dict.get?_filter]
  · rw [places, fields.places]
    simp only [Descriptor.isSome_relation?_iff]

end ContentTables

end Chronicle
