import Chronicle.Exchange.Content
import Chronicle.Proofs.Content.Canonical
import Chronicle.Proofs.Steps

/-!
# What is read from a flat object

A descriptor says of each member of a flat object whether it is the value of a field or the list of
a relation. Reading succeeds if every member that is not passed over is one of both, and gives just
these values and lists (`Descriptor.readContent_eq_ok_iff`). So what has been read fits its
descriptor: nothing can be wrong with it but a required field to which the object gives no value
(`Descriptor.read_checks`).
-/

namespace Chronicle

theorem EntityId.ofJson_eq_ok {what : String} {json : Json} {id : EntityId} :
    EntityId.ofJson what json = .ok id ↔ json.text?.bind EntityId.ofText? = some id := by
  unfold EntityId.ofJson
  cases json.text?.bind EntityId.ofText? <;> simp

/-! ## Values -/

namespace FieldValue

/-- What is read as a value of a type is null or of that type. -/
theorem type?_of_ofJson? {type : FieldType} {json : Json} {value : FieldValue}
    (read : ofJson? type json = some value) : value = null ∨ value.type? = some type := by
  unfold ofJson? at read
  split at read
  · exact Or.inl (Option.some.inj read).symm
  · refine Or.inr ?_
    cases type with
    | text | integer | float | boolean | timestamp | reference =>
        obtain ⟨_, _, rfl⟩ := Option.map_eq_some_iff.mp read
        rfl

/-- Null is read from null alone. -/
theorem isNull_of_ofJson? {type : FieldType} {json : Json} {value : FieldValue}
    (read : ofJson? type json = some value) : value.isNull = json.isNull := by
  unfold ofJson? at read
  split at read
  · rename_i isNull
    rw [isNull, ← Option.some.inj read]
    rfl
  · rename_i notNull
    rw [Bool.eq_false_iff.mpr notNull]
    cases type with
    | text | integer | float | boolean | timestamp | reference =>
        obtain ⟨_, _, rfl⟩ := Option.map_eq_some_iff.mp read
        rfl

end FieldValue

namespace Descriptor

variable {descriptor : Descriptor} {skipped : List String}

/-! ## Members of an object -/

/-- A member is the value of a field, which is declared by its name. -/
def ReadsValue (descriptor : Descriptor) (name : String) (json : Json) (value : FieldValue) : Prop :=
  ∃ spec, descriptor.field? name = some spec ∧ FieldValue.ofJson? spec.type json = some value

/-- A member is the list of a relation, which is declared by its name while no field is. -/
def ReadsList (descriptor : Descriptor) (name : String) (json : Json) (list : List EntityId) :
    Prop :=
  descriptor.field? name = none ∧ (descriptor.relation? name).isSome = true ∧
    ∃ items, json.array? = some items ∧ items.mapM (EntityId.ofJson name) = .ok list

theorem ReadsValue.unique {name : String} {json : Json} {first second : FieldValue}
    (reads : descriptor.ReadsValue name json first)
    (again : descriptor.ReadsValue name json second) : first = second := by
  obtain ⟨spec, known, read⟩ := reads
  obtain ⟨other, otherKnown, otherRead⟩ := again
  cases known.symm.trans otherKnown
  exact Option.some.inj (read.symm.trans otherRead)

theorem ReadsList.unique {name : String} {json : Json} {first second : List EntityId}
    (reads : descriptor.ReadsList name json first)
    (again : descriptor.ReadsList name json second) : first = second := by
  obtain ⟨_, _, items, isArray, read⟩ := reads
  obtain ⟨_, _, others, otherArray, otherRead⟩ := again
  cases isArray.symm.trans otherArray
  exact Except.ok.inj (read.symm.trans otherRead)

/-- No member is both. -/
theorem ReadsValue.not_list {name : String} {json : Json} {value : FieldValue}
    (reads : descriptor.ReadsValue name json value) (list : List EntityId) :
    ¬ descriptor.ReadsList name json list := by
  obtain ⟨spec, known, _⟩ := reads
  rintro ⟨unknown, _⟩
  cases known.symm.trans unknown

theorem readMember_eq_ok {content next : Content} {name : String} {json : Json} :
    descriptor.readMember content name json = .ok next ↔
      (∃ value, descriptor.ReadsValue name json value ∧ next = content.setField name value) ∨
        ∃ list, descriptor.ReadsList name json list ∧ next = content.setMembers name list := by
  cases known : descriptor.field? name with
  | some spec =>
      have read {value : FieldValue} : descriptor.readField spec json = .ok value ↔
          descriptor.ReadsValue name json value := by
        simp only [readField, ReadsValue, known, Option.some.injEq, exists_eq_left']
        cases FieldValue.ofJson? spec.type json <;> simp
      have noList (list : List EntityId) : ¬ descriptor.ReadsList name json list := by
        rintro ⟨unknown, _⟩
        cases known.symm.trans unknown
      simp only [readMember, known, bind_eq_ok, pure_eq_ok, read, noList, false_and, exists_false,
        or_false, @eq_comm _ next]
  | none =>
      have noValue (value : FieldValue) : ¬ descriptor.ReadsValue name json value := by
        rintro ⟨spec, found, _⟩
        cases known.symm.trans found
      cases declared : descriptor.relation? name with
      | none => simp [readMember, ReadsList, known, declared, noValue]
      | some relation =>
          cases isArray : json.array? with
          | none => simp [readMember, ReadsList, known, declared, isArray, noValue]
          | some items =>
              have read {list : List EntityId} : items.mapM (EntityId.ofJson name) = .ok list ↔
                  descriptor.ReadsList name json list := by
                simp [ReadsList, known, declared, isArray]
              simp only [readMember, known, declared, isArray, bind_eq_ok, pure_eq_ok, read,
                noValue, false_and, exists_false, false_or, @eq_comm _ next]

/-- A member that is neither a value nor a list ends the reading, and only such a member does. -/
theorem exists_readMembers {entries : List (String × Json)}
    (each : ∀ entry ∈ entries, entry.1 ∉ reservedNames → entry.1 ∉ skipped →
      (∃ value, descriptor.ReadsValue entry.1 entry.2 value) ∨
        ∃ list, descriptor.ReadsList entry.1 entry.2 list) (content : Content) :
    ∃ read, descriptor.readMembers skipped entries content = (read, none) := by
  induction entries generalizing content with
  | nil => exact ⟨content, rfl⟩
  | cons entry rest ih =>
      obtain ⟨name, json⟩ := entry
      obtain ⟨first, others⟩ := List.forall_mem_cons.mp each
      rw [readMembers]
      split
      · exact ih others content
      · rename_i counted
        obtain ⟨notReserved, notSkipped⟩ := not_or.mp counted
        have carried : ∃ next, descriptor.readMember content name json = .ok next := by
          rcases first notReserved notSkipped with ⟨value, reads⟩ | ⟨list, reads⟩
          · exact ⟨_, readMember_eq_ok.mpr (Or.inl ⟨value, reads, rfl⟩)⟩
          · exact ⟨_, readMember_eq_ok.mpr (Or.inr ⟨list, reads, rfl⟩)⟩
        obtain ⟨next, once⟩ := carried
        rw [once]
        exact ih others next

/-- Under the name of a member there is what has been read from it; under other names there is what
was there before. -/
theorem get?_readMembers {entries : List (String × Json)}
    (sorted : entries.Pairwise fun first second => Key.before first.1 second.1 = true)
    {content read : Content} (carried : descriptor.readMembers skipped entries content = (read, none))
    (name : String) :
    (∀ json, (name, json) ∈ entries → name ∉ reservedNames → name ∉ skipped →
      (∃ value, descriptor.ReadsValue name json value ∧ read.fields.get? name = some value ∧
        read.relations.get? name = content.relations.get? name) ∨
      ∃ list, descriptor.ReadsList name json list ∧ read.relations.get? name = some list ∧
        read.fields.get? name = content.fields.get? name) ∧
    ((∀ json, (name, json) ∈ entries → name ∈ reservedNames ∨ name ∈ skipped) →
      read.fields.get? name = content.fields.get? name ∧
        read.relations.get? name = content.relations.get? name) := by
  induction entries generalizing content with
  | nil =>
      cases carried
      exact ⟨nofun, fun _ => ⟨rfl, rfl⟩⟩
  | cons entry rest ih =>
      obtain ⟨other, otherJson⟩ := entry
      obtain ⟨above, restSorted⟩ := List.pairwise_cons.mp sorted
      -- in ascending order no later member has the name of the first one
      have later (json : Json) (listed : (name, json) ∈ rest) : name ≠ other :=
        (Key.ne_of_before (above _ listed)).symm
      rw [readMembers] at carried
      split at carried
      · rename_i passed
        obtain ⟨given, absent⟩ := ih restSorted carried
        refine ⟨fun json listed notReserved notSkipped => ?_, fun uncounted =>
          absent fun json listed => uncounted json (List.mem_cons_of_mem _ listed)⟩
        rcases List.mem_cons.mp listed with same | listed
        · cases same
          exact absurd passed (not_or.mpr ⟨notReserved, notSkipped⟩)
        · exact given json listed notReserved notSkipped
      · rename_i counted
        split at carried
        · rename_i next once
          obtain ⟨given, absent⟩ := ih restSorted carried
          by_cases here : name = other
          · subst here
            obtain ⟨fields, relations⟩ := absent fun json listed => absurd rfl (later json listed)
            refine ⟨fun json listed _ _ => ?_, fun uncounted =>
              absurd (uncounted _ List.mem_cons_self) counted⟩
            rcases List.mem_cons.mp listed with same | listed
            · cases same
              rw [fields, relations]
              rcases readMember_eq_ok.mp once with ⟨value, reads, rfl⟩ | ⟨list, reads, rfl⟩
              · exact Or.inl ⟨value, reads, Dict.get?_insert_self .., rfl⟩
              · exact Or.inr ⟨list, reads, Dict.get?_insert_self .., rfl⟩
            · exact absurd rfl (later json listed)
          · have untouched : next.fields.get? name = content.fields.get? name ∧
                next.relations.get? name = content.relations.get? name := by
              rcases readMember_eq_ok.mp once with ⟨value, _, rfl⟩ | ⟨list, _, rfl⟩
              · exact ⟨Dict.get?_insert_of_ne _ here _, rfl⟩
              · exact ⟨rfl, Dict.get?_insert_of_ne _ here _⟩
            rw [← untouched.1, ← untouched.2]
            refine ⟨fun json listed => given json ?_, fun uncounted =>
              absent fun json listed => uncounted json (List.mem_cons_of_mem _ listed)⟩
            exact (List.mem_cons.mp listed).resolve_left fun same => here (Prod.mk.inj same).1
        · cases carried

/-! ## Objects -/

/-- A content holds what the members of an object say, save those that are passed over. -/
structure ReadsFrom (descriptor : Descriptor) (skipped : List String) (members : Dict String Json)
    (content : Content) : Prop where
  /-- Each member that counts is the value of a field or the list of a relation. -/
  each : ∀ name json, members.get? name = some json → name ∉ reservedNames → name ∉ skipped →
    (∃ value, descriptor.ReadsValue name json value) ∨ ∃ list, descriptor.ReadsList name json list
  fields : ∀ name value, content.fields.get? name = some value ↔
    name ∉ reservedNames ∧ name ∉ skipped ∧
      ∃ json, members.get? name = some json ∧ descriptor.ReadsValue name json value
  relations : ∀ name list, content.relations.get? name = some list ↔
    name ∉ reservedNames ∧ name ∉ skipped ∧
      ∃ json, members.get? name = some json ∧ descriptor.ReadsList name json list

/-- An object says everything about the content that is read from it. -/
theorem ReadsFrom.unique {members : Dict String Json} {first second : Content}
    (reads : descriptor.ReadsFrom skipped members first)
    (again : descriptor.ReadsFrom skipped members second) : first = second := by
  have fields : first.fields = second.fields := Dict.ext_get? fun name =>
    Option.ext fun value => (reads.fields name value).trans (again.fields name value).symm
  have relations : first.relations = second.relations := Dict.ext_get? fun name =>
    Option.ext fun list => (reads.relations name list).trans (again.relations name list).symm
  calc first = ⟨first.fields, first.relations⟩ := rfl
    _ = ⟨second.fields, second.relations⟩ := by rw [fields, relations]
    _ = second := rfl

theorem readsFrom_of_readMembers {members : Dict String Json} {content : Content}
    (carried : descriptor.readMembers skipped members.entries .empty = (content, none)) :
    descriptor.ReadsFrom skipped members content := by
  have placed := get?_readMembers members.sorted carried
  -- a name under which something has been read is the name of a member that counts
  have counts (name : String)
      (found : content.fields.get? name ≠ none ∨ content.relations.get? name ≠ none) :
      name ∉ reservedNames ∧ name ∉ skipped ∧ ∃ json, (name, json) ∈ members.entries := by
    by_contra uncounted
    obtain ⟨fields, relations⟩ := (placed name).2 fun json listed => by
      by_contra counted
      obtain ⟨notReserved, notSkipped⟩ := not_or.mp counted
      exact uncounted ⟨notReserved, notSkipped, json, listed⟩
    rcases found with found | found
    · exact found fields
    · exact found relations
  constructor
  · intro name json member notReserved notSkipped
    rcases (placed name).1 json ((members.get?_eq_some_iff).mp member) notReserved notSkipped with
      ⟨value, reads, _⟩ | ⟨list, reads, _⟩
    · exact Or.inl ⟨value, reads⟩
    · exact Or.inr ⟨list, reads⟩
  · intro name value
    constructor
    · intro found
      obtain ⟨notReserved, notSkipped, json, listed⟩ := counts name (Or.inl (by simp [found]))
      refine ⟨notReserved, notSkipped, json, (members.get?_eq_some_iff).mpr listed, ?_⟩
      rcases (placed name).1 json listed notReserved notSkipped with
        ⟨other, reads, same, _⟩ | ⟨_, _, _, absent⟩
      · cases found.symm.trans same
        exact reads
      · cases found.symm.trans absent
    · rintro ⟨notReserved, notSkipped, json, member, reads⟩
      rcases (placed name).1 json ((members.get?_eq_some_iff).mp member) notReserved notSkipped with
        ⟨other, otherReads, found, _⟩ | ⟨list, otherReads, _⟩
      · rw [reads.unique otherReads]
        exact found
      · exact absurd otherReads (reads.not_list list)
  · intro name list
    constructor
    · intro found
      obtain ⟨notReserved, notSkipped, json, listed⟩ := counts name (Or.inr (by simp [found]))
      refine ⟨notReserved, notSkipped, json, (members.get?_eq_some_iff).mpr listed, ?_⟩
      rcases (placed name).1 json listed notReserved notSkipped with
        ⟨_, _, _, absent⟩ | ⟨other, reads, same, _⟩
      · cases found.symm.trans absent
      · cases found.symm.trans same
        exact reads
    · rintro ⟨notReserved, notSkipped, json, member, reads⟩
      rcases (placed name).1 json ((members.get?_eq_some_iff).mp member) notReserved notSkipped with
        ⟨value, otherReads, _⟩ | ⟨other, otherReads, found, _⟩
      · exact absurd reads (otherReads.not_list list)
      · rw [reads.unique otherReads]
        exact found

/-- Reading an object gives a content exactly if all its members that count can be read, and then
it gives just what they say. -/
theorem readContent_eq_ok_iff {members : Dict String Json} {content : Content} :
    descriptor.readContent skipped members .empty = .ok content ↔
      descriptor.ReadsFrom skipped members content := by
  have carried : descriptor.readContent skipped members .empty = .ok content ↔
      descriptor.readMembers skipped members.entries .empty = (content, none) := by
    unfold readContent
    split
    · rename_i read once
      simp [once]
    · rename_i read fault once
      simp [once]
  rw [carried]
  refine ⟨readsFrom_of_readMembers, fun reads => ?_⟩
  have carries : ∃ read, descriptor.readMembers skipped members.entries .empty = (read, none) :=
    exists_readMembers (fun entry listed =>
      reads.each entry.1 entry.2 ((members.get?_eq_some_iff).mpr listed)) .empty
  obtain ⟨read, once⟩ := carries
  rw [once, reads.unique (readsFrom_of_readMembers once)]

/-! ## What can be wrong with it -/

/-- An object gives a field a value by a member that counts and is not null. -/
def Gives (skipped : List String) (members : Dict String Json) (name : String) : Prop :=
  name ∉ reservedNames ∧ name ∉ skipped ∧
    ∃ json, members.get? name = some json ∧ json.isNull = false

namespace ReadsFrom

variable {members : Dict String Json} {content : Content}

/-- Fields that have been read are declared, and of their types. -/
theorem fieldFault? (reads : descriptor.ReadsFrom skipped members content) {name : String}
    {value : FieldValue} (found : content.fields.get? name = some value) :
    descriptor.fieldFault? name value = none := by
  obtain ⟨_, _, json, _, spec, known, read⟩ := (reads.fields name value).mp found
  exact fieldFault?_eq_none_iff.mpr ⟨spec, known, FieldValue.type?_of_ofJson? read⟩

/-- Relations that have been read are declared. -/
theorem relationFault? (reads : descriptor.ReadsFrom skipped members content) {relation : String}
    {list : List EntityId} (found : content.relations.get? relation = some list) :
    descriptor.relationFault? relation = none := by
  obtain ⟨_, _, json, _, _, declared, _⟩ := (reads.relations relation list).mp found
  exact relationFault?_eq_none_iff.mpr declared

/-- The value of a declared field is read from the member with its name. -/
theorem value (reads : descriptor.ReadsFrom skipped members content) {name : String}
    {spec : FieldSpec} (known : descriptor.field? name = some spec)
    (notReserved : name ∉ reservedNames) (notSkipped : name ∉ skipped) {json : Json}
    (member : members.get? name = some json) :
    FieldValue.ofJson? spec.type json = some (content.value name) := by
  rcases reads.each name json member notReserved notSkipped with
    ⟨value, readsValue⟩ | ⟨list, unknown, _⟩
  · have found := (reads.fields name value).mpr ⟨notReserved, notSkipped, json, member, readsValue⟩
    obtain ⟨other, same, read⟩ := readsValue
    cases known.symm.trans same
    rw [Content.value, found, Option.getD_some, read]
  · cases known.symm.trans unknown

/-- A field without a member has no value. -/
theorem value_of_absent (reads : descriptor.ReadsFrom skipped members content) {name : String}
    (absent : members.get? name = none) : content.value name = .null := by
  cases found : content.fields.get? name with
  | none => rw [Content.value, found, Option.getD_none]
  | some value =>
      obtain ⟨_, _, json, member, _⟩ := (reads.fields name value).mp found
      cases absent.symm.trans member

/-- A declared field has been read with a value if the object gives it one. -/
theorem isNull_value (reads : descriptor.ReadsFrom skipped members content) {spec : FieldSpec}
    (declared : spec ∈ descriptor.fields) :
    (content.value spec.name).isNull = false ↔ Gives skipped members spec.name := by
  constructor
  · intro valued
    cases found : content.fields.get? spec.name with
    | none => simp [Content.value, found, FieldValue.isNull] at valued
    | some value =>
        obtain ⟨notReserved, notSkipped, json, member, _, _, read⟩ :=
          (reads.fields spec.name value).mp found
        rw [Content.value, found, Option.getD_some] at valued
        exact ⟨notReserved, notSkipped, json, member,
          (FieldValue.isNull_of_ofJson? read).symm.trans valued⟩
  · rintro ⟨notReserved, notSkipped, json, member, notNull⟩
    have known : (descriptor.field? spec.name).isSome = true :=
      List.find?_isSome.mpr ⟨spec, declared, by simp⟩
    obtain ⟨first, known⟩ := Option.isSome_iff_exists.mp known
    rw [FieldValue.isNull_of_ofJson? (reads.value known notReserved notSkipped member), notNull]

theorem missingFault? (reads : descriptor.ReadsFrom skipped members content) {spec : FieldSpec}
    (declared : spec ∈ descriptor.fields) :
    descriptor.missingFault? content spec = none ↔
      (spec.required = true → Gives skipped members spec.name) := by
  rw [missingFault?_eq_none_iff, reads.isNull_value declared]

/-- Only required fields without a value are at fault. -/
theorem faults_eq (reads : descriptor.ReadsFrom skipped members content) :
    descriptor.faults content = descriptor.fields.filterMap (descriptor.missingFault? content) := by
  have fields : content.fields.entries.filterMap
      (fun entry => descriptor.fieldFault? entry.1 entry.2) = [] :=
    List.filterMap_eq_nil_iff.mpr fun entry listed =>
      reads.fieldFault? (content.fields.get?_eq_some_iff.mpr listed)
  have relations : content.relations.keys.filterMap descriptor.relationFault? = [] :=
    List.filterMap_eq_nil_iff.mpr fun relation listed => by
      obtain ⟨list, found⟩ := content.relations.mem_keys_iff.mp listed
      exact reads.relationFault? found
  rw [faults, fields, relations, List.nil_append, List.append_nil]

end ReadsFrom

/-- What has been read from an object is accepted exactly if the object gives each required field a
value. If it is not, then for want of such a value, and never for a name or a type. -/
theorem read_checks {members : Dict String Json} {content : Content}
    (read : descriptor.readContent skipped members .empty = .ok content) :
    (descriptor.check content = .ok () ↔
      ∀ spec ∈ descriptor.fields, spec.required = true → Gives skipped members spec.name) ∧
    ∀ fault, descriptor.check content = .error fault →
      ∃ spec ∈ descriptor.fields, spec.required = true ∧ ¬ Gives skipped members spec.name ∧
        fault = .missingField descriptor.kind spec.name := by
  have reads := readContent_eq_ok_iff.mp read
  constructor
  · rw [check_eq_ok_iff]
    constructor
    · rintro ⟨_, present, _⟩ spec declared
      exact (reads.missingFault? declared).mp (present spec declared)
    · intro given
      exact ⟨fun name value => reads.fieldFault?,
        fun spec declared => (reads.missingFault? declared).mpr (given spec declared),
        fun relation list => reads.relationFault?⟩
  · intro fault refused
    have listed : fault ∈ descriptor.faults content := by
      unfold check at refused
      split at refused
      · cases refused
      · rename_i first rest some
        rw [some, ← Except.error.inj refused]
        exact List.mem_cons_self
    rw [reads.faults_eq, List.mem_filterMap] at listed
    obtain ⟨spec, declared, missing⟩ := listed
    refine ⟨spec, declared, ?_⟩
    by_cases given : spec.required = true → Gives skipped members spec.name
    · cases missing.symm.trans ((reads.missingFault? declared).mpr given)
    · obtain ⟨required, notGiven⟩ := Classical.not_imp.mp given
      refine ⟨required, notGiven, ?_⟩
      unfold Descriptor.missingFault? at missing
      split at missing
      · exact (Option.some.inj missing).symm
      · cases missing

/-- A field and a relation have one name, and a required field has a reserved one. -/
def overlapping : Descriptor where
  kind := .newsItem
  historyTable := "news_item_history"
  key := .surrogate
  fields := [⟨"weight", .float, true⟩, ⟨"parts", .reference, false⟩, ⟨"version", .integer, true⟩]
  relations := [⟨"parts", .attr, false, none⟩, ⟨"attributes", .attr, true, none⟩]

/-- An object with a whole number for a double, null under the name of both, and a member to be
passed over. -/
def overlappingMembers : Dict String Json :=
  .ofList [("weight", .int 3), ("parts", .null), ("version", .int 7),
    ("attributes", .array [.text "00000000-0000-0000-0000-000000000001"]),
    ("note", .object [("weight", .array [.null])])]

/-- What is read from it. -/
def overlappingContent : Content where
  fields := .ofList [("weight", .float ⟨0x4008000000000000⟩), ("parts", .null)]
  relations := .ofList [("attributes", [⟨⟨1⟩⟩])]

/-- Nothing but the reserved name is wrong with it. -/
theorem read_checks_overlapping :
    overlapping.readContent ["note"] overlappingMembers .empty = .ok overlappingContent ∧
      overlapping.check overlappingContent ≠ .ok () ∧
      ∀ fault, overlapping.check overlappingContent = .error fault →
        fault = .missingField .newsItem "version" := by
  have read : overlapping.readContent ["note"] overlappingMembers .empty = .ok overlappingContent :=
    rfl
  obtain ⟨accepted, refused⟩ := read_checks read
  have weighed : Gives ["note"] overlappingMembers "weight" :=
    ⟨by decide, by decide, .int 3, rfl, rfl⟩
  refine ⟨read, fun checked => ?_, fun fault found => ?_⟩
  · obtain ⟨notReserved, _⟩ := accepted.mp checked ⟨"version", .integer, true⟩ (by decide) rfl
    exact notReserved (by decide)
  · obtain ⟨spec, declared, required, notGiven, rfl⟩ := refused fault found
    have specs : spec = ⟨"weight", .float, true⟩ ∨ spec = ⟨"parts", .reference, false⟩ ∨
        spec = ⟨"version", .integer, true⟩ := by
      simpa [overlapping] using declared
    rcases specs with rfl | rfl | rfl
    · exact absurd weighed notGiven
    · cases required
    · rfl

end Descriptor

end Chronicle
