import Chronicle.Proofs.Filling
import Chronicle.Proofs.Flat.Reading

/-!
# What is read from what was written

The flat object of a content does not say what its numbers and texts are, and which of its members
are fields. If no two declarations have one name and none has a reserved one, then the descriptor
says both, and the content is read from its object as it was, with its nulls, its empty lists and its
repetitions (`Descriptor.written_reads`).
-/

namespace Chronicle

open Descriptor (reservedNames standard)

/-! ## Values -/

namespace FieldValue

/-- Whether a value can be written down: a double only if it is finite. -/
def isWritable : FieldValue → Bool
  | float number => number.isFinite
  | _ => true

/-- A value is read from what has been written, by its type. -/
theorem ofJson?_toJson {type : FieldType} {value : FieldValue} (writable : value.isWritable = true)
    (typed : value = null ∨ value.type? = some type) : ofJson? type value.toJson = some value := by
  have whole (number : Int64) : (Json.int number.toInt).int64? = some number := by
    rw [Json.int64?, if_pos ⟨number.le_toInt, number.toInt_lt⟩, Int64.ofInt_toInt]
  rcases typed with rfl | typed
  · rfl
  · cases value with
    | null => cases typed
    | text value =>
        cases typed
        rfl
    | integer number =>
        cases typed
        simp only [toJson, ofJson?, Json.isNull, Bool.false_eq_true, if_false, whole, Option.map_some]
    | float number =>
        cases typed
        have finite : number.isFinite = true := writable
        rw [toJson, if_pos finite]
        rfl
    | boolean value =>
        cases typed
        rfl
    | timestamp number =>
        cases typed
        simp only [toJson, ofJson?, Json.isNull, Bool.false_eq_true, if_false, whole, Option.map_some]
    | reference id =>
        cases typed
        simp only [toJson, EntityId.toJson, ofJson?, Json.isNull, Bool.false_eq_true, if_false,
          Json.text?, Option.bind_some, EntityId.ofText?_text, Option.map_some]

end FieldValue

/-! ## Descriptors -/

namespace Descriptor

variable {descriptor : Descriptor}

/-- No two declarations have one name, and none has a reserved one. -/
def Flat (descriptor : Descriptor) : Prop :=
  (descriptor.fields.map FieldSpec.name ++ descriptor.relations.map RelationSpec.name ++
    reservedNames).Nodup

instance (descriptor : Descriptor) : Decidable descriptor.Flat :=
  inferInstanceAs (Decidable (List.Nodup _))

theorem flat_standard (kind : Kind) : (standard kind).Flat := by
  cases kind <;> decide

theorem mem_of_field? {name : String} {spec : FieldSpec}
    (known : descriptor.field? name = some spec) : name ∈ descriptor.fields.map FieldSpec.name :=
  List.mem_map.mpr ⟨spec, List.mem_of_find?_eq_some known, name_of_field? known⟩

theorem mem_of_relation? {name : String} {spec : RelationSpec}
    (known : descriptor.relation? name = some spec) :
    name ∈ descriptor.relations.map RelationSpec.name :=
  List.mem_map.mpr ⟨spec, List.mem_of_find?_eq_some known, name_of_relation? known⟩

namespace Flat

variable (flat : descriptor.Flat)

include flat

theorem field?_eq_none {name : String} {spec : RelationSpec}
    (known : descriptor.relation? name = some spec) : descriptor.field? name = none := by
  refine Option.eq_none_iff_forall_ne_some.mpr fun field found => ?_
  have apart := (List.nodup_append.mp (List.nodup_append.mp flat).1).2.2
  exact apart _ (mem_of_field? found) _ (mem_of_relation? known) rfl

theorem field_notReserved {name : String} {spec : FieldSpec}
    (known : descriptor.field? name = some spec) : name ∉ reservedNames := fun isReserved =>
  (List.nodup_append.mp flat).2.2 _ (List.mem_append_left _ (mem_of_field? known)) _ isReserved rfl

theorem relation_notReserved {name : String} {spec : RelationSpec}
    (known : descriptor.relation? name = some spec) : name ∉ reservedNames := fun isReserved =>
  (List.nodup_append.mp flat).2.2 _ (List.mem_append_right _ (mem_of_relation? known)) _ isReserved
    rfl

end Flat

end Descriptor

/-! ## Contents -/

namespace Content

variable {descriptor : Descriptor} {content : Content}

/-- All its doubles are finite. -/
def Writable (content : Content) : Prop :=
  ∀ entry ∈ content.fields.entries, entry.2.isWritable = true

/-- What a flat object says under a name. -/
theorem mem_jsonMembers {id : Option EntityId} {version : Option Nat} {name : String}
    {json : Json} : (name, json) ∈ content.jsonMembers id version ↔
      (∃ own, id = some own ∧ "id" = name ∧ own.toJson = json) ∨
      (∃ number, version = some number ∧ "version" = name ∧ Json.nat number = json) ∨
      (∃ value, content.fields.get? name = some value ∧ value.toJson = json) ∨
      ∃ list, content.relations.get? name = some list ∧
        .array (list.map EntityId.toJson) = json := by
  simp only [jsonMembers, List.mem_append, Option.mem_toList, Option.map_eq_some_iff, List.mem_map,
    Prod.mk.injEq, Prod.exists, Dict.get?_eq_some_iff, or_assoc]
  refine or_congr Iff.rfl (or_congr Iff.rfl (or_congr ?_ ?_))
  · exact ⟨fun ⟨_, value, found, same, written⟩ => ⟨value, same ▸ found, written⟩,
      fun ⟨value, found, written⟩ => ⟨name, value, found, rfl, written⟩⟩
  · exact ⟨fun ⟨_, list, found, same, written⟩ => ⟨list, same ▸ found, written⟩,
      fun ⟨list, found, written⟩ => ⟨name, list, found, rfl, written⟩⟩

/-- The flat object of an accepted content has no name twice. -/
theorem jsonMembers_nodup (flat : descriptor.Flat) (accepted : descriptor.check content = .ok ())
    (id : Option EntityId) (version : Option Nat) :
    ((content.jsonMembers id version).map Prod.fst).Nodup := by
  have names : (content.jsonMembers id version).map Prod.fst =
      ((id.map fun _ => "id").toList ++ (version.map fun _ => "version").toList) ++
        (content.fields.keys ++ content.relations.keys) := by
    simp only [jsonMembers, List.map_append, List.map_map, List.append_assoc, Dict.keys]
    cases id <;> cases version <;> rfl
  have ascending {ν : Type} (dict : Dict String ν) : dict.keys.Nodup :=
    dict.keys_sorted.imp fun before => Key.ne_of_before before
  have reserved : ∀ name ∈ (id.map fun _ => "id").toList ++ (version.map fun _ => "version").toList,
      name ∈ reservedNames := by
    cases id <;> cases version <;> simp [reservedNames]
  have isField {name : String} (listed : name ∈ content.fields.keys) :
      ∃ spec, descriptor.field? name = some spec := by
    obtain ⟨value, found⟩ := content.fields.mem_keys_iff.mp listed
    obtain ⟨spec, known, _⟩ := Descriptor.field?_of_check accepted found
    exact ⟨spec, known⟩
  have isRelation {name : String} (listed : name ∈ content.relations.keys) :
      ∃ spec, descriptor.relation? name = some spec := by
    obtain ⟨list, found⟩ := content.relations.mem_keys_iff.mp listed
    exact Descriptor.relation?_of_check accepted found
  rw [names]
  refine List.nodup_append.mpr ⟨?_, List.nodup_append.mpr ⟨ascending _, ascending _, ?_⟩, ?_⟩
  · cases id <;> cases version <;> simp
  · rintro name inFields _ inRelations rfl
    obtain ⟨field, isDeclared⟩ := isField inFields
    obtain ⟨relation, known⟩ := isRelation inRelations
    cases (flat.field?_eq_none known).symm.trans isDeclared
  · rintro name isReserved _ inContent rfl
    rcases List.mem_append.mp inContent with inFields | inRelations
    · obtain ⟨field, known⟩ := isField inFields
      exact flat.field_notReserved known (reserved name isReserved)
    · obtain ⟨relation, known⟩ := isRelation inRelations
      exact flat.relation_notReserved known (reserved name isReserved)

end Content

namespace Descriptor

variable {descriptor : Descriptor} {content : Content}

/-- The flat object of an accepted content says just what is in it. -/
theorem readsFrom_toJson (flat : descriptor.Flat) (accepted : descriptor.check content = .ok ())
    (writable : content.Writable) (id : Option EntityId) (version : Option Nat) :
    descriptor.ReadsFrom [] (.ofList (content.jsonMembers id version)) content := by
  have fieldReads {name : String} {value : FieldValue}
      (found : content.fields.get? name = some value) :
      name ∉ reservedNames ∧ descriptor.ReadsValue name value.toJson value := by
    obtain ⟨spec, known, typed⟩ := field?_of_check accepted found
    exact ⟨flat.field_notReserved known, spec, known,
      FieldValue.ofJson?_toJson (writable _ (content.fields.get?_eq_some_iff.mp found)) typed⟩
  have listReads {name : String} {list : List EntityId}
      (found : content.relations.get? name = some list) :
      name ∉ reservedNames ∧ descriptor.ReadsList name (.array (list.map EntityId.toJson)) list := by
    obtain ⟨spec, known⟩ := relation?_of_check accepted found
    refine ⟨flat.relation_notReserved known, flat.field?_eq_none known, ?_, _, rfl, ?_⟩
    · rw [known, Option.isSome_some]
    · refine mapM_eq_ok_iff.mpr (List.forall₂_map_left_iff.mpr ?_)
      exact List.forall₂_same.mpr fun id _ => EntityId.ofJson_toJson name id
  have nodup := content.jsonMembers_nodup flat accepted id version
  have stated {name : String} {json : Json} (notReserved : name ∉ reservedNames) :
      (Dict.ofList (content.jsonMembers id version)).get? name = some json ↔
        (∃ value, content.fields.get? name = some value ∧ value.toJson = json) ∨
        ∃ list, content.relations.get? name = some list ∧
          .array (list.map EntityId.toJson) = json := by
    rw [Dict.get?_ofList_of_nodup nodup, Content.mem_jsonMembers]
    constructor
    · rintro (⟨_, _, rfl, _⟩ | ⟨_, _, rfl, _⟩ | counted)
      · exact absurd (by decide) notReserved
      · exact absurd (by decide) notReserved
      · exact counted
    · exact fun counted => Or.inr (Or.inr counted)
  constructor
  · intro name json member notReserved _
    rcases (stated notReserved).mp member with ⟨value, found, rfl⟩ | ⟨list, listed, rfl⟩
    · exact Or.inl ⟨value, (fieldReads found).2⟩
    · exact Or.inr ⟨list, (listReads listed).2⟩
  · intro name value
    constructor
    · intro found
      obtain ⟨notReserved, reads⟩ := fieldReads found
      exact ⟨notReserved, nofun, _, (stated notReserved).mpr (Or.inl ⟨value, found, rfl⟩), reads⟩
    · rintro ⟨notReserved, _, json, member, reads⟩
      rcases (stated notReserved).mp member with ⟨other, found, rfl⟩ | ⟨list, listed, rfl⟩
      · rw [reads.unique (fieldReads found).2]
        exact found
      · exact absurd (listReads listed).2 (reads.not_list list)
  · intro name list
    constructor
    · intro listed
      obtain ⟨notReserved, reads⟩ := listReads listed
      exact ⟨notReserved, nofun, _, (stated notReserved).mpr (Or.inr ⟨list, listed, rfl⟩), reads⟩
    · rintro ⟨notReserved, _, json, member, reads⟩
      rcases (stated notReserved).mp member with ⟨value, found, rfl⟩ | ⟨other, listed, rfl⟩
      · exact absurd reads ((fieldReads found).2.not_list list)
      · rw [reads.unique (listReads listed).2]
        exact listed

/-- A content that is accepted, and whose doubles are finite, is read from its flat object just as it
was, whatever identifier and version are shown with it. The standard descriptors allow for that. -/
theorem written_reads : (∀ kind, (standard kind).Flat) ∧
    ∀ (descriptor : Descriptor) (content : Content), descriptor.Flat →
      descriptor.check content = .ok () → content.Writable →
      ∀ (id : Option EntityId) (version : Option Nat) (what : String),
        (readObject what (content.toJson id version) >>= fun members =>
          descriptor.readContent [] members .empty) = .ok content := by
  refine ⟨flat_standard, fun descriptor content flat accepted writable id version what => ?_⟩
  have object : readObject what (content.toJson id version) =
      .ok (.ofList (content.jsonMembers id version)) := by
    rw [readObject, Content.toJson, Json.object?_ofMembers]
  exact bind_eq_ok.mpr ⟨_, object,
    readContent_eq_ok_iff.mpr (readsFrom_toJson flat accepted writable id version)⟩

/-- A field of each type, and two relations. -/
def motley : Descriptor where
  kind := .story
  historyTable := "story_history"
  key := .surrogate
  fields := [⟨"title", .text, true⟩, ⟨"count", .integer, false⟩, ⟨"weight", .float, false⟩,
    ⟨"read", .boolean, false⟩, ⟨"seen", .timestamp, false⟩, ⟨"source", .reference, false⟩,
    ⟨"note", .text, false⟩]
  relations := [⟨"parts", .newsItem, true, none⟩, ⟨"attributes", .attr, false, none⟩]

/-- A text that is an identifier, one number of two types, a negative zero, null, a list that repeats
a member and one without any. -/
def motleyContent : Content where
  fields := .ofList [("title", .text "00000000-0000-0000-0000-000000000002"), ("count", .integer 5),
    ("weight", .float ⟨0x8000000000000000⟩), ("read", .boolean true), ("seen", .timestamp 5),
    ("source", .reference ⟨⟨2⟩⟩), ("note", .null)]
  relations := .ofList [("parts", [⟨⟨4⟩⟩, ⟨⟨3⟩⟩, ⟨⟨4⟩⟩]), ("attributes", [])]

/-- All of it is read again. -/
theorem written_reads_motley :
    motley.Flat ∧ motley.check motleyContent = .ok () ∧ motleyContent.Writable ∧
      (readObject "state" (motleyContent.toJson (some ⟨⟨1⟩⟩) (some 7)) >>= fun members =>
        motley.readContent [] members .empty) = .ok motleyContent := by
  have flat : motley.Flat := by decide
  have accepted : motley.check motleyContent = .ok () := rfl
  have writable : motleyContent.Writable := by unfold Content.Writable; decide
  exact ⟨flat, accepted, writable,
    written_reads.2 motley motleyContent flat accepted writable (some ⟨⟨1⟩⟩) (some 7) "state"⟩

end Descriptor

end Chronicle
