import Chronicle.Proofs.Content.Delta
import Chronicle.Proofs.Flat.Writing
import Mathlib.Data.List.Induction

/-!
# Names of registered descriptors

A descriptor with two fields of one name is refused, so whatever is registered, each field is found
under its name (`Registry.Sound`). The names of relations are compared with nothing: which
descriptors are registered does not depend on them (`Registry.ofAttempts_renamed`). For each use of
names it is known which of them have to be different, and that more is not needed
(`Descriptor.NameUse`).
-/

namespace Chronicle

/-! ## Names in lists -/

section Names

variable {names seen : List String}

theorem firstRepeated?_go_eq_none_iff :
    firstRepeated?.go seen names = none ↔ names.Nodup ∧ ∀ name ∈ names, name ∉ seen := by
  induction names generalizing seen with
  | nil => simp [firstRepeated?.go]
  | cons first rest ih =>
      unfold firstRepeated?.go
      by_cases known : first ∈ seen
      · simp [known]
      · rw [if_neg (by simpa using known), ih, List.nodup_cons, List.forall_mem_cons]
        simp only [List.mem_cons, not_or]
        constructor
        · rintro ⟨restNames, others⟩
          exact ⟨⟨fun repeated => (others first repeated).1 rfl, restNames⟩, known,
            fun name listed => (others name listed).2⟩
        · rintro ⟨⟨absent, restNames⟩, _, others⟩
          exact ⟨restNames, fun name listed =>
            ⟨fun same => absent (same ▸ listed), others name listed⟩⟩

theorem firstRepeated?_eq_none_iff : firstRepeated? names = none ↔ names.Nodup := by
  simp [firstRepeated?, firstRepeated?_go_eq_none_iff]

/-- Looking up finds all there is under each name exactly if no name is repeated. -/
theorem find?_toList_eq_filter_iff {α : Type} {name : α → String} {list : List α} :
    (∀ wanted, (list.find? fun item => name item = wanted).toList =
      list.filter fun item => name item = wanted) ↔ (list.map name).Nodup := by
  induction list with
  | nil => simp
  | cons first rest ih =>
      have absent : name first ∉ rest.map name ↔
          (rest.filter fun item => name item = name first) = [] := by
        simp [List.filter_eq_nil_iff]
      rw [List.map_cons, List.nodup_cons, ← ih, absent]
      constructor
      · intro found
        have none : (rest.filter fun item => name item = name first) = [] := by
          simpa using (found (name first)).symm
        refine ⟨none, fun wanted => ?_⟩
        by_cases here : name first = wanted
        · have notFound : (rest.find? fun item => name item = wanted) = Option.none := by
            rw [← here]
            exact List.find?_eq_none.mpr (List.filter_eq_nil_iff.mp none)
          rw [notFound, ← here, none]
          rfl
        · simpa [here] using found wanted
      · rintro ⟨none, found⟩ wanted
        by_cases here : name first = wanted
        · subst here
          simp [none]
        · simpa [here] using found wanted

end Names

namespace Registry

/-! ## Registering -/

/-- A registry accepts a descriptor. -/
structure Fits (registry : Registry) (descriptor : Descriptor) : Prop where
  key : descriptor.key = .surrogate
  free : registry.get? descriptor.kind = none
  table : isTableName descriptor.historyTable = true
  fields : (descriptor.fields.map FieldSpec.name).Nodup
  targets : ∀ spec ∈ descriptor.relations,
    spec.target = descriptor.kind ∨ registry.get? spec.target ≠ none
  logs : ∀ spec ∈ descriptor.relations, logFlaw? spec = none

theorem relationFlaw?_eq_none_iff {registry : Registry} {kind : Kind} {spec : RelationSpec} :
    registry.relationFlaw? kind spec = none ↔
      (spec.target = kind ∨ registry.get? spec.target ≠ none) ∧ logFlaw? spec = none := by
  unfold relationFlaw?
  split
  · rename_i unknown
    simp [unknown]
  · rename_i known
    rw [not_and_or, not_not] at known
    exact ⟨fun flawless => ⟨known, flawless⟩, fun both => both.2⟩

theorem flaw?_eq_none_iff {registry : Registry} {descriptor : Descriptor} :
    registry.flaw? descriptor = none ↔ isTableName descriptor.historyTable = true ∧
      (descriptor.fields.map FieldSpec.name).Nodup ∧
      ∀ spec ∈ descriptor.relations, registry.relationFlaw? descriptor.kind spec = none := by
  unfold flaw?
  cases isTableName descriptor.historyTable with
  | false => simp
  | true =>
      rw [← firstRepeated?_eq_none_iff]
      cases firstRepeated? (descriptor.fields.map FieldSpec.name) <;>
        simp [List.findSome?_eq_none_iff]

theorem register_eq_ok_iff {registry next : Registry} {descriptor : Descriptor} :
    registry.register descriptor = .ok next ↔ registry.Fits descriptor ∧
      next = ⟨registry.descriptors.insert descriptor.kind descriptor⟩ := by
  unfold register
  split
  · rename_i unstable
    exact ⟨nofun, fun both => absurd both.1.key unstable⟩
  · rename_i stable
    split
    · rename_i taken
      refine ⟨nofun, fun both => ?_⟩
      rw [both.1.free] at taken
      cases taken
    · rename_i free
      have noFlaw : registry.flaw? descriptor = none ↔ registry.Fits descriptor := by
        rw [flaw?_eq_none_iff]
        constructor
        · rintro ⟨table, fields, relations⟩
          exact ⟨not_not.mp stable, by simpa using free, table, fields,
            fun spec listed => (relationFlaw?_eq_none_iff.mp (relations spec listed)).1,
            fun spec listed => (relationFlaw?_eq_none_iff.mp (relations spec listed)).2⟩
        · intro fits
          exact ⟨fits.table, fits.fields, fun spec listed =>
            relationFlaw?_eq_none_iff.mpr ⟨fits.targets spec listed, fits.logs spec listed⟩⟩
      cases flaw : registry.flaw? descriptor with
      | some found =>
          refine ⟨nofun, fun both => ?_⟩
          rw [noFlaw.mpr both.1] at flaw
          cases flaw
      | none => simp [noFlaw.mp flaw, eq_comm]

/-- The registry after an attempt to register a descriptor: as it was, if it is refused. -/
def attempt (registry : Registry) (descriptor : Descriptor) : Registry :=
  match registry.register descriptor with
  | .ok registered => registered
  | .error _ => registry

/-- The registry after attempts to register descriptors one after another. -/
def ofAttempts (descriptors : List Descriptor) : Registry := descriptors.foldl attempt empty

theorem attempt_of_fits {registry : Registry} {descriptor : Descriptor}
    (fits : registry.Fits descriptor) :
    registry.attempt descriptor = ⟨registry.descriptors.insert descriptor.kind descriptor⟩ := by
  rw [attempt, register_eq_ok_iff.mpr ⟨fits, rfl⟩]

theorem attempt_of_not_fits {registry : Registry} {descriptor : Descriptor}
    (unfit : ¬ registry.Fits descriptor) : registry.attempt descriptor = registry := by
  unfold attempt
  split
  · rename_i registered accepted
    exact absurd (register_eq_ok_iff.mp accepted).1 unfit
  · rfl

/-! ## What is registered -/

/-- What registering makes sure of for the descriptor of a kind. -/
structure Sound (registry : Registry) (kind : Kind) (descriptor : Descriptor) : Prop where
  kind_eq : descriptor.kind = kind
  key : descriptor.key = .surrogate
  table : isTableName descriptor.historyTable = true
  fields : (descriptor.fields.map FieldSpec.name).Nodup
  targets : ∀ spec ∈ descriptor.relations, registry.get? spec.target ≠ none
  logs : ∀ spec ∈ descriptor.relations, logFlaw? spec = none

theorem get?_insert {registry : Registry} {kind : Kind} {descriptor : Descriptor} {other : Kind} :
    (Registry.mk (registry.descriptors.insert kind descriptor)).get? other =
      if other = kind then some descriptor else registry.get? other := by
  by_cases same : other = kind
  · rw [if_pos same, same]
    exact Dict.get?_insert_self ..
  · rw [if_neg same]
    exact Dict.get?_insert_of_ne _ same _

/-- An attempt keeps what is registered, and makes sure of what it registers. -/
theorem sound_attempt {registry : Registry} {descriptor found : Descriptor} {kind : Kind}
    (sound : ∀ kind found, registry.get? kind = some found → registry.Sound kind found)
    (registered : (registry.attempt descriptor).get? kind = some found) :
    (registry.attempt descriptor).Sound kind found ∧
      (found = descriptor ∨ registry.get? kind = some found) := by
  by_cases fits : registry.Fits descriptor
  · rw [attempt_of_fits fits] at registered ⊢
    have known {target : Kind} (there : target = descriptor.kind ∨ registry.get? target ≠ none) :
        (Registry.mk (registry.descriptors.insert descriptor.kind descriptor)).get? target ≠
          none := by
      rw [get?_insert]
      split
      · nofun
      · rename_i different
        exact there.resolve_left different
    rw [get?_insert] at registered
    split at registered
    · rename_i same
      cases registered
      exact ⟨⟨same.symm, fits.key, fits.table, fits.fields,
        fun spec listed => known (fits.targets spec listed), fits.logs⟩, Or.inl rfl⟩
    · have before := sound kind found registered
      exact ⟨{ before with targets := fun spec listed => known (Or.inr (before.targets spec listed)) },
        Or.inr registered⟩
  · rw [attempt_of_not_fits fits] at registered ⊢
    exact ⟨sound kind found registered, Or.inr registered⟩

/-- Whatever has been tried, in whatever sequence, a descriptor that is registered is one of those
that were tried, and sound. -/
theorem sound_ofAttempts {attempts : List Descriptor} {kind : Kind} {descriptor : Descriptor}
    (registered : (ofAttempts attempts).get? kind = some descriptor) :
    descriptor ∈ attempts ∧ (ofAttempts attempts).Sound kind descriptor := by
  unfold ofAttempts at registered ⊢
  induction attempts using List.reverseRecOn generalizing kind descriptor with
  | nil => cases registered
  | append_singleton earlier last ih =>
      rw [List.foldl_concat] at registered ⊢
      obtain ⟨sound, rfl | before⟩ := sound_attempt (fun _ _ found => (ih found).2) registered
      · exact ⟨List.mem_append_right _ List.mem_cons_self, sound⟩
      · exact ⟨List.mem_append_left _ (ih before).1, sound⟩

end Registry

/-! ## Other names for relations -/

/-- The descriptor with other names for its relations, by their places. -/
def Descriptor.renamed (names : Nat → String) (descriptor : Descriptor) : Descriptor :=
  { descriptor with
    relations := descriptor.relations.mapIdx fun place spec => { spec with name := names place } }

namespace Registry

/-- The registry with other names for the relations of each kind. -/
def renamed (names : Kind → Nat → String) (registry : Registry) : Registry :=
  ⟨registry.descriptors.map fun kind descriptor => descriptor.renamed (names kind)⟩

variable {names : Kind → Nat → String}

theorem get?_renamed (registry : Registry) (kind : Kind) :
    (registry.renamed names).get? kind =
      (registry.get? kind).map (Descriptor.renamed (names kind)) :=
  Dict.get?_map ..

/-- What is tested of a relation does not depend on its name. -/
theorem logFlaw?_rename_eq_none_iff {spec : RelationSpec} {name : String} :
    logFlaw? { spec with name := name } = none ↔ logFlaw? spec = none := by
  unfold logFlaw?
  cases spec.log with
  | none => rfl
  | some log =>
      dsimp only
      split
      · rfl
      · split <;> simp

theorem fits_renamed_iff {registry : Registry} {descriptor : Descriptor} :
    (registry.renamed names).Fits (descriptor.renamed (names descriptor.kind)) ↔
      registry.Fits descriptor := by
  have unknown (kind : Kind) : (registry.renamed names).get? kind = none ↔
      registry.get? kind = none := by
    rw [get?_renamed, Option.map_eq_none_iff]
  have relations (test : RelationSpec → Prop)
      (same : ∀ spec name, test { spec with name := name } ↔ test spec) :
      (∀ spec ∈ (descriptor.renamed (names descriptor.kind)).relations, test spec) ↔
        ∀ spec ∈ descriptor.relations, test spec := by
    simp only [Descriptor.renamed, List.forall_mem_iff_getElem, List.getElem_mapIdx,
      List.length_mapIdx]
    exact forall_congr' fun _ => forall_congr' fun _ => same _ _
  have targets := relations (fun spec =>
    spec.target = descriptor.kind ∨ registry.get? spec.target ≠ none) fun _ _ => Iff.rfl
  have logs := relations (fun spec => logFlaw? spec = none) fun _ _ =>
    logFlaw?_rename_eq_none_iff
  constructor
  · intro fits
    have known := targets.mp fun spec listed =>
      (fits.targets spec listed).imp_right (mt (unknown _).mpr)
    exact ⟨fits.key, (unknown _).mp fits.free, fits.table, fits.fields, known, logs.mp fits.logs⟩
  · intro fits
    have known := fun spec listed =>
      (targets.mpr fits.targets spec listed).imp_right (mt (unknown _).mp)
    exact ⟨fits.key, (unknown _).mpr fits.free, fits.table, fits.fields, known,
      logs.mpr fits.logs⟩

theorem attempt_renamed (registry : Registry) (descriptor : Descriptor) :
    (registry.renamed names).attempt (descriptor.renamed (names descriptor.kind)) =
      (registry.attempt descriptor).renamed names := by
  by_cases fits : registry.Fits descriptor
  · rw [attempt_of_fits fits, attempt_of_fits (fits_renamed_iff.mpr fits)]
    refine congrArg Registry.mk (Dict.ext_get? fun kind => ?_)
    rw [Dict.get?_map]
    change ((registry.renamed names).descriptors.insert descriptor.kind _).get? kind = _
    by_cases same : kind = descriptor.kind
    · subst same
      rw [Dict.get?_insert_self, Dict.get?_insert_self]
      rfl
    · rw [Dict.get?_insert_of_ne _ same, Dict.get?_insert_of_ne _ same]
      exact get?_renamed registry kind
  · rw [attempt_of_not_fits fits, attempt_of_not_fits (mt fits_renamed_iff.mp fits)]

/-- The same descriptors are registered whatever their relations are called. -/
theorem ofAttempts_renamed (attempts : List Descriptor) :
    ofAttempts (attempts.map fun descriptor => descriptor.renamed (names descriptor.kind)) =
      (ofAttempts attempts).renamed names := by
  unfold ofAttempts
  induction attempts using List.reverseRecOn with
  | nil => rfl
  | append_singleton earlier last ih =>
      rw [List.map_append, List.map_singleton, List.foldl_concat, List.foldl_concat, ih,
        attempt_renamed]

end Registry

/-! ## A content under every name -/

/-- Some value of a type. -/
def FieldType.sample : FieldType → FieldValue
  | text => .text ""
  | integer => .integer 0
  | float => .float ⟨0⟩
  | boolean => .boolean false
  | timestamp => .timestamp 0
  | reference => .reference ⟨⟨0⟩⟩

theorem FieldType.type?_sample (type : FieldType) : type.sample.type? = some type := by
  cases type <;> rfl

/-- An entry that is found in a dictionary is in the list that the dictionary is made from. -/
theorem Dict.mem_of_get?_ofList {κ ν : Type} [Key κ] {entries : List (κ × ν)} {key : κ} {value : ν}
    (found : (ofList entries).get? key = some value) : (key, value) ∈ entries := by
  obtain ⟨earlier, later, rfl, _⟩ := get?_ofList_eq_some_iff.mp found
  exact List.mem_append_right earlier List.mem_cons_self

namespace Descriptor

/-- A content with a value for each field and one member, the same, under each relation. -/
def sample (descriptor : Descriptor) (member : EntityId) : Content where
  fields := .ofList (descriptor.fields.map fun spec => (spec.name, spec.type.sample))
  relations := .ofList (descriptor.relations.map fun spec => (spec.name, [member]))

variable {descriptor : Descriptor} (member : EntityId)

theorem exists_value_sample {name : String} (declared : name ∈ descriptor.fields.map FieldSpec.name) :
    ∃ value, (descriptor.sample member).fields.get? name = some value := by
  obtain ⟨spec, listed, rfl⟩ := List.mem_map.mp declared
  exact Dict.exists_get?_ofList (List.mem_map.mpr ⟨spec, listed, rfl⟩ :
    (spec.name, spec.type.sample) ∈ descriptor.fields.map fun spec => (spec.name, spec.type.sample))

theorem get?_sample_relations {name : String} :
    (descriptor.sample member).relations.get? name =
      if name ∈ descriptor.relations.map RelationSpec.name then some [member] else none := by
  split
  · rename_i declared
    obtain ⟨spec, listed, rfl⟩ := List.mem_map.mp declared
    obtain ⟨list, found⟩ := Dict.exists_get?_ofList (List.mem_map.mpr ⟨spec, listed, rfl⟩ :
      (spec.name, [member]) ∈ descriptor.relations.map fun spec => (spec.name, [member]))
    obtain ⟨_, _, same⟩ := List.mem_map.mp (Dict.mem_of_get?_ofList found)
    have only : [member] = list := congrArg Prod.snd same
    rw [only]
    exact found
  · rename_i undeclared
    refine Option.eq_none_iff_forall_ne_some.mpr fun list found => ?_
    obtain ⟨spec, listed, same⟩ := List.mem_map.mp (Dict.mem_of_get?_ofList found)
    cases same
    exact undeclared (List.mem_map.mpr ⟨spec, listed, rfl⟩)

theorem members_sample {spec : RelationSpec} (listed : spec ∈ descriptor.relations) :
    (descriptor.sample member).members spec.name = [member] :=
  Content.members_eq_of_get?
    ((get?_sample_relations member).trans (if_pos (List.mem_map.mpr ⟨spec, listed, rfl⟩)))

theorem field?_eq_of_mem (distinctNames : (descriptor.fields.map FieldSpec.name).Nodup)
    {spec : FieldSpec} (listed : spec ∈ descriptor.fields) :
    descriptor.field? spec.name = some spec := by
  have all := find?_toList_eq_filter_iff.mpr distinctNames spec.name
  have here : spec ∈ descriptor.fields.filter fun other => other.name = spec.name :=
    List.mem_filter.mpr ⟨listed, decide_eq_true rfl⟩
  rw [← all] at here
  exact Option.mem_toList.mp here

theorem check_sample (distinctNames : (descriptor.fields.map FieldSpec.name).Nodup) :
    descriptor.check (descriptor.sample member) = .ok () := by
  have sampled {name : String} {value : FieldValue}
      (found : (descriptor.sample member).fields.get? name = some value) :
      ∃ spec, descriptor.field? name = some spec ∧ value.type? = some spec.type := by
    obtain ⟨spec, listed, same⟩ := List.mem_map.mp (Dict.mem_of_get?_ofList found)
    cases same
    exact ⟨spec, field?_eq_of_mem distinctNames listed, spec.type.type?_sample⟩
  refine check_eq_ok_iff.mpr ⟨fun name value found => ?_, fun spec listed => ?_,
    fun relation list found => ?_⟩
  · obtain ⟨spec, known, typed⟩ := sampled found
    exact fieldFault?_eq_none_iff.mpr ⟨spec, known, Or.inr typed⟩
  · refine missingFault?_eq_none_iff.mpr fun _ => ?_
    obtain ⟨value, found⟩ := exists_value_sample member (List.mem_map.mpr ⟨spec, listed, rfl⟩)
    obtain ⟨_, _, typed⟩ := sampled found
    rw [Content.value, found, Option.getD_some]
    cases value <;> first | rfl | cases typed
  · refine relationFault?_eq_none_iff.mpr ?_
    rw [get?_sample_relations] at found
    split at found
    · rename_i declared
      obtain ⟨spec, listed, rfl⟩ := List.mem_map.mp declared
      exact List.find?_isSome.mpr ⟨spec, listed, decide_eq_true rfl⟩
    · cases found

/-- A record that is created with the sample has the member come under every relation. -/
theorem relations_compare_sample : (descriptor.compare none (some (descriptor.sample member))).relations =
    descriptor.relations.map fun spec => ⟨spec.name, [member], [], false⟩ := by
  have came (spec : RelationSpec) : MemberDiff.between spec.name spec.ordered [] [member] =
      ⟨spec.name, [member], [], false⟩ := by
    simp [MemberDiff.between, sameMembers, distinct]
  change descriptor.memberDiffs .empty (descriptor.sample member) = _
  have diffs : (descriptor.relations.map fun spec => MemberDiff.between spec.name spec.ordered
        (Content.empty.members spec.name) ((descriptor.sample member).members spec.name)) =
      descriptor.relations.map fun spec => ⟨spec.name, [member], [], false⟩ := by
    refine List.map_congr_left fun spec listed => ?_
    rw [members_sample member listed]
    exact came spec
  rw [memberDiffs, diffs]
  refine List.filter_eq_self.mpr fun diff isDiff => ?_
  obtain ⟨_, _, rfl⟩ := List.mem_map.mp isDiff
  rfl

/-- Each relation whose links have a history has an event of its own. -/
theorem linkEvents_sample :
    (descriptor.linkEvents (descriptor.compare none (some (descriptor.sample member)))).map
        LinkEvent.relation =
      (descriptor.relations.filter fun spec => spec.log.isSome).map RelationSpec.name := by
  have events (spec : RelationSpec) (listed : spec ∈ descriptor.relations) :
      (Change.eventsOf (descriptor.compare none (some (descriptor.sample member))) spec).map
          LinkEvent.relation = if spec.log.isSome then [spec.name] else [] := by
    have found : ∃ other, (descriptor.compare none (some (descriptor.sample member))).relation?
        spec.name = some ⟨other, [member], [], false⟩ := by
      have there : ((descriptor.compare none (some (descriptor.sample member))).relation?
          spec.name).isSome = true := by
        rw [Change.relation?, relations_compare_sample, List.find?_isSome]
        exact ⟨_, List.mem_map.mpr ⟨spec, listed, rfl⟩, decide_eq_true rfl⟩
      obtain ⟨diff, given⟩ := Option.isSome_iff_exists.mp there
      have isDiff := List.mem_of_find?_eq_some given
      rw [relations_compare_sample] at isDiff
      obtain ⟨other, _, rfl⟩ := List.mem_map.mp isDiff
      exact ⟨other.name, given⟩
    obtain ⟨other, given⟩ := found
    rw [Change.eventsOf, given]
    cases spec.log <;> rfl
  rw [linkEvents_eq, List.map_flatMap, List.flatMap_congr events]
  induction descriptor.relations with
  | nil => rfl
  | cons first rest ih =>
      rw [List.flatMap_cons, ih]
      cases logged : first.log.isSome <;> simp [logged]

theorem member_of_linkEvents_sample {event : LinkEvent}
    (listed : event ∈ descriptor.linkEvents
      (descriptor.compare none (some (descriptor.sample member)))) : event.member = member := by
  rw [linkEvents_eq, List.mem_flatMap] at listed
  obtain ⟨spec, _, found⟩ := listed
  obtain ⟨_, _, diff, given, there⟩ := Change.mem_eventsOf_iff.mp found
  have isDiff := List.mem_of_find?_eq_some given
  rw [relations_compare_sample] at isDiff
  obtain ⟨_, _, rfl⟩ := List.mem_map.mp isDiff
  cases linked : event.linked with
  | true =>
      rw [linked] at there
      exact List.mem_singleton.mp there
  | false =>
      rw [linked] at there
      cases there

/-! ## What names have to be different for -/

/-- For each use of names, which of them have to be different if there is to be one declaration
behind each name, whatever is stored before and whichever accepted content is written then. -/
structure NameUse (descriptor : Descriptor) : Prop where
  /-- Each field is the only one under its name. -/
  field : ∀ name, (descriptor.field? name).toList =
    descriptor.fields.filter fun spec => spec.name = name
  relation : (∀ name, (descriptor.relation? name).toList =
      descriptor.relations.filter fun spec => spec.name = name) ↔
    (descriptor.relations.map RelationSpec.name).Nodup
  /-- A change has one difference at most under a name. -/
  change : (∀ before after, (∀ content ∈ after, descriptor.check content = .ok ()) →
      ((descriptor.compare before after).relations.map MemberDiff.relation).Nodup) ↔
    (descriptor.relations.map RelationSpec.name).Nodup
  /-- A member that comes or leaves under a name is written down once. -/
  link : (∀ before after, (∀ content ∈ after, descriptor.check content = .ok ()) →
      ((descriptor.linkEvents (descriptor.compare before after)).map
        fun event => (event.relation, event.member)).Nodup) ↔
    ((descriptor.relations.filter fun spec => spec.log.isSome).map RelationSpec.name).Nodup
  /-- A flat object has a member of its own for each field and each list. -/
  object : (∀ content, descriptor.check content = .ok () →
      ((content.jsonMembers none none).map Prod.fst).Nodup) ↔
    (descriptor.fields.map FieldSpec.name).Disjoint (descriptor.relations.map RelationSpec.name)

theorem change_nodup_iff (distinctNames : (descriptor.fields.map FieldSpec.name).Nodup) :
    (∀ before after, (∀ content ∈ after, descriptor.check content = .ok ()) →
      ((descriptor.compare before after).relations.map MemberDiff.relation).Nodup) ↔
    (descriptor.relations.map RelationSpec.name).Nodup := by
  constructor
  · intro once
    have sampled := once none (some (descriptor.sample ⟨⟨0⟩⟩)) fun content same => by
      cases same
      exact check_sample ⟨⟨0⟩⟩ distinctNames
    rw [relations_compare_sample, List.map_map] at sampled
    exact sampled
  · intro different before after _
    by_cases nothing : before = none ∧ after = none
    · obtain ⟨rfl, rfl⟩ := nothing
      exact List.nodup_nil
    · rw [relations_compare fun absent missing => nothing ⟨absent, missing⟩]
      exact (memberDiffs_sublist ..).nodup different

theorem links_nodup_iff (distinctNames : (descriptor.fields.map FieldSpec.name).Nodup) :
    (∀ before after, (∀ content ∈ after, descriptor.check content = .ok ()) →
      ((descriptor.linkEvents (descriptor.compare before after)).map
        fun event => (event.relation, event.member)).Nodup) ↔
    ((descriptor.relations.filter fun spec => spec.log.isSome).map RelationSpec.name).Nodup := by
  constructor
  · intro once
    have sampled := once none (some (descriptor.sample ⟨⟨0⟩⟩)) fun content same => by
      cases same
      exact check_sample ⟨⟨0⟩⟩ distinctNames
    -- all events of the sample are about one member, so their relations are different
    rw [← linkEvents_sample ⟨⟨0⟩⟩]
    refine List.pairwise_map.mpr ((List.pairwise_map.mp sampled).imp_of_mem ?_)
    intro first second firstListed secondListed apart same
    refine apart (Prod.ext same ?_)
    rw [member_of_linkEvents_sample _ firstListed, member_of_linkEvents_sample _ secondListed]
  · intro different before after _
    rw [linkEvents_eq]
    refine List.pairwise_map.mpr (List.pairwise_flatMap.mpr ⟨fun spec _ => ?_, ?_⟩)
    · exact eventsOf_compare_nodup.imp fun apart same => apart (congrArg Prod.snd same)
    · refine (List.pairwise_filter.mp (List.pairwise_map.mp different)).imp ?_
      intro spec other apart first found second otherFound same
      obtain ⟨logged, named, _⟩ := Change.mem_eventsOf_iff.mp found
      obtain ⟨otherLogged, otherNamed, _⟩ := Change.mem_eventsOf_iff.mp otherFound
      refine apart (by rw [logged]; rfl) (by rw [otherLogged]; rfl) ?_
      rw [← named, ← otherNamed]
      exact congrArg Prod.fst same

theorem object_nodup_iff (distinctNames : (descriptor.fields.map FieldSpec.name).Nodup) :
    (∀ content, descriptor.check content = .ok () →
      ((content.jsonMembers none none).map Prod.fst).Nodup) ↔
    (descriptor.fields.map FieldSpec.name).Disjoint
      (descriptor.relations.map RelationSpec.name) := by
  have names (content : Content) : (content.jsonMembers none none).map Prod.fst =
      content.fields.keys ++ content.relations.keys := by
    simp [Content.jsonMembers, Dict.keys, Function.comp_def]
  have ascending {ν : Type} (dict : Dict String ν) : dict.keys.Nodup :=
    dict.keys_sorted.imp fun before => Key.ne_of_before before
  constructor
  · intro once name isField isRelation
    have sampled := once _ (check_sample ⟨⟨0⟩⟩ distinctNames)
    rw [names, List.nodup_append] at sampled
    refine sampled.2.2 name ?_ name ?_ rfl
    · exact (Dict.mem_keys_iff _).mpr (exists_value_sample _ isField)
    · exact (Dict.mem_keys_iff _).mpr ⟨_, (get?_sample_relations _).trans (if_pos isRelation)⟩
  · intro apart content accepted
    rw [names, List.nodup_append]
    refine ⟨ascending _, ascending _, ?_⟩
    rintro name inFields _ inRelations rfl
    obtain ⟨value, found⟩ := (Dict.mem_keys_iff _).mp inFields
    obtain ⟨list, listed⟩ := (Dict.mem_keys_iff _).mp inRelations
    obtain ⟨_, isField, _⟩ := field?_of_check accepted found
    obtain ⟨_, isRelation⟩ := relation?_of_check accepted listed
    exact apart (mem_of_field? isField) (mem_of_relation? isRelation)

theorem nameUse (distinctNames : (descriptor.fields.map FieldSpec.name).Nodup) :
    descriptor.NameUse where
  field := find?_toList_eq_filter_iff.mpr distinctNames
  relation := find?_toList_eq_filter_iff
  change := change_nodup_iff distinctNames
  link := links_nodup_iff distinctNames
  object := object_nodup_iff distinctNames

/-- No name stands for two declarations. -/
structure Unambiguous (descriptor : Descriptor) : Prop where
  fields : (descriptor.fields.map FieldSpec.name).Nodup
  relations : (descriptor.relations.map RelationSpec.name).Nodup
  apart : (descriptor.fields.map FieldSpec.name).Disjoint
    (descriptor.relations.map RelationSpec.name)

end Descriptor

/-! ## Names in a registry -/

namespace Registry

/-- Whatever has been tried: a registered descriptor is one of those that were tried, it is sound,
so its fields have different names, and of its relations it is known what goes by one name. But the
names of relations decide nothing: with any others the same is registered under them. -/
theorem registered_names (attempts : List Descriptor) :
    (∀ kind descriptor, (ofAttempts attempts).get? kind = some descriptor →
      descriptor ∈ attempts ∧ (ofAttempts attempts).Sound kind descriptor ∧
        descriptor.NameUse) ∧
    ∀ names : Kind → Nat → String,
      ofAttempts (attempts.map fun descriptor => descriptor.renamed (names descriptor.kind)) =
        (ofAttempts attempts).renamed names := by
  refine ⟨fun kind descriptor registered => ?_, fun names => ofAttempts_renamed attempts⟩
  obtain ⟨tried, sound⟩ := sound_ofAttempts registered
  exact ⟨tried, sound, Descriptor.nameUse sound.fields⟩

end Registry

/-- Stories with attributes under two relations that go by the name of a field. -/
def Descriptor.tagged : Descriptor where
  kind := .story
  historyTable := "story_history"
  key := .surrogate
  fields := [⟨"title", .text, true⟩, ⟨"tags", .text, false⟩]
  relations := [
    ⟨"tags", .attr, false, some ⟨"story_tag_history", "story_version", "tag_version"⟩⟩,
    ⟨"tags", .attr, false, some ⟨"story_tag_history", "story_version", "tag_version"⟩⟩]

/-- Two names, by place. -/
def Descriptor.tagNames : Nat → String
  | 0 => "own"
  | _ => "other"

/-- A story with a text and an attribute under one name. -/
def Content.labelled : Content where
  fields := .ofList [("title", .text "rain"), ("tags", .text "wet")]
  relations := .ofList [("tags", [⟨⟨1⟩⟩])]

namespace Registry

/-- A kind with ambiguous names is registered, like one with other names. An attribute that comes is
told and written down twice, and the text does not show in the flat object. -/
theorem registered_names_tagged :
    (ofAttempts [.attr, .tagged, .story]).get? .story = some .tagged ∧
    (ofAttempts [.attr, .tagged, .story]).Sound .story .tagged ∧
    Descriptor.tagged.NameUse ∧
    (ofAttempts (([.attr, .tagged, .story] : List Descriptor).map fun descriptor =>
      descriptor.renamed Descriptor.tagNames)).get? .story =
        some (Descriptor.tagged.renamed Descriptor.tagNames) ∧
    Descriptor.tagged.check .labelled = .ok () ∧
    (Descriptor.tagged.compare none (some .labelled)).relations =
      [⟨"tags", [⟨⟨1⟩⟩], [], false⟩, ⟨"tags", [⟨⟨1⟩⟩], [], false⟩] ∧
    (Descriptor.tagged.linkEvents (Descriptor.tagged.compare none (some .labelled))).map
      (fun event => (event.relation, event.member)) = [("tags", ⟨⟨1⟩⟩), ("tags", ⟨⟨1⟩⟩)] ∧
    Content.toJson none none .labelled =
      Content.toJson none none { Content.labelled with fields := .ofList [("title", .text "rain")] } := by
  have registered : (ofAttempts [.attr, .tagged, .story]).get? .story = some .tagged := by
    decide +kernel
  obtain ⟨known, renamed⟩ := registered_names [.attr, .tagged, .story]
  obtain ⟨_, sound, use⟩ := known .story .tagged registered
  refine ⟨registered, sound, use, ?_, by decide +kernel, by decide +kernel, by decide +kernel, rfl⟩
  rw [renamed fun _ => Descriptor.tagNames, get?_renamed, registered]
  rfl

/-- What has been registered may be ambiguous. -/
theorem not_registered_unambiguous :
    ¬ ∀ (attempts : List Descriptor) (kind : Kind) (descriptor : Descriptor),
      (ofAttempts attempts).get? kind = some descriptor → descriptor.Unambiguous := by
  intro unambiguous
  have clear := unambiguous [.attr, .tagged] .story .tagged (by decide +kernel)
  exact absurd clear.relations (by decide)

end Registry

end Chronicle
