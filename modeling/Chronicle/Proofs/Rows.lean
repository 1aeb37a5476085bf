import Chronicle.Commit
import Chronicle.Proofs.Standard

/-!
# What is written into the row of a record

A version of a record replaces its row. If what was stored and what is proposed have
members only under declared relations, the row gets the canonical form of the proposed
content (`writeRow_eq_ok`), and reading it gives just that (`load_eq_content`).
-/

namespace Chronicle

namespace Store

/-! ## Rows -/

@[simp] theorem row?_setRow_self (store : Store) (id : EntityId) (row : EntityRow) :
    (store.setRow id row).row? id = some row :=
  Dict.get?_insert_self _ _ _

theorem row?_setRow_of_ne (store : Store) {id other : EntityId} (different : other ≠ id)
    (row : EntityRow) : (store.setRow id row).row? other = store.row? other :=
  Dict.get?_insert_of_ne _ different _

@[simp] theorem setRow_setRow (store : Store) (id : EntityId) (first second : EntityRow) :
    (store.setRow id first).setRow id second = store.setRow id second := by
  have entities : (store.entities.insert id first).insert id second =
      store.entities.insert id second := by
    refine Dict.ext_get? fun other => ?_
    by_cases same : other = id
    · rw [same, Dict.get?_insert_self, Dict.get?_insert_self]
    · rw [Dict.get?_insert_of_ne _ same, Dict.get?_insert_of_ne _ same, Dict.get?_insert_of_ne _ same]
  simp only [setRow, entities]

theorem setRow_of_row? {store : Store} {id : EntityId} {row : EntityRow}
    (found : store.row? id = some row) : store.setRow id row = store := by
  have entities : store.entities.insert id row = store.entities := by
    refine Dict.ext_get? fun other => ?_
    by_cases here : other = id
    · rw [here, Dict.get?_insert_self]
      exact found.symm
    · rw [Dict.get?_insert_of_ne _ here]
  rw [setRow, entities]

/-- A record is an owner of the members that its row lists. -/
theorem mem_owners_iff {store : Store} {member owner : EntityId} {relation : String} :
    owner ∈ store.owners member relation ↔
      ∃ row, store.row? owner = some row ∧ member ∈ row.content.members relation := by
  simp only [owners, Dict.mem_keys_iff, Dict.get?_filter, Option.filter_eq_some_iff,
    decide_eq_true_eq, row?]

end Store

namespace Content

/-- The lists of a record after one of them has been replaced. -/
def replaceList (lists : Dict String (List EntityId)) (relation : String)
    (members : List EntityId) : Dict String (List EntityId) :=
  if members = [] then lists.erase relation else lists.insert relation (distinct members)

/-- What is stored when a content is written where another one was stored. -/
def replacedBy (old : Content) (descriptor : Descriptor) (new : Content) : Content where
  fields := new.fields.filter fun _ value => !value.isNull
  relations := descriptor.relations.foldl
    (fun lists spec => replaceList lists spec.name (new.members spec.name)) old.relations

theorem get?_replaceList (lists : Dict String (List EntityId)) (relation other : String)
    (members : List EntityId) : (replaceList lists relation members).get? other =
      if other = relation then if members = [] then none else some (distinct members)
      else lists.get? other := by
  unfold replaceList
  by_cases same : other = relation
  · subst same
    by_cases none : members = [] <;> simp [none]
  · by_cases none : members = []
    · simp [none, same, Dict.get?_erase_of_ne _ same]
    · simp [none, same, Dict.get?_insert_of_ne _ same]

theorem get?_foldl_replaceList (specs : List RelationSpec) (new : Content)
    (lists : Dict String (List EntityId)) (relation : String) :
    (specs.foldl (fun lists spec => replaceList lists spec.name (new.members spec.name))
        lists).get? relation =
      if relation ∈ specs.map RelationSpec.name then
        if new.members relation = [] then none else some (distinct (new.members relation))
      else lists.get? relation := by
  induction specs generalizing lists with
  | nil => rfl
  | cons first rest ih =>
      rw [List.foldl_cons, ih, get?_replaceList, List.map_cons]
      by_cases later : relation ∈ rest.map RelationSpec.name
      · rw [if_pos later, if_pos (List.mem_cons_of_mem _ later)]
      · by_cases here : relation = first.name
        · subst here
          simp
        · simp [later, here]

/-- No relation but a declared one has members. -/
theorem members_eq_nil_of_undeclared {descriptor : Descriptor} {content : Content}
    (declared : descriptor.Declares content) {relation : String}
    (unknown : (descriptor.relation? relation).isSome ≠ true) : content.members relation = [] :=
  List.eq_nil_iff_forall_not_mem.mpr fun member listed => unknown (declared relation member listed)

/-- What is stored under a relation once a content has been written. -/
theorem get?_replacedBy_relations (old : Content) (descriptor : Descriptor) (new : Content)
    (relation : String) : (old.replacedBy descriptor new).relations.get? relation =
      if (descriptor.relation? relation).isSome = true then
        if new.members relation = [] then none else some (distinct (new.members relation))
      else old.relations.get? relation := by
  rw [replacedBy, get?_foldl_replaceList]
  simp only [Descriptor.isSome_relation?_iff]

/-- Writing leaves nothing of what was stored, if that had members only where the descriptor
declares a relation. -/
theorem replacedBy_eq_canonical {descriptor : Descriptor} {old new : Content}
    (canonical : old.IsCanonical) (oldDeclared : descriptor.Declares old)
    (newDeclared : descriptor.Declares new) : old.replacedBy descriptor new = new.canonical := by
  have relations : (old.replacedBy descriptor new).relations = new.canonical.relations := by
    refine Dict.ext_get? fun relation => ?_
    rw [get?_replacedBy_relations, get?_canonical_relations]
    split
    · rfl
    · rename_i unknown
      rw [canonical.get?_relations, members_eq_nil_of_undeclared oldDeclared unknown,
        members_eq_nil_of_undeclared newDeclared unknown]
      rfl
  rw [show old.replacedBy descriptor new =
    ⟨new.canonical.fields, (old.replacedBy descriptor new).relations⟩ from rfl, relations]

end Content

namespace Store

/-! ## Writing -/

section Writing

variable {store after : Store} {descriptor : Descriptor} {id : EntityId} {row : EntityRow}

theorem replaceMembers_eq (found : store.row? id = some row) (relation : String)
    (members : List EntityId) :
    store.replaceMembers id relation members = .ok (store.setRow id { row with
      content := { row.content with
        relations := Content.replaceList row.content.relations relation members } }) := by
  rw [replaceMembers, found]
  rfl

theorem foldlM_replaceMembers_eq (found : store.row? id = some row) (specs : List RelationSpec)
    (content : Content) :
    specs.foldlM (fun store spec => store.replaceMembers id spec.name (content.members spec.name))
        store = .ok (store.setRow id { row with
      content := { row.content with
        relations := specs.foldl (fun lists spec =>
          Content.replaceList lists spec.name (content.members spec.name))
          row.content.relations } }) := by
  induction specs generalizing store row with
  | nil =>
      exact congrArg Except.ok (setRow_of_row? found).symm
  | cons first rest ih =>
      rw [List.foldlM_cons, replaceMembers_eq found, List.foldl_cons]
      change List.foldlM _ (store.setRow id _) rest = _
      rw [ih (row?_setRow_self store id _), setRow_setRow]

/-- Writing a content touches the content of the row alone. -/
theorem replaceContent_eq (found : store.row? id = some row) (content : Content) :
    store.replaceContent descriptor id content =
      .ok (store.setRow id { row with content := row.content.replacedBy descriptor content }) := by
  rw [replaceContent, replaceFields, found]
  change List.foldlM _ (store.setRow id _) descriptor.relations = _
  rw [foldlM_replaceMembers_eq (row?_setRow_self store id _), setRow_setRow]
  rfl

theorem setVersion_eq_ok (found : store.row? id = some row) {version : Nat} {now : Int64} :
    store.setVersion id version now = .ok after ↔
      (0 < version ∧ version < versionLimit) ∧
        after = store.setRow id { row with version := version, updatedAt := now } := by
  simp only [setVersion, bind_eq_ok, VersionColumn.check, found]
  constructor
  · rintro ⟨_, inRange, written⟩
    split at inRange
    · rename_i bounded
      split at written
      · cases written
      · rename_i positive
        exact ⟨⟨Nat.pos_of_ne_zero positive, bounded⟩, (Except.ok.inj written).symm⟩
    · cases inRange
  · rintro ⟨⟨positive, bounded⟩, rfl⟩
    refine ⟨(), if_pos bounded, ?_⟩
    rw [if_neg (Nat.ne_of_gt positive)]

end Writing

end Store

/-- The row that a record has with a version: with the canonical form of its content. -/
def EntityRow.next (previous : Option EntityRow) (kind : Kind) (version : Nat) (content : Content)
    (deleted : Bool) (now : Int64) : EntityRow where
  kind := kind
  version := version
  createdAt := (previous.map EntityRow.createdAt).getD now
  updatedAt := now
  deleted := deleted
  content := content.canonical

/-- What is known of the row of a record that may get another version: it is live, of the
kind, and has the canonical form. -/
structure EntityRow.Open (row : EntityRow) (kind : Kind) : Prop where
  kind_eq : row.kind = kind
  live : row.deleted = false
  canonical : row.content.IsCanonical
  declared : (Descriptor.standard kind).Declares row.content

theorem Content.isCanonical_empty : Content.empty.IsCanonical := rfl

namespace Store

/-- Opening a row and writing a content to it comes down to setting the version of a row that has
the content. -/
theorem writeRow_eq {store : Store} {kind : Kind} {id : EntityId} {content : Content}
    {change : ChangeKind} (fits : ∀ row, store.row? id = some row → row.Open kind)
    (created : change = .created ↔ store.row? id = none)
    (declared : (Descriptor.standard kind).Declares content) (version : Nat) (now : Int64) :
    ∃ opened, store.writeRow (.standard kind) id version content change now =
        (store.setRow id opened).setVersion id version now ∧
      { opened with version := version, updatedAt := now } =
        EntityRow.next (store.row? id) kind version content (decide (change = .deleted)) now := by
  have written (opened : EntityRow)
      (opens : store.openRow (.standard kind) id change now = .ok (store.setRow id opened))
      (canonical : opened.content.IsCanonical)
      (openedDeclared : (Descriptor.standard kind).Declares opened.content) :
      store.writeRow (.standard kind) id version content change now =
        (store.setRow id { opened with content := content.canonical }).setVersion id version
          now := by
    rw [writeRow, opens]
    change ((store.setRow id opened).replaceContent (.standard kind) id content >>= _) = _
    rw [replaceContent_eq (row?_setRow_self store id opened),
      Content.replacedBy_eq_canonical canonical openedDeclared declared, setRow_setRow]
    rfl
  cases found : store.row? id with
  | none =>
      have change_eq : change = .created := created.mpr found
      subst change_eq
      refine ⟨_, written ⟨kind, 1, now, now, false, .empty⟩ ?_ Content.isCanonical_empty
        (fun relation member listed => absurd listed List.not_mem_nil), rfl⟩
      rw [openRow, insertEntity, found, Descriptor.standard_kind]
  | some row =>
      have notCreated : change ≠ .created := fun same => by
        rw [created.mp same] at found
        cases found
      obtain ⟨rfl, live, canonical, openDeclared⟩ := fits row found
      by_cases deleted : change = .deleted
      · subst deleted
        refine ⟨_, written { row with deleted := true, updatedAt := now } ?_ canonical openDeclared,
          rfl⟩
        rw [openRow, markDeleted, found]
      · refine ⟨_, written row ?_ canonical openDeclared, ?_⟩
        · rw [setRow_of_row? found]
          cases change with
          | created => exact absurd rfl notCreated
          | deleted => exact absurd rfl deleted
          | noChange | fieldChange | relationChange => rfl
        · simp only [EntityRow.next, deleted, decide_false, live, Option.map_some, Option.getD_some]

/-- A version replaces the row of its record, and touches nothing else. -/
theorem writeRow_eq_ok {store after : Store} {kind : Kind} {id : EntityId} {version : Nat}
    {content : Content} {change : ChangeKind} {now : Int64}
    (fits : ∀ row, store.row? id = some row → row.Open kind)
    (created : change = .created ↔ store.row? id = none)
    (declared : (Descriptor.standard kind).Declares content) :
    store.writeRow (.standard kind) id version content change now = .ok after ↔
      (0 < version ∧ version < versionLimit) ∧
        after = store.setRow id (EntityRow.next (store.row? id) kind version content
          (decide (change = .deleted)) now) := by
  obtain ⟨opened, written, row⟩ := writeRow_eq fits created declared version now
  rw [written, setVersion_eq_ok (row?_setRow_self store id opened), setRow_setRow, row]

/-- A version that is out of range is not written. -/
theorem writeRow_of_beyond {store : Store} {kind : Kind} {id : EntityId} {version : Nat}
    {content : Content} {change : ChangeKind} {now : Int64}
    (fits : ∀ row, store.row? id = some row → row.Open kind)
    (created : change = .created ↔ store.row? id = none)
    (declared : (Descriptor.standard kind).Declares content) (beyond : ¬ version < versionLimit) :
    store.writeRow (.standard kind) id version content change now =
      .error (.outOfRange .version version) := by
  obtain ⟨opened, written, _⟩ := writeRow_eq fits created declared version now
  rw [written, setVersion, VersionColumn.check, if_neg beyond]
  rfl

/-- Reading a record of a standard kind gives what its row holds. -/
theorem load_eq_content {store : Store} {id : EntityId} {row : EntityRow}
    (found : store.row? id = some row) (canonical : row.content.IsCanonical)
    (declared : (Descriptor.standard row.kind).Declares row.content) :
    store.load (.standard row.kind) id = row.content := by
  have relations : (row.content.relations.filter fun relation _ =>
      ((Descriptor.standard row.kind).relation? relation).isSome) = row.content.relations := by
    refine Dict.ext_get? fun relation => ?_
    rw [Dict.get?_filter]
    cases listed : row.content.relations.get? relation with
    | none => rfl
    | some list =>
        have members := canonical.get?_relations relation
        rw [listed] at members
        obtain ⟨member, found⟩ : ∃ member, member ∈ row.content.members relation := by
          refine List.exists_mem_of_ne_nil _ fun none => ?_
          rw [if_pos none] at members
          cases members
        rw [Option.filter, if_pos (declared relation member found)]
  rw [load, found]
  simp only [relations]

/-- Reading a record gives the canonical form of the content that has been written, whatever was
stored before it. -/
theorem load_of_replacedBy {store : Store} {descriptor : Descriptor} {id : EntityId}
    {row : EntityRow} (found : store.row? id = some row) {old new : Content}
    (written : row.content = old.replacedBy descriptor new) (declared : descriptor.Declares new) :
    store.load descriptor id = new.canonical := by
  have relations : ((old.replacedBy descriptor new).relations.filter fun relation _ =>
      (descriptor.relation? relation).isSome) = new.canonical.relations := by
    refine Dict.ext_get? fun relation => ?_
    rw [Dict.get?_filter, Content.get?_replacedBy_relations, Content.get?_canonical_relations]
    split
    · rename_i known
      rw [known]
      split
      · rfl
      · rfl
    · rename_i unknown
      rw [Content.members_eq_nil_of_undeclared declared unknown, if_pos rfl,
        Bool.eq_false_iff.mpr unknown]
      cases old.relations.get? relation <;> rfl
  rw [load, found]
  simp only [written, relations]
  rfl

end Store

end Chronicle
