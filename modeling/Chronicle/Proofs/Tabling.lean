import Chronicle.Proofs.Placing

/-!
# Contents as they are read back

A content that is written to a record is read back in its canonical form, and the record is among
the owners of the members that the content lists; nothing else that can be read changes
(`Readings.Takes`). This holds of the contents of a store, and of rows whatever they were before.
Rows that hold what a store has (`ContentTables.Holds`) give the same readings, and every write is
refused by both or leaves rows that hold what the store has then.
-/

namespace Chronicle

/-! ## Readings -/

/-- What is read: the contents of records, with the relations that a descriptor declares, and the
owners of a member under a relation. -/
structure Readings where
  load : Descriptor → EntityId → Content
  owners : EntityId → String → List EntityId

def Store.readings (store : Store) : Readings := ⟨store.load, store.owners⟩

def ContentTables.readings (tables : ContentTables) : Readings := ⟨tables.load, tables.owners⟩

/-- A content has been written to a record and to nothing else. -/
structure Readings.Takes (before after : Readings) (descriptor : Descriptor) (id : EntityId)
    (content : Content) : Prop where
  canonical : after.load descriptor id = content.canonical
  elsewhere : ∀ other, other ≠ id → ∀ reader, after.load reader other = before.load reader other
  owns : ∀ relation, (descriptor.relation? relation).isSome = true → ∀ member,
    (id ∈ after.owners member relation ↔ member ∈ content.members relation)
  otherOwners : ∀ other, other ≠ id → ∀ member relation,
    (other ∈ after.owners member relation ↔ other ∈ before.owners member relation)
  undeclared : ∀ relation, (descriptor.relation? relation).isSome = false → ∀ member,
    after.owners member relation = before.owners member relation
  /-- Owners come in ascending order, each once. -/
  sorted : ∀ member relation,
    (after.owners member relation).Pairwise fun first second => Key.before first second = true

/-- It is enough to know who owns a member afterwards. -/
theorem Readings.takes_of_mem_owners {before after : Readings} {descriptor : Descriptor}
    {id : EntityId} {content : Content} (canonical : after.load descriptor id = content.canonical)
    (elsewhere : ∀ other, other ≠ id → ∀ reader, after.load reader other = before.load reader other)
    (sortedBefore : ∀ member relation,
      (before.owners member relation).Pairwise fun first second => Key.before first second = true)
    (sorted : ∀ member relation,
      (after.owners member relation).Pairwise fun first second => Key.before first second = true)
    (owners : ∀ other member relation, other ∈ after.owners member relation ↔
      if other = id ∧ (descriptor.relation? relation).isSome = true then
        member ∈ content.members relation
      else other ∈ before.owners member relation) :
    before.Takes after descriptor id content := by
  refine ⟨canonical, elsewhere, fun relation declared member => ?_, fun other different member
    relation => ?_, fun relation undeclared member => ?_, sorted⟩
  · rw [owners, if_pos ⟨rfl, declared⟩]
  · rw [owners, if_neg fun both => different both.1]
  · refine eq_of_sorted (sorted member relation) (sortedBefore member relation) fun other => ?_
    rw [owners, if_neg]
    rintro ⟨_, declared⟩
    rw [undeclared] at declared
    cases declared

/-! ## Readings of a store -/

namespace Store

variable {store : Store} {descriptor : Descriptor} {id : EntityId}

/-- The content of a record, or an empty one. -/
def contentOf (store : Store) (id : EntityId) : Content :=
  ((store.row? id).map EntityRow.content).getD .empty

theorem contentOf_of_row? {row : EntityRow} (found : store.row? id = some row) :
    store.contentOf id = row.content := by
  rw [contentOf, found]
  rfl

theorem contentOf_of_missing (missing : store.row? id = none) : store.contentOf id = .empty := by
  rw [contentOf, missing]
  rfl

theorem contentOf_setRow_of_ne {other : EntityId} (different : other ≠ id) {row : EntityRow} :
    (store.setRow id row).contentOf other = store.contentOf other := by
  rw [contentOf, row?_setRow_of_ne _ different, contentOf]

theorem load_eq_contentOf (store : Store) (descriptor : Descriptor) (id : EntityId) :
    store.load descriptor id = ⟨(store.contentOf id).fields,
      (store.contentOf id).relations.filter fun name _ => (descriptor.relation? name).isSome⟩ := by
  cases found : store.row? id with
  | none =>
      rw [load, found, contentOf_of_missing found]
      rfl
  | some row => rw [load, found, contentOf_of_row? found]

theorem mem_owners_iff_contentOf {member owner : EntityId} {relation : String} :
    owner ∈ store.owners member relation ↔ member ∈ (store.contentOf owner).members relation := by
  rw [mem_owners_iff]
  cases found : store.row? owner with
  | none => simp [contentOf_of_missing found, Content.members, Content.empty]
  | some row => simp [contentOf_of_row? found]

theorem mem_members_replacedBy {old new : Content} {relation : String} {member : EntityId} :
    member ∈ (old.replacedBy descriptor new).members relation ↔
      if (descriptor.relation? relation).isSome = true then member ∈ new.members relation
      else member ∈ old.members relation := by
  rw [Content.members, Content.get?_replacedBy_relations]
  split
  · split
    · rename_i none
      simp [none]
    · simp
  · rfl

/-- Writing a content to a record of a store. -/
theorem takes_setRow {row : EntityRow} (found : store.row? id = some row) {content : Content}
    (declared : descriptor.Declares content) :
    store.readings.Takes (store.setRow id { row with
      content := row.content.replacedBy descriptor content }).readings descriptor id content := by
  refine Readings.takes_of_mem_owners (load_of_replacedBy (row?_setRow_self ..) rfl declared)
    (fun other different reader => ?_) (fun _ _ => Dict.keys_sorted _) (fun _ _ => Dict.keys_sorted _)
    fun other member relation => ?_
  · change load _ reader other = load _ reader other
    rw [load_eq_contentOf, contentOf_setRow_of_ne different, load_eq_contentOf]
  · change other ∈ owners _ member relation ↔ if _ then _ else other ∈ owners _ member relation
    rw [mem_owners_iff_contentOf, mem_owners_iff_contentOf]
    by_cases own : other = id
    · subst own
      rw [contentOf_of_row? (row?_setRow_self ..), contentOf_of_row? found, mem_members_replacedBy]
      simp
    · rw [contentOf_setRow_of_ne own, if_neg fun both => own both.1]

end Store

/-! ## Readings of rows -/

namespace ContentTables

variable {tables after : ContentTables} {descriptor : Descriptor} {id : EntityId}

theorem load_congr (values : ∀ name, after.values.get? (id, name) = tables.values.get? (id, name))
    (lists : ∀ relation, after.membersOf id relation = tables.membersOf id relation)
    (descriptor : Descriptor) : after.load descriptor id = tables.load descriptor id := by
  have fields : after.fieldsOf id = tables.fieldsOf id :=
    Dict.ext_get? fun name => by rw [get?_fieldsOf, get?_fieldsOf, values]
  simp only [load, fields, lists]

namespace Rewritten

variable {content : Content} (rewritten : tables.Rewritten after descriptor id content)

include rewritten

theorem membersOf_eq {relation : String} (known : (descriptor.relation? relation).isSome = true) :
    after.membersOf id relation = distinct (content.members relation) :=
  membersOf_eq_distinct fun member => by rw [rewritten.places, if_pos ⟨rfl, known⟩]

theorem load_eq_canonical (declared : descriptor.Declares content) :
    after.load descriptor id = content.canonical := by
  have fields : after.fieldsOf id = content.canonical.fields :=
    Dict.ext_get? fun name => by rw [get?_fieldsOf, rewritten.values, if_pos rfl]
  have relations : (after.load descriptor id).relations = content.canonical.relations := by
    refine Dict.ext_get? fun relation => ?_
    rw [get?_load_relations, Content.get?_canonical_relations]
    by_cases known : (descriptor.relation? relation).isSome = true
    · by_cases none : content.members relation = [] <;>
        simp [known, rewritten.membersOf_eq known, none, distinct_eq_nil_iff]
    · simp [known, Content.members_eq_nil_of_undeclared declared known]
  rw [show after.load descriptor id = ⟨after.fieldsOf id, (after.load descriptor id).relations⟩
    from rfl, fields, relations]

/-- Rows that have been rewritten are read as the content, and all others as before. -/
theorem takes (declared : descriptor.Declares content) :
    tables.readings.Takes after.readings descriptor id content := by
  refine Readings.takes_of_mem_owners (rewritten.load_eq_canonical declared)
    (fun other different reader => ?_) (owners_sorted _) (owners_sorted _)
    fun other member relation => ?_
  · refine load_congr (fun name => ?_) (fun relation => membersOf_congr fun member => ?_) reader
    · rw [rewritten.values, if_neg different]
    · rw [rewritten.places, if_neg fun both => different both.1]
  · change other ∈ after.owners member relation ↔ if _ then _ else other ∈ tables.owners member relation
    rw [mem_owners_iff, mem_owners_iff, rewritten.places]
    split
    · simp [firstPlace?]
    · rfl

end Rewritten

end ContentTables

/-! ## Rows of a store -/

/-- The rows hold what a store has: the same records, their values, and their lists in the order of
the places. -/
structure ContentTables.Holds (tables : ContentTables) (store : Store) : Prop where
  records : ∀ id, id ∈ tables.records ↔ (store.row? id).isSome = true
  values : ∀ id name, tables.values.get? (id, name) = (store.contentOf id).fields.get? name
  lists : ∀ id relation, (store.contentOf id).relations.get? relation =
    if tables.membersOf id relation = [] then none else some (tables.membersOf id relation)

/-- A write to a store and one to its rows end alike. -/
inductive ContentTables.Agrees : Except StoreError Store → Except RowFault ContentTables → Prop
  | taken {id : EntityId} : Agrees (.error (.entityTaken id)) (.error .keyTaken)
  | missing : Agrees (.error (.rule .ownerExists)) (.error .ownerMissing)
  | written {store : Store} {tables : ContentTables} (holds : tables.Holds store) :
      Agrees (.ok store) (.ok tables)

namespace ContentTables

variable {tables after : ContentTables} {store : Store} {id : EntityId}

namespace Holds

variable (holds : tables.Holds store)

include holds

theorem members_eq (id : EntityId) (relation : String) :
    (store.contentOf id).members relation = tables.membersOf id relation := by
  rw [Content.members, holds.lists]
  split
  · rename_i none
    exact none.symm
  · rfl

/-- Rows that hold what a store has give the readings of the store. -/
theorem readings_eq : tables.readings = store.readings := by
  have load (descriptor : Descriptor) (id : EntityId) :
      tables.load descriptor id = store.load descriptor id := by
    have fields : tables.fieldsOf id = (store.contentOf id).fields :=
      Dict.ext_get? fun name => by rw [get?_fieldsOf, holds.values]
    have relations : (tables.load descriptor id).relations =
        (store.contentOf id).relations.filter fun name _ => (descriptor.relation? name).isSome := by
      refine Dict.ext_get? fun relation => ?_
      rw [get?_load_relations, Dict.get?_filter, holds.lists]
      by_cases none : tables.membersOf id relation = []
      · simp [none]
      · simp [none, Option.filter]
    rw [Store.load_eq_contentOf, ← relations, ← fields]
    rfl
  have owners (member : EntityId) (relation : String) :
      tables.owners member relation = store.owners member relation := by
    refine eq_of_sorted (owners_sorted ..) (Dict.keys_sorted _) fun owner => ?_
    rw [mem_owners_iff, Store.mem_owners_iff_contentOf, holds.members_eq, mem_membersOf_iff]
  exact congrArg₂ Readings.mk (funext₂ load) (funext₂ owners)

/-- A record without a row has no rows of values and members. -/
theorem free_of_missing (missing : store.row? id = none) :
    (∀ name, tables.values.get? (id, name) = none) ∧
      ∀ relation member, tables.places.get? (id, relation, member) = none := by
  have empty := Store.contentOf_of_missing missing
  refine ⟨fun name => ?_, fun relation member => Option.eq_none_iff_forall_ne_some.mpr ?_⟩
  · rw [holds.values, empty]
    rfl
  · intro place found
    have listed := mem_membersOf_iff.mpr ⟨place, found⟩
    rw [← holds.members_eq, empty] at listed
    cases listed

/-- One record gets a row with a content, and rows that hold it. -/
theorem setRow {row : EntityRow} (records : ∀ other, other ∈ after.records ↔
      other = id ∨ other ∈ tables.records)
    (values : ∀ other name, after.values.get? (other, name) =
      if other = id then row.content.fields.get? name else tables.values.get? (other, name))
    (lists : ∀ relation, row.content.relations.get? relation =
      if after.membersOf id relation = [] then none else some (after.membersOf id relation))
    (places : ∀ other, other ≠ id → ∀ relation member,
      after.places.get? (other, relation, member) = tables.places.get? (other, relation, member)) :
    after.Holds (store.setRow id row) := by
  have own : (store.setRow id row).contentOf id = row.content :=
    Store.contentOf_of_row? (Store.row?_setRow_self ..)
  refine ⟨fun other => ?_, fun other name => ?_, fun other relation => ?_⟩
  · by_cases here : other = id
    · simp [records, here]
    · rw [records, Store.row?_setRow_of_ne _ here, ← holds.records]
      simp [here]
  · by_cases here : other = id
    · rw [values, if_pos here, here, own]
    · rw [values, if_neg here, Store.contentOf_setRow_of_ne here, holds.values]
  · by_cases here : other = id
    · rw [here, own, lists]
    · rw [Store.contentOf_setRow_of_ne here, holds.lists, membersOf_congr (places other here relation)]

theorem insertRecord (id : EntityId) (kind : Kind) (now : Int64) :
    Agrees (store.insertEntity id kind now) (tables.insertRecord id) := by
  unfold Store.insertEntity ContentTables.insertRecord
  cases found : store.row? id with
  | some row =>
      rw [if_pos ((holds.records id).mpr (by simp [found]))]
      exact .taken
  | none =>
      obtain ⟨noValues, noPlaces⟩ := holds.free_of_missing found
      rw [if_neg (by simp [holds.records, found])]
      refine .written (holds.setRow (fun other => List.mem_cons) (fun other name => ?_)
        (fun relation => ?_) fun _ _ _ _ => rfl)
      · by_cases here : other = id
        · rw [if_pos here, here]
          exact noValues name
        · rw [if_neg here]
      · have none : tables.membersOf id relation = [] := by
          simp [List.eq_nil_iff_forall_not_mem, mem_membersOf_iff, noPlaces]
        exact (if_pos none).symm

theorem replaceFields (id : EntityId) (fields : Dict String FieldValue) :
    Agrees (store.replaceFields id fields) (tables.replaceFields id fields) := by
  cases found : store.row? id with
  | some row =>
      have known : id ∈ tables.records := (holds.records id).mpr (by simp [found])
      obtain ⟨after, done, valued⟩ := replaceFields_ok known fields
      rw [Store.replaceFields, found, done]
      refine .written (holds.setRow (fun other => ?_) (fun other name => ?_)
        (fun relation => ?_) fun _ _ _ _ => by rw [valued.places])
      · rw [valued.records]
        exact (or_iff_right_of_imp fun same => same ▸ known).symm
      · rw [valued.values, Dict.get?_filter]
      · have same : after.membersOf id relation = tables.membersOf id relation :=
          membersOf_congr fun member => by rw [valued.places]
        rw [same, ← holds.lists, Store.contentOf_of_row? found]
  | none =>
      obtain ⟨noValues, _⟩ := holds.free_of_missing found
      rw [Store.replaceFields, found, ContentTables.replaceFields, deleteValues_of_free noValues,
        insertValues_of_missing (by simp [holds.records, found]) noValues]
      simp only [Dict.filter_eq_empty_iff, Bool.not_eq_false']
      split
      · exact .written holds
      · exact .missing

theorem replaceMembers (id : EntityId) (relation : String) (members : List EntityId) :
    Agrees (store.replaceMembers id relation members) (tables.replaceMembers id relation members) := by
  cases found : store.row? id with
  | some row =>
      have known : id ∈ tables.records := (holds.records id).mpr (by simp [found])
      have content := Store.contentOf_of_row? found
      obtain ⟨after, done, listed⟩ := replaceMembers_ok known relation members
      rw [Store.replaceMembers_eq found, done]
      refine .written (holds.setRow (fun other => ?_) (fun other name => ?_)
        (fun name => ?_) fun other different name member => ?_)
      · rw [listed.records]
        exact (or_iff_right_of_imp fun same => same ▸ known).symm
      · rw [listed.values, holds.values, ← content]
        split
        · rename_i here
          rw [here]
        · rfl
      · rw [Content.get?_replaceList]
        by_cases here : name = relation
        · subst here
          have list : after.membersOf id name = distinct members :=
            membersOf_eq_distinct fun member => by rw [listed.places, if_pos ⟨rfl, rfl⟩]
          simp [list, distinct_eq_nil_iff]
        · have same : after.membersOf id name = tables.membersOf id name :=
            membersOf_congr fun member => by rw [listed.places, if_neg fun both => here both.2]
          rw [if_neg here, same, ← holds.lists, content]
      · rw [listed.places, if_neg fun both => different both.1]
  | none =>
      obtain ⟨_, noPlaces⟩ := holds.free_of_missing found
      rw [Store.replaceMembers, found, ContentTables.replaceMembers,
        deleteMembers_of_free (noPlaces relation)]
      cases members with
      | nil => exact .written holds
      | cons first rest =>
          have refused : insertMember id relation tables (first, 0) = .error .ownerMissing := by
            rw [insertMember, Dict.contains, noPlaces, if_neg (by simp),
              if_neg (by simp [holds.records, found])]
          rw [List.zipIdx_cons, List.foldlM_cons, refused]
          exact .missing

end Holds

namespace Agrees

theorem bind {stored : Except StoreError Store} {rows : Except RowFault ContentTables}
    {next : Store → Except StoreError Store} {rowsNext : ContentTables → Except RowFault ContentTables}
    (agrees : Agrees stored rows)
    (each : ∀ store tables, tables.Holds store → Agrees (next store) (rowsNext tables)) :
    Agrees (stored >>= next) (rows >>= rowsNext) := by
  cases agrees with
  | taken => exact .taken
  | missing => exact .missing
  | written holds => exact each _ _ holds

theorem foldlM {α : Type} {next : Store → α → Except StoreError Store}
    {rowsNext : ContentTables → α → Except RowFault ContentTables}
    (each : ∀ item store tables, tables.Holds store → Agrees (next store item) (rowsNext tables item))
    (items : List α) (holds : tables.Holds store) :
    Agrees (items.foldlM next store) (items.foldlM rowsNext tables) := by
  induction items generalizing store tables with
  | nil => exact .written holds
  | cons first rest ih => exact (each first _ _ holds).bind fun _ _ => ih

end Agrees

/-- A content is written to the rows of a store as it is to the store. -/
theorem Holds.replaceContent (holds : tables.Holds store) (descriptor : Descriptor) (id : EntityId)
    (content : Content) :
    Agrees (store.replaceContent descriptor id content)
      (tables.replaceContent descriptor id content) :=
  (holds.replaceFields id content.fields).bind fun _ _ holds =>
    Agrees.foldlM (fun spec _ _ holds => holds.replaceMembers id spec.name _) descriptor.relations holds

end ContentTables

/-! ## Runs -/

/-- A write that concerns records and their contents. -/
inductive ContentWrite where
  | record (id : EntityId) (kind : Kind) (now : Int64)
  | fields (id : EntityId) (values : Dict String FieldValue)
  | members (id : EntityId) (relation : String) (list : List EntityId)

def Store.perform (store : Store) : ContentWrite → Except StoreError Store
  | .record id kind now => store.insertEntity id kind now
  | .fields id values => store.replaceFields id values
  | .members id relation list => store.replaceMembers id relation list

namespace ContentTables

def perform (tables : ContentTables) : ContentWrite → Except RowFault ContentTables
  | .record id _ _ => tables.insertRecord id
  | .fields id values => tables.replaceFields id values
  | .members id relation list => tables.replaceMembers id relation list

theorem Holds.perform {tables : ContentTables} {store : Store} (holds : tables.Holds store)
    (write : ContentWrite) : Agrees (store.perform write) (tables.perform write) := by
  cases write with
  | record id kind now => exact holds.insertRecord id kind now
  | fields id values => exact holds.replaceFields id values
  | members id relation list => exact holds.replaceMembers id relation list

theorem holds_empty : empty.Holds .empty where
  records := by simp [empty, Store.row?, Store.empty]
  values _ _ := rfl
  lists _ _ := rfl

/-- Whatever is written in turn, a store and its rows refuse it alike or hold the same. -/
theorem agrees_run (writes : List ContentWrite) :
    Agrees (writes.foldlM Store.perform .empty) (writes.foldlM perform empty) :=
  Agrees.foldlM (fun write _ _ holds => holds.perform write) writes holds_empty

end ContentTables

/-! ## Writing a content -/

/-- A content with members under declared relations alone can be written to every record, whatever
was stored before. The record then has the canonical form of the content, and owns under each
declared relation just the members that the content lists; no other record and no other relation
reads differently, and owners are listed in ascending order. Rows that are deleted and added one by
one read so too, whatever they were, and rows that held what the store had hold what it has then. -/
theorem Readings.takes_replaceContent {descriptor : Descriptor} {content : Content}
    (declared : descriptor.Declares content) {store : Store} {tables : ContentTables} {id : EntityId}
    (present : (store.row? id).isSome = true) (known : id ∈ tables.records) :
    ∃ stored rows, store.replaceContent descriptor id content = .ok stored ∧
      tables.replaceContent descriptor id content = .ok rows ∧
      store.readings.Takes stored.readings descriptor id content ∧
      tables.readings.Takes rows.readings descriptor id content ∧
      (tables.Holds store → rows.Holds stored) := by
  obtain ⟨row, found⟩ := Option.isSome_iff_exists.mp present
  obtain ⟨rows, done, rewritten⟩ := ContentTables.replaceContent_ok known descriptor content
  refine ⟨_, rows, Store.replaceContent_eq found content, done, Store.takes_setRow found declared,
    rewritten.takes declared, fun holds => ?_⟩
  have agrees := holds.replaceContent descriptor id content
  rw [Store.replaceContent_eq found, done] at agrees
  cases agrees with
  | written holds => exact holds

/-- A story with a null, a repeated item and an empty list. -/
def Content.reported : Content where
  fields := Dict.ofList [("title", .text "Flood"), ("summary", .null)]
  relations := Dict.ofList [("news_items", [⟨⟨7⟩⟩, ⟨⟨5⟩⟩, ⟨⟨7⟩⟩, ⟨⟨4⟩⟩, ⟨⟨5⟩⟩]), ("attributes", [])]

/-- Two stories are stored. The first has a comment, an attribute, and an item that comes twice. -/
def ContentWrite.twoStories : List ContentWrite :=
  [.record ⟨⟨9⟩⟩ .story 0, .record ⟨⟨8⟩⟩ .story 0,
    .fields ⟨⟨9⟩⟩ (Dict.ofList [("title", .text "Rain"), ("comments", .text "Old")]),
    .members ⟨⟨9⟩⟩ "news_items" [⟨⟨6⟩⟩, ⟨⟨6⟩⟩, ⟨⟨5⟩⟩], .members ⟨⟨9⟩⟩ "attributes" [⟨⟨3⟩⟩],
    .fields ⟨⟨8⟩⟩ (Dict.ofList [("title", .text "Storm")]),
    .members ⟨⟨8⟩⟩ "news_items" [⟨⟨7⟩⟩, ⟨⟨6⟩⟩]]

/-- The store of two stories. -/
def Store.twoStories : Store :=
  (Store.empty.setRow ⟨⟨9⟩⟩ ⟨.story, 1, 0, 0, false,
      ⟨Dict.ofList [("title", .text "Rain"), ("comments", .text "Old")],
        Dict.ofList [("news_items", [⟨⟨6⟩⟩, ⟨⟨5⟩⟩]), ("attributes", [⟨⟨3⟩⟩])]⟩⟩).setRow
    ⟨⟨8⟩⟩ ⟨.story, 1, 0, 0, false,
      ⟨Dict.ofList [("title", .text "Storm")], Dict.ofList [("news_items", [⟨⟨7⟩⟩, ⟨⟨6⟩⟩])]⟩⟩

/-- The rows of two stories. The repeated item has left a gap in the places. -/
def ContentTables.twoStories : ContentTables where
  records := [⟨⟨8⟩⟩, ⟨⟨9⟩⟩]
  values := Dict.ofList [((⟨⟨9⟩⟩, "title"), .text "Rain"), ((⟨⟨9⟩⟩, "comments"), .text "Old"),
    ((⟨⟨8⟩⟩, "title"), .text "Storm")]
  places := Dict.ofList [((⟨⟨9⟩⟩, "news_items", ⟨⟨6⟩⟩), 0), ((⟨⟨9⟩⟩, "news_items", ⟨⟨5⟩⟩), 2),
    ((⟨⟨9⟩⟩, "attributes", ⟨⟨3⟩⟩), 0), ((⟨⟨8⟩⟩, "news_items", ⟨⟨7⟩⟩), 0),
    ((⟨⟨8⟩⟩, "news_items", ⟨⟨6⟩⟩), 1)]

/-- The first of two stories gets another content: each item is read once, in the order of the
list, and what was stored of the story before is gone. -/
theorem Readings.takes_replaceContent_story :
    ContentWrite.twoStories.foldlM Store.perform .empty = .ok .twoStories ∧
    ContentWrite.twoStories.foldlM ContentTables.perform .empty = .ok .twoStories ∧
    Descriptor.story.Declares .reported ∧ (Store.twoStories.row? ⟨⟨9⟩⟩).isSome = true ∧
    ⟨⟨9⟩⟩ ∈ ContentTables.twoStories.records ∧
    ∃ stored rows, Store.twoStories.replaceContent .story ⟨⟨9⟩⟩ .reported = .ok stored ∧
      ContentTables.twoStories.replaceContent .story ⟨⟨9⟩⟩ .reported = .ok rows ∧
      rows.Holds stored ∧
      rows.load .story ⟨⟨9⟩⟩ = ⟨Dict.ofList [("title", .text "Flood")],
        Dict.ofList [("news_items", [⟨⟨7⟩⟩, ⟨⟨5⟩⟩, ⟨⟨4⟩⟩])]⟩ ∧
      rows.load .story ⟨⟨8⟩⟩ = Store.twoStories.load .story ⟨⟨8⟩⟩ ∧
      rows.owners ⟨⟨7⟩⟩ "news_items" = [⟨⟨8⟩⟩, ⟨⟨9⟩⟩] ∧
      rows.owners ⟨⟨6⟩⟩ "news_items" = [⟨⟨8⟩⟩] ∧ rows.owners ⟨⟨3⟩⟩ "attributes" = [] := by
  have stores : ContentWrite.twoStories.foldlM Store.perform .empty = .ok .twoStories := by
    decide +kernel
  have tables : ContentWrite.twoStories.foldlM ContentTables.perform .empty = .ok .twoStories := by
    decide +kernel
  have holds : ContentTables.twoStories.Holds .twoStories := by
    have agrees := ContentTables.agrees_run ContentWrite.twoStories
    rw [stores, tables] at agrees
    cases agrees with
    | written holds => exact holds
  have declared : Descriptor.story.Declares .reported :=
    Descriptor.declares_of_check (by decide +kernel)
  obtain ⟨stored, rows, replaced, rewritten, _, takes, kept⟩ := takes_replaceContent declared
    (by decide +kernel : (Store.twoStories.row? ⟨⟨9⟩⟩).isSome = true)
    (by decide : ⟨⟨9⟩⟩ ∈ ContentTables.twoStories.records)
  have owners : (ContentTables.twoStories.replaceContent .story ⟨⟨9⟩⟩ .reported).toOption.map
      (fun rows => [rows.owners ⟨⟨7⟩⟩ "news_items", rows.owners ⟨⟨6⟩⟩ "news_items",
        rows.owners ⟨⟨3⟩⟩ "attributes"]) = some [[⟨⟨8⟩⟩, ⟨⟨9⟩⟩], [⟨⟨8⟩⟩], []] := by
    decide +kernel
  rw [rewritten] at owners
  obtain ⟨shared, former, dropped⟩ : _ ∧ _ ∧ _ := by
    simpa [Except.toOption] using owners
  refine ⟨stores, tables, declared, by decide +kernel, by decide, stored, rows, replaced, rewritten,
    kept holds, takes.canonical.trans (by decide +kernel), ?_, shared, former, dropped⟩
  exact (takes.elsewhere ⟨⟨8⟩⟩ (by decide) .story).trans
    (congrArg (fun readings => readings.load .story ⟨⟨8⟩⟩) holds.readings_eq)

end Chronicle
