import Chronicle.Proofs.Events

/-!
# What a commit looks at

A commit looks at the record that it is about and at the members that are stored and proposed for
it: at their rows, and at the snapshots and link rows of the record itself. Two stores that agree on
some records (`Store.AgreesOn`) cannot be told apart by a commit that is about these alone: it goes
the same way in both, and they agree on these records afterwards (`Env.apply_local`).
-/

namespace Chronicle

/-! ## Answers that are alike -/

/-- Two answers are alike if both are results that correspond, or both are refusals for causes that
correspond. -/
inductive Alike {ε α : Type} (Causes : ε → ε → Prop) (Same : α → α → Prop) :
    Except ε α → Except ε α → Prop
  | refused {first second : ε} (causes : Causes first second) :
      Alike Causes Same (.error first) (.error second)
  | carried {first second : α} (same : Same first second) :
      Alike Causes Same (.ok first) (.ok second)

namespace Alike

section Answers

variable {ε α β : Type} {Same : α → α → Prop} {Next : β → β → Prop}

theorem same (reflexive : ∀ value, Same value value) (answer : Except ε α) :
    Alike Eq Same answer answer := by
  cases answer with
  | error cause => exact .refused rfl
  | ok value => exact .carried (reflexive value)

theorem imp {Causes : ε → ε → Prop} {Other : α → α → Prop} {first second : Except ε α}
    (alike : Alike Causes Same first second)
    (weaker : ∀ value other, Same value other → Other value other) :
    Alike Causes Other first second := by
  cases alike with
  | refused causes => exact .refused causes
  | carried corresponds => exact .carried (weaker _ _ corresponds)

theorem bind {first second : Except ε α} {rest others : α → Except ε β}
    (alike : Alike Eq Same first second)
    (next : ∀ value other, Same value other → Alike Eq Next (rest value) (others other)) :
    Alike Eq Next (first >>= rest) (second >>= others) := by
  cases alike with
  | refused causes => exact .refused causes
  | carried corresponds => exact next _ _ corresponds

/-- What does not depend on the store may come first. -/
theorem after {answer : Except ε α} {rest others : α → Except ε β}
    (next : ∀ value, Alike Eq Next (rest value) (others value)) :
    Alike Eq Next (answer >>= rest) (answer >>= others) := by
  cases answer with
  | error cause => exact .refused rfl
  | ok value => exact next value

theorem inFold {step : β → α → Except ε β}
    (each : ∀ item first second, Next first second →
      Alike Eq Next (step first item) (step second item))
    (items : List α) {first second : β} (related : Next first second) :
    Alike Eq Next (items.foldlM step first) (items.foldlM step second) := by
  induction items generalizing first second with
  | nil => exact .carried related
  | cons item rest ih => exact (each item first second related).bind fun _ _ => ih

theorem ofStore {first second : Except StoreError α} (alike : Alike Eq Same first second) :
    Alike Eq Same (Refusal.ofStore first) (Refusal.ofStore second) := by
  cases alike with
  | refused causes => exact .refused (congrArg Refusal.store causes)
  | carried corresponds => exact .carried corresponds

end Answers

/-- Two steps have led to results that read the same, and to states that correspond. -/
def Reads {α γ σ : Type} (read : α → γ) (Rel : σ → σ → Prop) (first second : α × σ) : Prop :=
  read first.1 = read second.1 ∧ Rel first.2 second.2

/-- If a step goes the same way in states that correspond, then so it does for all items in
turn. -/
theorem eachInTurn {ε α β γ σ : Type} (read : β → γ) (Rel : σ → σ → Prop)
    {step : α → σ → Except ε (β × σ)} {items : List α}
    (each : ∀ item ∈ items, ∀ first second, Rel first second →
      Alike Eq (Reads read Rel) (step item first) (step item second))
    {first second : σ} (related : Rel first second) :
    Alike Eq (Reads (List.map read) Rel) (inTurn step items first) (inTurn step items second) := by
  induction items generalizing first second with
  | nil => exact .carried ⟨rfl, related⟩
  | cons item rest ih =>
      refine (each item List.mem_cons_self first second related).bind ?_
      rintro ⟨result, next⟩ ⟨other, otherNext⟩ ⟨same, nextRelated⟩
      refine (ih (fun later listed => each later (List.mem_cons_of_mem item listed))
        nextRelated).bind ?_
      rintro ⟨results, last⟩ ⟨others, otherLast⟩ ⟨sameRest, lastRelated⟩
      exact .carried ⟨congrArg₂ List.cons same sameRest, lastRelated⟩

end Alike

/-! ## Stores that agree on some records -/

namespace Dict

universe u v

/-- Dictionaries that agree on the keys that pass a test agree on what is kept by it. -/
theorem filter_agree {κ : Type u} {ν : Type v} [Key κ] {first second : Dict κ ν} (test : κ → Bool)
    (same : ∀ key, test key = true → second.get? key = first.get? key) :
    second.filter (fun key _ => test key) = first.filter fun key _ => test key := by
  refine ext_get? fun key => ?_
  rw [get?_filter, get?_filter]
  cases passes : test key with
  | true => rw [same key passes]
  | false => cases first.get? key <;> cases second.get? key <;> rfl

end Dict

/-- What is found first is the same if each item gives the same. -/
theorem findSome?_congr {α β : Type} {items : List α} {first second : α → Option β}
    (same : ∀ item ∈ items, first item = second item) :
    items.findSome? first = items.findSome? second := by
  induction items with
  | nil => rfl
  | cons item rest ih =>
      rw [List.findSome?_cons, List.findSome?_cons, same item List.mem_cons_self,
        ih fun later listed => same later (List.mem_cons_of_mem item listed)]

/-- Two stores have the same rows of some records, and the same snapshots and link rows of these. -/
structure Store.AgreesOn (within : EntityId → Prop) (first second : Store) : Prop where
  rows : ∀ id, within id → second.row? id = first.row? id
  snapshots : ∀ table id version, within id →
    second.snapshots.get? (table, id, version) = first.snapshots.get? (table, id, version)
  links : ∀ table owner member version, within owner →
    second.links.get? (table, owner, member, version) =
      first.links.get? (table, owner, member, version)

namespace Store.AgreesOn

variable {within : EntityId → Prop} {first second third : Store}

theorem refl (within : EntityId → Prop) (store : Store) : store.AgreesOn within store :=
  ⟨fun _ _ => rfl, fun _ _ _ _ => rfl, fun _ _ _ _ _ => rfl⟩

theorem symm (agrees : first.AgreesOn within second) : second.AgreesOn within first :=
  ⟨fun id inside => (agrees.rows id inside).symm,
    fun table id version inside => (agrees.snapshots table id version inside).symm,
    fun table owner member version inside => (agrees.links table owner member version inside).symm⟩

theorem trans (agrees : first.AgreesOn within second) (others : second.AgreesOn within third) :
    first.AgreesOn within third :=
  ⟨fun id inside => (others.rows id inside).trans (agrees.rows id inside),
    fun table id version inside =>
      (others.snapshots table id version inside).trans (agrees.snapshots table id version inside),
    fun table owner member version inside =>
      (others.links table owner member version inside).trans
        (agrees.links table owner member version inside)⟩

theorem mono {fewer : EntityId → Prop} (agrees : first.AgreesOn within second)
    (inside : ∀ id, fewer id → within id) : first.AgreesOn fewer second :=
  ⟨fun id among => agrees.rows id (inside id among),
    fun table id version among => agrees.snapshots table id version (inside id among),
    fun table owner member version among => agrees.links table owner member version
      (inside owner among)⟩

/-- Stores that agree on some records and on all others agree on all. -/
theorem either {others : EntityId → Prop} (agrees : first.AgreesOn within second)
    (elsewhere : first.AgreesOn others second) (all : ∀ id, within id ∨ others id) :
    first.AgreesOn (fun _ => True) second := by
  refine ⟨fun id _ => ?_, fun table id version _ => ?_, fun table owner member version _ => ?_⟩
  · exact (all id).elim (agrees.rows id) (elsewhere.rows id)
  · exact (all id).elim (agrees.snapshots table id version) (elsewhere.snapshots table id version)
  · exact (all owner).elim (agrees.links table owner member version)
      (elsewhere.links table owner member version)

/-- Stores that agree on all records have the same tables of them. -/
theorem tables_eq (agrees : first.AgreesOn (fun _ => True) second) :
    second.entities = first.entities ∧ second.snapshots = first.snapshots ∧
      second.links = first.links :=
  ⟨Dict.ext_get? fun id => agrees.rows id trivial,
    Dict.ext_get? fun key => agrees.snapshots key.1 key.2.1 key.2.2 trivial,
    Dict.ext_get? fun key => agrees.links key.1 key.2.1 key.2.2.1 key.2.2.2 trivial⟩

theorem setRow (agrees : first.AgreesOn within second) (id : EntityId) (row : EntityRow) :
    (first.setRow id row).AgreesOn within (second.setRow id row) := by
  refine ⟨fun other inside => ?_, agrees.snapshots, agrees.links⟩
  by_cases same : other = id
  · subst same
    exact (Dict.get?_insert_self ..).trans (Dict.get?_insert_self ..).symm
  · rw [row?, row?, Store.setRow, Store.setRow, Dict.get?_insert_of_ne _ same,
      Dict.get?_insert_of_ne _ same]
    exact agrees.rows other inside

theorem liveVersion?_eq (agrees : first.AgreesOn within second) {id : EntityId}
    (inside : within id) : second.liveVersion? id = first.liveVersion? id := by
  rw [liveVersion?, liveVersion?, agrees.rows id inside]

theorem lastVersion_eq (agrees : first.AgreesOn within second) (descriptor : Descriptor)
    {id : EntityId} (inside : within id) :
    second.lastVersion descriptor id = first.lastVersion descriptor id := by
  have same : second.snapshotsOf descriptor id = first.snapshotsOf descriptor id := by
    refine congrArg Dict.values (Dict.filter_agree (fun key : String × EntityId × Nat =>
      decide (key.1 = descriptor.historyTable) && decide (key.2.1 = id)) fun key passes => ?_)
    obtain ⟨table, other, version⟩ := key
    simp only [Bool.and_eq_true, decide_eq_true_eq] at passes
    obtain ⟨_, rfl⟩ := passes
    exact agrees.snapshots table other version inside
  rw [lastVersion, lastVersion, same]

theorem linkRows_eq (agrees : first.AgreesOn within second) (table : String) {owner : EntityId}
    (inside : within owner) (member : EntityId) :
    second.linkRows table owner member = first.linkRows table owner member := by
  refine congrArg Dict.values (Dict.filter_agree
    (fun key : String × EntityId × EntityId × Nat =>
      decide (key.1 = table) && decide (key.2.1 = owner) && decide (key.2.2.1 = member))
    fun key passes => ?_)
  obtain ⟨name, other, listed, version⟩ := key
  simp only [Bool.and_eq_true, decide_eq_true_eq] at passes
  obtain ⟨⟨_, rfl⟩, _⟩ := passes
  exact agrees.links name other listed version inside

/-! ## Writing rows -/

section Rows

variable (agrees : first.AgreesOn within second) {id : EntityId} (inside : within id)

include agrees inside

theorem openRow (descriptor : Descriptor) (change : ChangeKind) (now : Int64) :
    Alike Eq (AgreesOn within) (first.openRow descriptor id change now)
      (second.openRow descriptor id change now) := by
  cases change with
  | created =>
      simp only [Store.openRow, Store.insertEntity, agrees.rows id inside]
      cases first.row? id with
      | none => exact .carried (agrees.setRow id _)
      | some row => exact .refused rfl
  | deleted =>
      simp only [Store.openRow, Store.markDeleted, agrees.rows id inside]
      cases first.row? id with
      | none => exact .carried agrees
      | some row => exact .carried (agrees.setRow id _)
  | _ => exact .carried agrees

theorem replaceFields (fields : Dict String FieldValue) :
    Alike Eq (AgreesOn within) (first.replaceFields id fields)
      (second.replaceFields id fields) := by
  simp only [Store.replaceFields, agrees.rows id inside]
  cases first.row? id with
  | none =>
      dsimp only
      split
      · exact .carried agrees
      · exact .refused rfl
  | some row => exact .carried (agrees.setRow id _)

theorem replaceMembers (relation : String) (members : List EntityId) :
    Alike Eq (AgreesOn within) (first.replaceMembers id relation members)
      (second.replaceMembers id relation members) := by
  simp only [Store.replaceMembers, agrees.rows id inside]
  cases first.row? id with
  | none =>
      dsimp only
      split
      · exact .carried agrees
      · exact .refused rfl
  | some row => exact .carried (agrees.setRow id _)

theorem setVersion (version : Nat) (now : Int64) :
    Alike Eq (AgreesOn within) (first.setVersion id version now)
      (second.setVersion id version now) := by
  refine .after fun _ => ?_
  rw [agrees.rows id inside]
  cases first.row? id with
  | none => exact .refused rfl
  | some row =>
      dsimp only
      split
      · exact .refused rfl
      · exact .carried (agrees.setRow id _)

theorem writeRow (descriptor : Descriptor) (version : Nat) (content : Content) (change : ChangeKind)
    (now : Int64) :
    Alike Eq (AgreesOn within) (first.writeRow descriptor id version content change now)
      (second.writeRow descriptor id version content change now) := by
  refine (agrees.openRow inside descriptor change now).bind fun _ _ opened => ?_
  have replaced (store other : Store) (same : store.AgreesOn within other) :
      Alike Eq (AgreesOn within) (store.replaceContent descriptor id content)
        (other.replaceContent descriptor id content) := by
    refine (same.replaceFields inside content.fields).bind fun _ _ filled => ?_
    exact .inFold (fun relation _ _ before => before.replaceMembers inside relation.name _) _ filled
  exact (replaced _ _ opened).bind fun _ _ same => same.setVersion inside version now

end Rows

/-! ## Writing snapshots and links -/

theorem insertSnapshot (agrees : first.AgreesOn within second) (descriptor : Descriptor)
    {snapshot : Snapshot} (inside : within snapshot.entity) :
    Alike Eq (AgreesOn within) (first.insertSnapshot descriptor snapshot)
      (second.insertSnapshot descriptor snapshot) := by
  refine .after fun _ => ?_
  cases descriptor.fixedColumns? with
  | some columns => exact .refused rfl
  | none =>
      dsimp only
      rw [Dict.contains, Dict.contains, agrees.snapshots _ _ _ inside]
      split
      · exact .refused rfl
      · refine .carried ⟨agrees.rows, fun table id version listed => ?_, agrees.links⟩
        by_cases same : (table, id, version) =
            (descriptor.historyTable, snapshot.entity, snapshot.version)
        · rw [same]
          exact (Dict.get?_insert_self ..).trans (Dict.get?_insert_self ..).symm
        · exact (Dict.get?_insert_of_ne _ same _).trans
            ((agrees.snapshots table id version listed).trans (Dict.get?_insert_of_ne _ same _).symm)

theorem insertLink (agrees : first.AgreesOn within second) (table : LinkTable) {link : LinkRow}
    (inside : within link.owner) :
    Alike Eq (AgreesOn within) (first.insertLink table link) (second.insertLink table link) := by
  refine .after fun _ => .after fun _ => .after fun _ => ?_
  dsimp only
  cases table.filling with
  | unknown column => exact .refused rfl
  | incomplete => exact .refused rfl
  | complete order =>
      dsimp only
      rw [Dict.contains, Dict.contains, agrees.links _ _ _ _ inside]
      split
      · exact .refused rfl
      · refine .carried ⟨agrees.rows, agrees.snapshots, fun name owner member version listed => ?_⟩
        by_cases same : (name, owner, member, version) =
            (table.name, link.owner, link.member, link.version)
        · rw [same]
          exact (Dict.get?_insert_self ..).trans (Dict.get?_insert_self ..).symm
        · exact (Dict.get?_insert_of_ne _ same _).trans
            ((agrees.links name owner member version listed).trans
              (Dict.get?_insert_of_ne _ same _).symm)

end Store.AgreesOn

/-! ## Commits -/

/-- Two answers are the same refusal, or the same result with stores that agree on some records. -/
abbrev SameOn {α : Type} (within : EntityId → Prop) (first second : Except Refusal (α × Store)) :
    Prop :=
  Alike Eq (Alike.Reads (fun result => result) (Store.AgreesOn within)) first second

/-- All members of a content are among some records. -/
def Content.MembersIn (within : EntityId → Prop) (content : Content) : Prop :=
  ∀ relation, ∀ member ∈ content.members relation, within member

theorem Content.membersIn_iff {within : EntityId → Prop} {content : Content} :
    content.MembersIn within ↔
      ∀ entry ∈ content.relations.entries, ∀ member ∈ entry.2, within member := by
  constructor
  · intro inside entry listed member isMember
    refine inside entry.1 member ?_
    rwa [Content.members, (Dict.get?_eq_some_iff _).mpr listed]
  · intro inside relation member listed
    rw [Content.members] at listed
    cases found : content.relations.get? relation with
    | none =>
        rw [found] at listed
        exact absurd listed List.not_mem_nil
    | some list =>
        rw [found] at listed
        exact inside (relation, list) ((Dict.get?_eq_some_iff _).mp found) member listed

/-- A member that comes or leaves is listed on one side. -/
theorem Descriptor.within_of_mem_linkEvents {within : EntityId → Prop} {descriptor : Descriptor}
    {before after : Option Content} (stored : (before.getD .empty).MembersIn within)
    (proposed : (after.getD .empty).MembersIn within) (something : before = none → after ≠ none)
    {event : LinkEvent} (listed : event ∈ descriptor.linkEvents (descriptor.compare before after)) :
    within event.member := by
  obtain ⟨spec, _, found⟩ := List.mem_flatMap.mp listed
  obtain ⟨_, _, diff, given, there⟩ := Change.mem_eventsOf_iff.mp found
  have isDiff := List.mem_of_find?_eq_some given
  rw [relations_compare something] at isDiff
  obtain ⟨spec, _, rfl⟩ := List.mem_map.mp (List.mem_filter.mp isDiff).1
  split at there
  · exact proposed spec.name _ (mem_diffOf_added_iff.mp there).1
  · exact stored spec.name _ (mem_diffOf_removed_iff.mp there).1

namespace Env

variable (env : Env) {within : EntityId → Prop} {first second : Store}

theorem writeLink_local (agrees : first.AgreesOn within second) {owner : EntityId}
    (inside : within owner) (version : Nat) (actor : Actor) (now : Int64) {event : LinkEvent}
    (member : within event.member) :
    SameOn within (env.writeLink owner version actor now event first)
      (env.writeLink owner version actor now event second) := by
  unfold writeLink
  rw [agrees.liveVersion?_eq member]
  cases first.liveVersion? event.member with
  | none => exact .carried ⟨rfl, agrees⟩
  | some memberVersion =>
      dsimp only
      rw [Store.lastLinkVersion, Store.lastLinkVersion, agrees.linkRows_eq _ inside]
      refine .after fun number => ?_
      exact (agrees.insertLink _ inside).ofStore.bind fun _ _ inserted => .carried ⟨rfl, inserted⟩

theorem memberRefs_local (agrees : first.AgreesOn within second) (descriptor : Descriptor)
    {content : Content} (members : content.MembersIn within) :
    second.memberRefs descriptor content = first.memberRefs descriptor content := by
  refine congrArg Dict.ofList (List.filterMap_congr fun spec _ => ?_)
  have listed := members spec.name
  revert listed
  cases content.members spec.name with
  | nil => exact fun _ => rfl
  | cons member rest =>
      intro listed
      refine congrArg (fun refs => some (spec.name, refs)) (List.map_congr_left fun id isMember => ?_)
      rw [agrees.liveVersion?_eq (listed id isMember)]

theorem writeVersion_local (agrees : first.AgreesOn within second) (descriptor : Descriptor)
    {id : EntityId} (inside : within id) {content : Content} (members : content.MembersIn within)
    {change : Change} (events : ∀ event ∈ descriptor.linkEvents change, within event.member)
    (attribution : Attribution) (version : Nat) :
    SameOn within
      (env.writeVersion descriptor id content change attribution version first)
      (env.writeVersion descriptor id content change attribution version second) := by
  refine .after fun now => ?_
  refine (agrees.writeRow inside descriptor version content change.kind now).ofStore.bind ?_
  intro rowed otherRowed rows
  rw [memberRefs_local rows descriptor members]
  refine (rows.insertSnapshot descriptor inside).ofStore.bind fun logged otherLogged snapshots => ?_
  have linked : Alike Eq (Alike.Reads (List.map fun skipped => skipped) (Store.AgreesOn within))
      (inTurn (env.writeLink id version attribution.actor now) (descriptor.linkEvents change) logged)
      (inTurn (env.writeLink id version attribution.actor now) (descriptor.linkEvents change)
        otherLogged) := by
    refine Alike.eachInTurn (fun skipped => skipped) (Store.AgreesOn within) ?_ snapshots
    intro event listed _ _ before
    exact env.writeLink_local before inside version attribution.actor now (events event listed)
  refine linked.bind ?_
  rintro ⟨skipped, last⟩ ⟨others, otherLast⟩ ⟨same, links⟩
  obtain rfl : skipped = others := by simpa only [List.map_id'] using same
  exact .carried ⟨rfl, links⟩

theorem writeNext_local (agrees : first.AgreesOn within second) (descriptor : Descriptor)
    {id : EntityId} (inside : within id) {content : Content} (members : content.MembersIn within)
    {change : Change} (events : ∀ event ∈ descriptor.linkEvents change, within event.member)
    (attribution : Attribution) (counter attempts version : Nat) :
    SameOn within
      (env.writeNext descriptor id content change attribution counter first attempts version)
      (env.writeNext descriptor id content change attribution counter second attempts version) := by
  induction attempts generalizing version with
  | zero => exact .refused rfl
  | succ attempts ih =>
      have written := env.writeVersion_local agrees descriptor inside members events attribution version
      unfold writeNext
      rw [agrees.lastVersion_eq descriptor inside]
      revert written
      generalize env.writeVersion descriptor id content change attribution version first = answer
      generalize env.writeVersion descriptor id content change attribution version second = other
      intro written
      cases written with
      | carried same => exact .carried same
      | refused causes =>
          subst causes
          split
          · exact ih _
          · exact .refused rfl

end Env

/-- The record, and the members that are stored and proposed for it, are among some records. -/
structure Store.Concerns (store : Store) (within : EntityId → Prop) (id : EntityId)
    (proposed : Option Content) : Prop where
  self : within id
  stored : ∀ row, store.row? id = some row → row.content.MembersIn within
  proposed : ∀ content, proposed = some content → content.MembersIn within

namespace Env

variable (env : Env) {within : EntityId → Prop} {first second : Store}

theorem memberFault?_local (agrees : first.AgreesOn within second) (descriptor : Descriptor)
    {content : Content} (members : content.MembersIn within) :
    second.memberFault? descriptor content = first.memberFault? descriptor content := by
  refine congrArg (fun fault? => descriptor.relations.findSome? fault?) (funext fun spec => ?_)
  refine findSome?_congr fun member listed => ?_
  rw [agrees.rows member (members spec.name member listed)]

/-- The members that a commit finds stored are those of the row. -/
theorem membersIn_previous {store : Store} {descriptor : Descriptor} {id : EntityId}
    (stored : ∀ row, store.row? id = some row → row.content.MembersIn within)
    {previous : Option Content} {version : Nat}
    (given : store.previous descriptor id = .ok (previous, version)) :
    (previous.getD .empty).MembersIn within := by
  unfold Store.previous at given
  split at given
  · cases given
    exact fun _ _ listed => absurd listed List.not_mem_nil
  · rename_i row found
    split at given
    · cases given
    · split at given
      · cases given
      · cases given
        rw [Option.getD_some, Store.load, found, Content.membersIn_iff]
        intro entry listed
        exact Content.membersIn_iff.mp (stored row found) entry (List.mem_filter.mp listed).1

/-- A commit goes the same way in stores that agree on the records that it concerns. -/
theorem apply_local (agrees : first.AgreesOn within second) {kind : Kind} {id : EntityId}
    {proposed : Option Content} (concerns : first.Concerns within id proposed)
    (attribution : Attribution) :
    SameOn within
      (env.apply kind id proposed attribution first)
      (env.apply kind id proposed attribution second) := by
  obtain ⟨inside, stored, wanted⟩ := concerns
  refine .after fun descriptor => ?_
  have checked : second.checkProposed descriptor proposed = first.checkProposed descriptor proposed := by
    cases proposed with
    | none => rfl
    | some content =>
        rw [Store.checkProposed, Store.checkProposed,
          memberFault?_local agrees descriptor (wanted content rfl)]
  have found : second.previous descriptor id = first.previous descriptor id := by
    rw [Store.previous, Store.previous, Store.load, Store.load, agrees.rows id inside]
  rw [checked, found]
  refine .after fun _ => ?_
  cases given : first.previous descriptor id with
  | error refusal => exact .refused rfl
  | ok before =>
      obtain ⟨previous, version⟩ := before
      change SameOn within (if _ then _ else _) (if _ then _ else _)
      split
      · exact .refused rfl
      · rename_i something
        split
        · have old := membersIn_previous stored given
          have new : (proposed.getD .empty).MembersIn within := by
            cases proposed with
            | none => exact fun _ _ listed => absurd listed List.not_mem_nil
            | some content => exact wanted content rfl
          have written : (proposed.getD (Content.remains previous)).MembersIn within := by
            cases proposed with
            | none => exact fun _ _ listed => absurd listed List.not_mem_nil
            | some content => exact wanted content rfl
          refine env.writeNext_local agrees descriptor inside written (fun event listed => ?_) ..
          exact Descriptor.within_of_mem_linkEvents old new
            (fun absent missing => something (by simp [absent, missing])) listed
        · exact .carried ⟨rfl, agrees⟩

end Env

end Chronicle
