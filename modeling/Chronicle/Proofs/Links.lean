import Chronicle.Proofs.Events
import Chronicle.Proofs.Snapshots

/-!
# Link rows

The rows of an owner and a member in the table of a relation are numbered from 1. A commit adds at
most one row for each of them: one if the member comes or leaves and is live
(`Env.Writes.linkRows_of_event`), and none otherwise (`Env.Writes.linkRows_of_quiet`).
-/

namespace Chronicle

open Descriptor (standard)

namespace Store

/-! ## Rows of an owner and a member -/

/-- Each link row is kept under its owner, member and version. -/
def KeyedLinks (store : Store) : Prop :=
  ∀ table owner member version link,
    store.links.get? (table, owner, member, version) = some link →
    link.owner = owner ∧ link.member = member ∧ link.version = version

/-- The rows of an owner and a member are numbered from 1. -/
def Numbered (links : List LinkRow) : Prop :=
  links.map LinkRow.version = List.range' 1 links.length

theorem mem_linkRows_iff {store : Store} {table : String} {owner member : EntityId}
    {link : LinkRow} :
    link ∈ store.linkRows table owner member ↔
      ∃ version, store.links.get? (table, owner, member, version) = some link := by
  simp only [linkRows, Dict.mem_values_iff, Dict.get?_filter, Option.filter_eq_some_iff,
    Bool.and_eq_true, decide_eq_true_eq]
  constructor
  · rintro ⟨⟨otherTable, otherOwner, otherMember, version⟩, found, ⟨rfl, rfl⟩, rfl⟩
    exact ⟨version, found⟩
  · rintro ⟨version, found⟩
    exact ⟨(table, owner, member, version), found, ⟨rfl, rfl⟩, rfl⟩

theorem KeyedLinks.member_eq {store : Store} (keyed : store.KeyedLinks) {table : String}
    {owner member : EntityId} {link : LinkRow} (listed : link ∈ store.linkRows table owner member) :
    link.member = member := by
  obtain ⟨_, found⟩ := mem_linkRows_iff.mp listed
  exact (keyed _ _ _ _ _ found).2.1

theorem readRow_own (store : Store) (table : String) (row : LinkRow) :
    store.readRow table (.ownerVersion, .memberVersion) row = .ok row := by
  have owner : VersionColumn.ownerVersion.decode row.ownerVersion = .ok row.ownerVersion :=
    if_pos (Int.natCast_nonneg _)
  have member : VersionColumn.memberVersion.decode row.memberVersion = .ok row.memberVersion :=
    if_pos (Int.natCast_nonneg _)
  exact bind_eq_ok.mpr ⟨_, owner, bind_eq_ok.mpr ⟨_, member, rfl⟩⟩

theorem mapM_readRow_own (store : Store) (table : String) (rows : List LinkRow) :
    rows.mapM (store.readRow table (.ownerVersion, .memberVersion)) = .ok rows := by
  rw [show store.readRow table (.ownerVersion, .memberVersion) = fun row => pure (id row) from
    funext fun row => store.readRow_own table row, List.mapM_pure, List.map_id]
  rfl

theorem foldl_max_of_numbered {links : List LinkRow} (numbered : Numbered links) :
    links.foldl (fun last link => max last link.version) 0 = links.length := by
  have counted (count : Nat) : (List.range' 1 count).foldl max 0 = count := by
    induction count with
    | zero => rfl
    | succ count ih =>
        rw [List.range'_1_concat, List.foldl_append, ih, List.foldl_cons, List.foldl_nil]
        omega
  rw [← List.foldl_map (f := LinkRow.version) (g := max), numbered, counted]

/-- A row with the next number comes last. -/
theorem linkRows_insert_self {store after : Store} (keyed : store.KeyedLinks) {table : String}
    {owner member : EntityId} {link : LinkRow}
    (numbered : Numbered (store.linkRows table owner member))
    (inserted : after.links = store.links.insert
      (table, owner, member, (store.linkRows table owner member).length + 1) link) :
    after.linkRows table owner member = store.linkRows table owner member ++ [link] := by
  unfold linkRows
  rw [inserted]
  refine Dict.values_filter_insert_last (by simp) ?_
  rintro ⟨otherTable, otherOwner, otherMember, version⟩ other found selected
  simp only [Bool.and_eq_true, decide_eq_true_eq] at selected
  obtain ⟨⟨rfl, rfl⟩, rfl⟩ := selected
  obtain ⟨_, _, rfl⟩ := keyed _ _ _ _ _ found
  have listed : other.version ∈ (store.linkRows otherTable otherOwner otherMember).map
      LinkRow.version := List.mem_map.mpr ⟨other, mem_linkRows_iff.mpr ⟨_, found⟩, rfl⟩
  rw [numbered, List.mem_range'_1] at listed
  rw [Key.before_mk_self, Key.before_mk_self, Key.before_mk_self]
  exact decide_eq_true (by omega)

theorem linkRows_insert_of_ne {store after : Store} {table otherTable : String}
    {owner member other otherMember : EntityId} {version : Nat} {link : LinkRow}
    (inserted : after.links = store.links.insert (table, owner, member, version) link)
    (different : (otherTable, other, otherMember) ≠ (table, owner, member)) :
    after.linkRows otherTable other otherMember = store.linkRows otherTable other otherMember := by
  unfold linkRows
  rw [inserted, Dict.filter_insert_of_not]
  intro _
  refine Bool.eq_false_iff.mpr fun selected => different ?_
  simp only [Bool.and_eq_true, decide_eq_true_eq] at selected
  obtain ⟨⟨rfl, rfl⟩, rfl⟩ := selected
  rfl

end Store

/-- The table of a relation with a log is its own. -/
theorem Env.linkTable_standard {env : Env} (registered : env.registry = .standard) {kind : Kind}
    {relation : String} {log : LinkLog} (logged : (standard kind).log? relation = some log) :
    env.linkTable kind relation = .ok (.own log.table) := by
  refine bind_eq_ok.mpr ⟨_, descriptor_standard registered kind, ?_⟩
  change ((standard kind).relation? relation).bind RelationSpec.log = some log at logged
  rw [logged, registered]
  exact congrArg Except.ok (Descriptor.standard_linkTable logged)

/-- When a member was linked and unlinked is read from the rows as they are. -/
theorem Env.linkHistory_standard {env : Env} (registered : env.registry = .standard)
    {kind : Kind} {relation : String} {log : LinkLog}
    (logged : (standard kind).log? relation = some log) (store : Store)
    (owner member : EntityId) :
    env.linkHistory store kind relation owner member =
      .ok (store.linkRows log.table owner member) := by
  rw [linkHistory, linkTable_standard registered logged]
  exact ofStore_eq_ok.mpr (store.mapM_readRow_own log.table _)

/-- The link rows of a record are numbered, and there are no more of them for a member than the
record has versions. -/
structure Store.Tallies (store : Store) (kind : Kind) (id : EntityId) : Prop where
  numbered : ∀ relation log, (standard kind).log? relation = some log → ∀ member,
    Store.Numbered (store.linkRows log.table id member)
  short : ∀ relation log, (standard kind).log? relation = some log → ∀ member,
    (store.linkRows log.table id member).length ≤ store.counter id

/-! ## Writing rows -/

/-- The row that tells of a member who comes or leaves. -/
def LinkEvent.row (event : LinkEvent) (owner : EntityId) (ownerVersion : Nat) (actor : Actor)
    (now : Int64) (version memberVersion : Nat) : LinkRow where
  owner := owner
  member := event.member
  version := version
  ownerVersion := ownerVersion
  memberVersion := memberVersion
  linked := event.linked
  changedAt := now
  changedBy := actor

namespace Env

section Writing

variable {env : Env} {owner : EntityId} {version : Nat} {actor : Actor} {now : Int64}

/-- A link row is written if the member is live, with the number after the last one. -/
theorem writeLink_cases {event : LinkEvent} {store after : Store} {skipped : Option SkippedLink}
    (own : env.registry.linkTable event.log = .own event.log.table)
    (written : env.writeLink owner version actor now event store = .ok (skipped, after)) :
    (store.liveVersion? event.member = none ∧ after = store) ∨
    ∃ memberVersion number, store.liveVersion? event.member = some memberVersion ∧
      number = (store.linkRows event.log.table owner event.member).foldl
        (fun last link => max last link.version) 0 + 1 ∧
      store.links.get? (event.log.table, owner, event.member, number) = none ∧
      after.entities = store.entities ∧
      after.links = store.links.insert (event.log.table, owner, event.member, number)
        (event.row owner version actor now number memberVersion) := by
  unfold writeLink at written
  split at written
  · rename_i absent
    cases written
    exact Or.inl ⟨absent, rfl⟩
  · rename_i memberVersion live
    simp only [bind_eq_ok, ofStore_eq_ok, pure_eq_ok, Prod.mk.injEq, own] at written
    obtain ⟨last, numbered, next, inserted, _, rfl⟩ := written
    have number : _ = last := Except.ok.inj numbered
    refine Or.inr ⟨memberVersion, last + 1, live, congrArg (· + 1) number.symm, ?_⟩
    simp only [Store.insertLink, bind_eq_ok] at inserted
    obtain ⟨_, _, _, _, _, _, inserted⟩ := inserted
    change (if _ then _ else _) = _ at inserted
    split at inserted
    · cases inserted
    · rename_i free
      cases inserted
      refine ⟨?_, rfl, rfl⟩
      have absent := (not_or.mp free).2
      rw [Dict.contains, Bool.not_eq_true, Option.isSome_eq_false_iff, Option.isNone_iff_eq_none]
        at absent
      exact absent

/-- Writing a link row leaves the versions of records alone, and each row under its key. -/
theorem writeLink_steady {event : LinkEvent} {store after : Store} {skipped : Option SkippedLink}
    (own : env.registry.linkTable event.log = .own event.log.table) (keyed : store.KeyedLinks)
    (written : env.writeLink owner version actor now event store = .ok (skipped, after)) :
    after.KeyedLinks ∧ ∀ id, after.liveVersion? id = store.liveVersion? id := by
  rcases writeLink_cases own written with ⟨_, rfl⟩ | ⟨memberVersion, number, _, _, _, entities, links⟩
  · exact ⟨keyed, fun _ => rfl⟩
  · refine ⟨?_, fun id => by rw [Store.liveVersion?, Store.row?, entities]; rfl⟩
    intro table other member version link found
    rw [links] at found
    by_cases same : (table, other, member, version) = (event.log.table, owner, event.member, number)
    · cases same
      rw [Dict.get?_insert_self] at found
      cases found
      exact ⟨rfl, rfl, rfl⟩
    · rw [Dict.get?_insert_of_ne _ same] at found
      exact keyed _ _ _ _ _ found

section Events

variable {events : List LinkEvent} {store after : Store} {skipped : List (Option SkippedLink)}

theorem writeLinks_steady
    (own : ∀ event ∈ events, env.registry.linkTable event.log = .own event.log.table)
    (keyed : store.KeyedLinks)
    (carried : inTurn (env.writeLink owner version actor now) events store = .ok (skipped, after)) :
    after.KeyedLinks ∧ ∀ id, after.liveVersion? id = store.liveVersion? id := by
  refine inTurn_keeps (motive := fun next =>
    next.KeyedLinks ∧ ∀ id, next.liveVersion? id = store.liveVersion? id) ?_
    ⟨keyed, fun _ => rfl⟩ carried
  intro event listed before result next kept written
  obtain ⟨keyedNext, same⟩ := writeLink_steady (own event listed) kept.1 written
  exact ⟨keyedNext, fun id => (same id).trans (kept.2 id)⟩

/-- Only the events of an owner and a live member add rows for them. -/
theorem writeLinks_quiet
    (own : ∀ event ∈ events, env.registry.linkTable event.log = .own event.log.table)
    (keyed : store.KeyedLinks) {table : String} {other member : EntityId}
    (quiet : other = owner → ∀ event ∈ events, event.log.table = table → event.member = member →
      store.liveVersion? member = none)
    (carried : inTurn (env.writeLink owner version actor now) events store = .ok (skipped, after)) :
    after.linkRows table other member = store.linkRows table other member := by
  have kept : (after.KeyedLinks ∧ ∀ id, after.liveVersion? id = store.liveVersion? id) ∧
      after.linkRows table other member = store.linkRows table other member := by
    refine inTurn_keeps (motive := fun next =>
      (next.KeyedLinks ∧ ∀ id, next.liveVersion? id = store.liveVersion? id) ∧
        next.linkRows table other member = store.linkRows table other member) ?_
      ⟨⟨keyed, fun _ => rfl⟩, rfl⟩ carried
    rintro event listed before result next ⟨⟨keyedBefore, same⟩, rows⟩ written
    obtain ⟨keyedNext, sameNext⟩ := writeLink_steady (own event listed) keyedBefore written
    refine ⟨⟨keyedNext, fun id => (sameNext id).trans (same id)⟩, ?_⟩
    rcases writeLink_cases (own event listed) written with ⟨_, rfl⟩ | ⟨_, number, live, _, _, _, links⟩
    · exact rows
    · rw [Store.linkRows_insert_of_ne links, rows]
      rintro ⟨rfl, rfl, rfl⟩
      rw [same, quiet rfl event listed rfl rfl] at live
      cases live
  exact kept.2

/-- The one event of an owner and a live member adds the next row. -/
theorem writeLinks_event
    (own : ∀ event ∈ events, env.registry.linkTable event.log = .own event.log.table)
    (once : events.Pairwise fun first second =>
      first.log.table = second.log.table → first.member ≠ second.member)
    (keyed : store.KeyedLinks) {event : LinkEvent} (listed : event ∈ events)
    (numbered : Store.Numbered (store.linkRows event.log.table owner event.member))
    {memberVersion : Nat} (live : store.liveVersion? event.member = some memberVersion)
    (carried : inTurn (env.writeLink owner version actor now) events store = .ok (skipped, after)) :
    after.linkRows event.log.table owner event.member =
      store.linkRows event.log.table owner event.member ++
        [event.row owner version actor now
          ((store.linkRows event.log.table owner event.member).length + 1) memberVersion] := by
  obtain ⟨earlier, later, before, next, _, _, _, rfl, first, written, last, _⟩ :=
    inTurn_around carried listed
  have ownEarlier : ∀ other ∈ earlier,
      env.registry.linkTable other.log = .own other.log.table :=
    fun other found => own other (List.mem_append_left _ found)
  have ownLater : ∀ other ∈ later, env.registry.linkTable other.log = .own other.log.table :=
    fun other found => own other (List.mem_append_right _ (List.mem_cons_of_mem _ found))
  obtain ⟨_, onceLater, acrossEarlier⟩ := List.pairwise_append.mp once
  obtain ⟨acrossLater, _⟩ := List.pairwise_cons.mp onceLater
  obtain ⟨keyedBefore, sameBefore⟩ := writeLinks_steady ownEarlier keyed first
  obtain ⟨keyedNext, _⟩ := writeLink_steady (own event listed) keyedBefore written
  have rowsBefore : before.linkRows event.log.table owner event.member =
      store.linkRows event.log.table owner event.member := by
    refine writeLinks_quiet ownEarlier keyed (fun _ other found table member => ?_) first
    exact absurd member (acrossEarlier other found event List.mem_cons_self table)
  have rowsAfter : after.linkRows event.log.table owner event.member =
      next.linkRows event.log.table owner event.member := by
    refine writeLinks_quiet ownLater keyedNext (fun _ other found table member => ?_) last
    exact absurd member.symm (acrossLater other found table.symm)
  rcases writeLink_cases (own event listed) written with
    ⟨absent, _⟩ | ⟨version, number, found, counted, _, _, links⟩
  · rw [sameBefore, live] at absent
    cases absent
  · rw [sameBefore, live] at found
    cases found
    rw [← rowsBefore] at numbered ⊢
    rw [Store.foldl_max_of_numbered numbered] at counted
    subst counted
    rw [rowsAfter, Store.linkRows_insert_self keyedBefore numbered links]

end Events

end Writing

/-! ## One commit -/

namespace Writes

variable {env : Env} {kind : Kind} {id : EntityId} {proposed : Option Content}
  {attribution : Attribution} {version : Nat} {store after : Store} {outcome : Outcome}

/-- A version lists the members of the proposed content; a deleted record has none. -/
theorem members_versionContent (relation : String) :
    (versionContent store id proposed).members relation =
      (proposed.getD .empty).members relation := by
  cases proposed <;> rfl

/-- What happens to the links of a record tells the recorded members from those that its row
lists. -/
theorem mem_linkEvents_iff (admits : store.Admits kind id proposed) {event : LinkEvent} :
    event ∈ (standard kind).linkEvents (changeTo store kind id proposed) ↔
      (standard kind).log? event.relation = some event.log ∧
      (event.member ∈ (versionContent store id proposed).members event.relation ↔
        event.linked = true) ∧
      (event.member ∈ ((store.stored? id).getD .empty).members event.relation ↔
        event.linked = false) := by
  have something := admits.something_stored
  rw [members_versionContent]
  exact Descriptor.mem_linkEvents_iff (Descriptor.standard_relation_names kind) something

theorem linkTable_of_event (registered : env.registry = .standard)
    (admits : store.Admits kind id proposed) (event : LinkEvent)
    (listed : event ∈ (standard kind).linkEvents (changeTo store kind id proposed)) :
    env.registry.linkTable event.log = .own event.log.table := by
  rw [registered]
  exact Descriptor.standard_linkTable ((mem_linkEvents_iff admits).mp listed).1

/-- Link rows do not depend on the row and the snapshot that are written before them. -/
theorem keyedLinks_versioned (keyed : store.KeyedLinks) :
    (versioned env store kind id proposed attribution version).KeyedLinks := keyed

variable (registered : env.registry = .standard) (admits : store.Admits kind id proposed)
  (keyed : store.KeyedLinks)
  (writes : Writes env kind id proposed attribution version store outcome after)

include registered admits keyed writes

theorem keyedLinks : after.KeyedLinks := by
  obtain ⟨skipped, carried, _⟩ := writes.links
  exact (writeLinks_steady (linkTable_of_event registered admits) (keyedLinks_versioned keyed)
    carried).1

/-- Nothing is written about a member that neither comes nor leaves, or is not live. -/
theorem linkRows_of_quiet {table : String} {other member : EntityId}
    (quiet : other = id → ∀ event ∈ (standard kind).linkEvents (changeTo store kind id proposed),
      event.log.table = table → event.member = member → after.liveVersion? member = none) :
    after.linkRows table other member = store.linkRows table other member := by
  obtain ⟨skipped, carried, _⟩ := writes.links
  have own := linkTable_of_event registered admits
  obtain ⟨_, live⟩ := writeLinks_steady own (keyedLinks_versioned keyed) carried
  refine writeLinks_quiet own (keyedLinks_versioned keyed) (fun same event listed here about => ?_)
    carried
  rw [← live]
  exact quiet same event listed here about

/-- A live member that comes or leaves gets the next row. -/
theorem linkRows_of_event {event : LinkEvent}
    (listed : event ∈ (standard kind).linkEvents (changeTo store kind id proposed))
    (numbered : Store.Numbered (store.linkRows event.log.table id event.member))
    {memberVersion : Nat} (live : after.liveVersion? event.member = some memberVersion) :
    after.linkRows event.log.table id event.member =
      store.linkRows event.log.table id event.member ++
        [event.row id version attribution.actor env.now
          ((store.linkRows event.log.table id event.member).length + 1) memberVersion] := by
  obtain ⟨skipped, carried, _⟩ := writes.links
  have own := linkTable_of_event registered admits
  obtain ⟨_, same⟩ := writeLinks_steady own (keyedLinks_versioned keyed) carried
  rw [same] at live
  exact writeLinks_event own (Descriptor.linkEvents_once kind _ _)
    (keyedLinks_versioned keyed) listed numbered live carried

/-- What a version adds to the rows of its owner and a member: the next row if the member comes
or leaves and is live, and nothing otherwise. -/
theorem exists_added {relation : String} {log : LinkLog}
    (logged : (standard kind).log? relation = some log) (member : EntityId)
    (numbered : Store.Numbered (store.linkRows log.table id member)) :
    ∃ added : Option LinkRow,
      after.linkRows log.table id member =
        store.linkRows log.table id member ++ added.toList ∧
      (∀ link, added = some link →
        link.version = (store.linkRows log.table id member).length + 1 ∧
        link.ownerVersion = version ∧ after.liveVersion? member = some link.memberVersion ∧
        (member ∈ (versionContent store id proposed).members relation ↔ link.linked = true) ∧
        (member ∈ ((store.stored? id).getD .empty).members relation ↔ link.linked = false)) ∧
      (added = none → after.liveVersion? member = none ∨
        (member ∈ (versionContent store id proposed).members relation ↔
          member ∈ ((store.stored? id).getD .empty).members relation)) := by
  by_cases moved : ∃ linked,
      LinkEvent.mk relation log member linked ∈
        (standard kind).linkEvents (changeTo store kind id proposed)
  · obtain ⟨linked, listed⟩ := moved
    obtain ⟨_, inNew, inOld⟩ := (mem_linkEvents_iff admits).mp listed
    cases live : after.liveVersion? member with
    | none =>
        refine ⟨none, ?_, nofun, fun _ => Or.inl rfl⟩
        rw [Option.toList_none, List.append_nil]
        exact writes.linkRows_of_quiet registered admits keyed fun _ _ _ _ about => about ▸ live
    | some memberVersion =>
        have written := writes.linkRows_of_event registered admits keyed listed numbered live
        refine ⟨some _, written, ?_, nofun⟩
        intro link same
        cases same
        exact ⟨rfl, rfl, rfl, inNew, inOld⟩
  · have steady : member ∈ (versionContent store id proposed).members relation ↔
        member ∈ ((store.stored? id).getD .empty).members relation := by
      by_cases inNew : member ∈ (versionContent store id proposed).members relation <;>
        by_cases inOld : member ∈ ((store.stored? id).getD .empty).members relation
      · exact iff_of_true inNew inOld
      · exact absurd ⟨true, (mem_linkEvents_iff admits).mpr
          ⟨logged, by simp [inNew], by simp [inOld]⟩⟩ moved
      · exact absurd ⟨false, (mem_linkEvents_iff admits).mpr
          ⟨logged, by simp [inNew], by simp [inOld]⟩⟩ moved
      · exact iff_of_false inNew inOld
    refine ⟨none, ?_, nofun, fun _ => Or.inr steady⟩
    rw [Option.toList_none, List.append_nil]
    refine writes.linkRows_of_quiet registered admits keyed ?_
    rintro _ ⟨other, otherLog, _, linked⟩ listed table rfl
    obtain ⟨rfl, rfl⟩ := Descriptor.standard_log_injective
      ((mem_linkEvents_iff admits).mp listed).1 logged table
    exact absurd ⟨linked, listed⟩ moved

end Writes

end Env

end Chronicle
