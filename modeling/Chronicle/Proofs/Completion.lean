import Chronicle.Proofs.Chains
import Chronicle.Proofs.Refusals

/-!
# Commits that are carried out

The tables refuse rows with a number that is taken, or out of range. A version that has no snapshot
yet can be written as long as its number is in range (`Env.writeVersion_carried`), and in a store
where link rows correspond to snapshots the next version never has one. So a commit that is admitted
is carried out, unless it would give its record a version that cannot be stored (`Env.apply_carried`,
`Env.apply_of_exhausts`); and one that is not admitted is refused for what was asked for
(`Env.apply_of_not_admits`).
-/

namespace Chronicle

open Descriptor (standard)

/-! ## Link rows -/

namespace Store

variable {store : Store} {table : String} {owner member : EntityId}

/-- The number after those of the rows of an owner and a member is free. -/
theorem KeyedLinks.next_free (keyed : store.KeyedLinks)
    (numbered : Numbered (store.linkRows table owner member)) :
    store.links.get? (table, owner, member, (store.linkRows table owner member).length + 1) =
      none := by
  refine Option.eq_none_iff_forall_ne_some.mpr fun link found => ?_
  obtain ⟨_, _, number⟩ := keyed _ _ _ _ _ found
  have listed : link.version ∈ (store.linkRows table owner member).map LinkRow.version :=
    List.mem_map.mpr ⟨link, mem_linkRows_iff.mpr ⟨_, found⟩, rfl⟩
  rw [numbered, List.mem_range'_1] at listed
  omega

/-- What a link row needs to be added under the next number: that number and the versions of both
records are in range. -/
structure TakesLink (store : Store) (table : String) (owner member : EntityId) : Prop where
  numbered : Numbered (store.linkRows table owner member)
  short : (store.linkRows table owner member).length + 1 < versionLimit
  bounded : ∀ version, store.liveVersion? member = some version → version < versionLimit

/-- A row whose numbers are in range is added where its own is free. -/
theorem insertLink_own {link : LinkRow}
    (bounded : link.version < versionLimit) (ownerBounded : link.ownerVersion < versionLimit)
    (memberBounded : link.memberVersion < versionLimit) (positive : 0 < link.version)
    (free : store.links.get? (table, link.owner, link.member, link.version) = none) :
    store.insertLink (.own table) link = .ok { store with
      links := store.links.insert (table, link.owner, link.member, link.version) link
      places := store.places.insert (table, link.owner, link.member, link.version)
        (store.linkCount table + 1) } := by
  have vacant : ¬ (link.version = 0 ∨
      store.links.contains (table, link.owner, link.member, link.version) = true) := by
    rintro (zero | taken)
    · omega
    · rw [Dict.contains, free] at taken
      cases taken
  simp only [insertLink, bind_eq_ok, VersionColumn.check]
  exact ⟨(), if_pos bounded, (), if_pos ownerBounded, (), if_pos memberBounded, if_neg vacant⟩

end Store

namespace Env

section Links

variable {env : Env} {owner : EntityId} {version : Nat} {actor : Actor} {now : Int64}
  {store : Store}

theorem writeLink_carried {event : LinkEvent}
    (own : env.registry.linkTable event.log = .own event.log.table) (keyed : store.KeyedLinks)
    (bounded : version < versionLimit)
    (takes : store.TakesLink event.log.table owner event.member) :
    ∃ skipped after, env.writeLink owner version actor now event store = .ok (skipped, after) := by
  unfold writeLink
  cases live : store.liveVersion? event.member with
  | none => exact ⟨_, _, rfl⟩
  | some memberVersion =>
      have last : store.lastLinkVersion (.own event.log.table) owner event.member =
          .ok (store.linkRows event.log.table owner event.member).length := by
        rw [← Store.foldl_max_of_numbered takes.numbered]
        rfl
      have memberBounded := takes.bounded memberVersion live
      simp only [own, bind_eq_ok, ofStore_eq_ok, pure_eq_ok]
      exact ⟨none, _, _, last, _, Store.insertLink_own takes.short bounded memberBounded
        (Nat.succ_pos _) (keyed.next_free takes.numbered), rfl⟩

/-- Rows are added for all members that come or leave. -/
theorem writeLinks_carried {events : List LinkEvent}
    (own : ∀ event ∈ events, env.registry.linkTable event.log = .own event.log.table)
    (once : events.Pairwise fun first second =>
      first.log.table = second.log.table → first.member ≠ second.member)
    (keyed : store.KeyedLinks) (bounded : version < versionLimit)
    (takes : ∀ event ∈ events, store.TakesLink event.log.table owner event.member) :
    ∃ skipped after, inTurn (env.writeLink owner version actor now) events store =
      .ok (skipped, after) := by
  induction events generalizing store with
  | nil => exact ⟨[], store, rfl⟩
  | cons event rest ih =>
      obtain ⟨ownFirst, ownRest⟩ := List.forall_mem_cons.mp own
      obtain ⟨takesFirst, takesRest⟩ := List.forall_mem_cons.mp takes
      obtain ⟨apart, onceRest⟩ := List.pairwise_cons.mp once
      obtain ⟨skipped, next, written⟩ := writeLink_carried ownFirst keyed bounded takesFirst
      obtain ⟨keyedNext, live⟩ := writeLink_steady ownFirst keyed written
      have takesNext : ∀ other ∈ rest, next.TakesLink other.log.table owner other.member := by
        intro other listed
        have rows : next.linkRows other.log.table owner other.member =
            store.linkRows other.log.table owner other.member := by
          rcases writeLink_cases ownFirst written with ⟨_, rfl⟩ | ⟨_, _, _, _, _, _, links⟩
          · rfl
          · refine Store.linkRows_insert_of_ne links ?_
            intro same
            obtain ⟨sameTable, sameMember⟩ := Prod.mk.inj same
            exact apart other listed sameTable.symm (Prod.mk.inj sameMember).2.symm
        obtain ⟨numbered, short, memberBounded⟩ := takesRest other listed
        rw [← rows] at numbered short
        exact ⟨numbered, short, fun version isLive => memberBounded version (live _ ▸ isLive)⟩
      obtain ⟨others, after, later⟩ := ih ownRest onceRest keyedNext takesNext
      exact ⟨skipped :: others, after,
        inTurn_cons_eq_ok.mpr ⟨skipped, next, others, written, later, rfl⟩⟩

end Links

/-! ## Versions -/

section Versions

variable {env : Env} {kind : Kind} {id : EntityId} {proposed : Option Content}
  {attribution : Attribution} {store : Store}

/-- Once the row and the snapshot of a later version are written, its link rows can be. -/
theorem versioned_takes (sound : store.SoundRows) (tallies : store.Tallies kind id)
    (admits : store.Admits kind id proposed) {version : Nat} (later : store.counter id < version)
    (bounded : version < versionLimit) {event : LinkEvent}
    (listed : event ∈ (standard kind).linkEvents (changeTo store kind id proposed)) :
    (versioned env store kind id proposed attribution version).TakesLink
      event.log.table id event.member := by
  obtain ⟨logged, _, _⟩ := (Writes.mem_linkEvents_iff admits).mp listed
  refine ⟨tallies.numbered _ _ logged event.member, ?_, ?_⟩
  · have length : (store.linkRows event.log.table id event.member).length ≤ store.counter id :=
      tallies.short _ _ logged event.member
    exact Nat.lt_of_le_of_lt (Nat.succ_le_of_lt (Nat.lt_of_le_of_lt length later)) bounded
  · intro memberVersion live
    obtain ⟨row, found, _, rfl⟩ := Store.liveVersion?_eq_some_iff.mp live
    -- a record that links to itself has the version that was just written
    by_cases same : event.member = id
    · rw [same, Store.row?, versioned, Dict.get?_insert_self] at found
      cases found
      exact bounded
    · rw [Store.row?, versioned, Dict.get?_insert_of_ne _ same] at found
      exact (sound event.member row found).bounded

/-- The row of a version can be written if its number is in range. -/
theorem writeRow_carried (env : Env) (sound : store.SoundRows) (admits : store.Admits kind id proposed)
    {version : Nat} (positive : 0 < version) (bounded : version < versionLimit) :
    store.writeRow (standard kind) id version (versionContent store id proposed)
        (changeTo store kind id proposed).kind env.now =
      .ok (store.setRow id (versionRow env store kind id proposed version)) := by
  rw [Store.writeRow_eq_ok (admits.opens sound) admits.created_iff
    (versionContent_declares admits), admits.deleted_eq]
  exact ⟨⟨positive, bounded⟩, rfl⟩

/-- A later version can be written if its number is in range and it has no snapshot yet. -/
theorem writeVersion_carried (registered : env.registry = .standard) (started : ¬ env.now < 0)
    (sound : store.SoundRows) (keyed : store.KeyedLinks) (tallies : store.Tallies kind id)
    (admits : store.Admits kind id proposed) {version : Nat} (later : store.counter id < version)
    (bounded : version < versionLimit) (free : store.recorded? kind id version = none) :
    ∃ outcome after, env.writeVersion (standard kind) id (versionContent store id proposed)
      (changeTo store kind id proposed) attribution version store = .ok (outcome, after) := by
  have positive : 0 < version := Nat.zero_lt_of_lt later
  have row := writeRow_carried env sound admits positive bounded
  have snapshot : (store.setRow id (versionRow env store kind id proposed version)).insertSnapshot
      (standard kind) (versionSnapshot env store kind id proposed attribution version) =
        .ok (versioned env store kind id proposed attribution version) :=
    Store.insertSnapshot_eq_ok.mpr ⟨⟨positive, bounded⟩, free, rfl⟩
  have links : ∃ skipped after,
      inTurn (env.writeLink id version attribution.actor env.now)
        ((standard kind).linkEvents (changeTo store kind id proposed))
        (versioned env store kind id proposed attribution version) = .ok (skipped, after) :=
    writeLinks_carried (Writes.linkTable_of_event registered admits)
      (Descriptor.linkEvents_once kind _ _)
      (Writes.keyedLinks_versioned keyed) bounded
      fun event listed => versioned_takes sound tallies admits later bounded listed
  obtain ⟨skipped, after, links⟩ := links
  simp only [writeVersion, bind_eq_ok, ofStore_eq_ok, clock_eq_ok, Prod.exists, pure_eq_ok,
    Prod.mk.injEq, Descriptor.standard_kind]
  exact ⟨_, _, _, ⟨rfl, started⟩, _, row, _, snapshot, skipped, after, links, rfl, rfl⟩

/-- A version that is out of range is refused as such. -/
theorem writeVersion_of_beyond (started : ¬ env.now < 0) (sound : store.SoundRows)
    (admits : store.Admits kind id proposed) {version : Nat} (beyond : ¬ version < versionLimit) :
    env.writeVersion (standard kind) id (versionContent store id proposed)
        (changeTo store kind id proposed) attribution version store =
      .error (.store (.outOfRange .version version)) := by
  have clock : env.clock = .ok env.now := clock_eq_ok.mpr ⟨rfl, started⟩
  rw [writeVersion, clock]
  change (Refusal.ofStore _ >>= _) = _
  rw [Store.writeRow_of_beyond (admits.opens sound) admits.created_iff
    (versionContent_declares admits) beyond]
  rfl

end Versions

end Env

/-! ## Commits -/

/-- A cause that lies in what was asked for, or in what other producers have stored. -/
def Refusal.Ordinary : Refusal → Prop
  | recordMissing _ | recordDeleted _ | kindMismatch _ _ _ | invalidContent _
  | memberKind _ _ _ _ _ | notLogged _ _ | conflicting _ | conflictMissing _ _ => True
  | store _ | data _ | versionRaced _ _ _ => False

/-- A commit is admitted and would change its record, but the version that comes next cannot be
stored. -/
structure Store.Exhausts (store : Store) (kind : Kind) (id : EntityId)
    (proposed : Option Content) : Prop where
  admits : store.Admits kind id proposed
  material : (Env.changeTo store kind id proposed).isMaterial = true
  last : store.counter id + 1 = versionLimit

theorem Store.checkProposed_ordinary {store : Store} {descriptor : Descriptor}
    {proposed : Option Content} {refusal : Refusal}
    (refused : store.checkProposed descriptor proposed = .error refusal) : refusal.Ordinary := by
  cases proposed with
  | none => cases refused
  | some content =>
      simp only [checkProposed] at refused
      cases checked : descriptor.check content with
      | error fault =>
          rw [checked] at refused
          cases refused
          exact trivial
      | ok _ =>
          rw [checked] at refused
          cases fault : store.memberFault? descriptor content with
          | none =>
              rw [fault] at refused
              cases refused
          | some found =>
              obtain ⟨_, _, _, _, _, rfl⟩ := memberFault?_eq_some fault
              rw [fault] at refused
              cases refused
              exact trivial

theorem Store.previous_ordinary {store : Store} {descriptor : Descriptor} {id : EntityId}
    {refusal : Refusal} (refused : store.previous descriptor id = .error refusal) :
    refusal.Ordinary := by
  unfold previous at refused
  split at refused
  · cases refused
  · split at refused
    · cases refused
      exact trivial
    · split at refused
      · cases refused
        exact trivial
      · cases refused

namespace Env

variable {env : Env} {kind : Kind} {id : EntityId} {proposed : Option Content}
  {attribution : Attribution} {store : Store}

/-- What a commit that is admitted comes down to. -/
theorem apply_of_admits (registered : env.registry = .standard) (sound : store.SoundRows)
    (admits : store.Admits kind id proposed) :
    env.apply kind id proposed attribution store =
      if (changeTo store kind id proposed).isMaterial then
        env.writeNext (standard kind) id (versionContent store id proposed)
          (changeTo store kind id proposed) attribution (store.counter id) store (env.retries + 1)
          (store.counter id + 1)
      else .ok (⟨id, kind, store.counter id, changeTo store kind id proposed, []⟩, store) := by
  have checked : store.checkProposed (standard kind) proposed = .ok () :=
    Store.checkProposed_eq_ok.mpr fun content same =>
      ⟨admits.accepted content same, admits.members content same⟩
  have before := (Store.previous_eq_ok sound).mpr ⟨admits.present, rfl⟩
  have something : ((store.stored? id).isNone && proposed.isNone) = false := by
    cases stored : store.stored? id with
    | some content => rfl
    | none =>
        cases same : proposed with
        | some content => rfl
        | none => exact absurd same (admits.something_stored stored)
  unfold apply
  rw [descriptor_standard registered]
  change (store.checkProposed (standard kind) proposed >>= _) = _
  rw [checked]
  change (store.previous (standard kind) id >>= _) = _
  rw [before]
  change (if ((store.stored? id).isNone && proposed.isNone) = true then _ else _) = _
  rw [something]
  rfl

/-- A commit that is admitted is carried out, if the version that it writes is in range. -/
theorem apply_carried (registered : env.registry = .standard) (started : ¬ env.now < 0)
    (chained : store.Chained) (admits : store.Admits kind id proposed)
    (bounded : (changeTo store kind id proposed).isMaterial = true →
      store.counter id + 1 < versionLimit) :
    ∃ outcome after, env.apply kind id proposed attribution store = .ok (outcome, after) := by
  have recorded := chained.traced.recorded
  rw [apply_of_admits registered recorded.rows admits]
  split
  · rename_i material
    have free : store.recorded? kind id (store.counter id + 1) = none := by
      refine Option.eq_none_iff_forall_ne_some.mpr fun snapshot kept => ?_
      have reached := recorded.le_counter kept
      omega
    obtain ⟨outcome, after, written⟩ :=
      writeVersion_carried registered started recorded.rows chained.keyed (chained.tallies admits)
        admits (Nat.lt_succ_self _) (bounded material) free
    refine ⟨outcome, after, ?_⟩
    rw [writeNext, written]
  · exact ⟨_, _, rfl⟩

theorem apply_of_exhausts (registered : env.registry = .standard) (started : ¬ env.now < 0)
    (chained : store.Chained) (exhausts : store.Exhausts kind id proposed) :
    env.apply kind id proposed attribution store =
      .error (.store (.outOfRange .version versionLimit)) := by
  obtain ⟨admits, material, last⟩ := exhausts
  have sound := chained.traced.recorded.rows
  rw [apply_of_admits registered sound admits, if_pos material, writeNext, last,
    writeVersion_of_beyond started sound admits (Nat.lt_irrefl _)]

/-- A commit that is not admitted is refused for what was asked for. -/
theorem apply_of_not_admits (registered : env.registry = .standard) (sound : store.SoundRows)
    (inadmissible : ¬ store.Admits kind id proposed) :
    ∃ refusal, refusal.Ordinary ∧
      env.apply kind id proposed attribution store = .error refusal := by
  unfold apply
  rw [descriptor_standard registered]
  change ∃ refusal, _ ∧ (store.checkProposed (standard kind) proposed >>= _) = _
  cases checked : store.checkProposed (standard kind) proposed with
  | error refusal => exact ⟨refusal, Store.checkProposed_ordinary checked, rfl⟩
  | ok _ =>
      change ∃ refusal, _ ∧ (store.previous (standard kind) id >>= _) = _
      cases given : store.previous (standard kind) id with
      | error refusal => exact ⟨refusal, Store.previous_ordinary given, rfl⟩
      | ok before =>
          obtain ⟨present, rfl⟩ := (Store.previous_eq_ok sound).mp given
          have passes := Store.checkProposed_eq_ok.mp checked
          have nothing : store.row? id = none ∧ proposed = none := by
            by_contra something
            exact inadmissible ⟨fun content same => (passes content same).1,
              fun content same => (passes content same).2, present,
              fun none missing => something ⟨none, missing⟩⟩
          obtain ⟨none, rfl⟩ := nothing
          refine ⟨.recordMissing id, trivial, ?_⟩
          change (if ((store.stored? id).isNone && true) = true then _ else _) = _
          rw [Store.stored?, none]
          rfl

end Env

end Chronicle
