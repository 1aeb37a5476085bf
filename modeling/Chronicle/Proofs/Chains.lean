import Chronicle.Proofs.Linkage

/-!
# Chains of link rows

In every store that a run can lead to, link rows correspond to snapshots (`Store.Chained`). What
carries this from one commit to the next is that the last row of a live member tells whether it
is listed: a member that is not live never comes back, so the rows that are left out for it do
not matter to any later one.
-/

namespace Chronicle

open Descriptor (standard)

/-! ## The invariant -/

/-- Link rows are kept under their keys, name versions that both records have reached, and
correspond to the snapshots; the last one of a live member tells whether the row of the owner
lists it. -/
structure Store.Chained (store : Store) : Prop where
  traced : store.Traced
  keyed : store.KeyedLinks
  owned : ∀ table owner member, ∀ link ∈ store.linkRows table owner member,
    ∃ row, store.row? owner = some row ∧ link.ownerVersion ≤ row.version
  known : ∀ table owner member, ∀ link ∈ store.linkRows table owner member,
    ∃ row, store.row? member = some row ∧ link.memberVersion ≤ row.version
  linkage : ∀ (tie : Tie) log row, store.row? tie.owner = some row → row.kind = tie.kind →
    (standard tie.kind).log? tie.relation = some log →
    store.Linkage tie (store.linkRows log.table tie.owner tie.member)
  current : ∀ (tie : Tie) log row, store.row? tie.owner = some row → row.kind = tie.kind →
    (standard tie.kind).log? tie.relation = some log → store.liveVersion? tie.member ≠ none →
    ∀ link, (store.linkRows log.table tie.owner tie.member).getLast? = some link →
      (link.linked = true ↔ tie.member ∈ row.content.members tie.relation)

namespace Store

theorem liveVersion?_eq_some_iff {store : Store} {id : EntityId} {version : Nat} :
    store.liveVersion? id = some version ↔
      ∃ row, store.row? id = some row ∧ row.deleted = false ∧ row.version = version := by
  unfold liveVersion?
  cases store.row? id with
  | none => simp
  | some row => cases deleted : row.deleted <;> simp [deleted]

theorem chained_empty : Store.empty.Chained := by
  have none (table : String) (owner member : EntityId) :
      Store.empty.linkRows table owner member = [] := rfl
  refine ⟨traced_empty, ?_, ?_, ?_, ?_, ?_⟩
  · intro table owner member version link found
    cases found
  · intro table owner member link listed
    rw [none] at listed
    cases listed
  · intro table owner member link listed
    rw [none] at listed
    cases listed
  · intro tie log row found
    cases found
  · intro tie log row found
    cases found

/-- The last snapshot of an owner lists what its row lists. -/
theorem Traced.lists_counter {store : Store} (traced : store.Traced) {tie : Tie}
    {proposed : Option Content} (admits : store.Admits tie.kind tie.owner proposed) :
    store.Lists tie (store.counter tie.owner) ↔
      tie.member ∈ ((store.stored? tie.owner).getD .empty).members tie.relation := by
  cases found : store.row? tie.owner with
  | none =>
      rw [stored?, found]
      constructor
      · rintro ⟨snapshot, kept, _⟩
        obtain ⟨row, rowFound, _⟩ := traced.recorded.row_of_recorded? kept
        rw [found] at rowFound
        cases rowFound
      · intro impossible
        cases impossible
  | some row =>
      obtain ⟨kind, _⟩ := admits.present row found
      have positive := (traced.recorded.rows tie.owner row found).positive
      obtain ⟨snapshot, kept⟩ := traced.recorded.complete tie.owner row found row.version positive
        (Nat.le_refl _)
      have content := (traced.last tie.owner row snapshot found kept).1
      rw [kind] at kept
      rw [stored?, found, counter_of_row? found, Option.map_some, Option.getD_some, content,
        Content.mem_members_canonical, lists_iff_of_recorded? kept]

namespace Chained

variable {store : Store}

theorem linkRows_of_owner_absent (chained : store.Chained) {owner : EntityId}
    (absent : store.row? owner = none) (table : String) (member : EntityId) :
    store.linkRows table owner member = [] := by
  refine List.eq_nil_iff_forall_not_mem.mpr fun link listed => ?_
  obtain ⟨row, found, _⟩ := chained.owned table owner member link listed
  rw [absent] at found
  cases found

theorem linkRows_of_member_absent (chained : store.Chained) {member : EntityId}
    (absent : store.row? member = none) (table : String) (owner : EntityId) :
    store.linkRows table owner member = [] := by
  refine List.eq_nil_iff_forall_not_mem.mpr fun link listed => ?_
  obtain ⟨row, found, _⟩ := chained.known table owner member link listed
  rw [absent] at found
  cases found

theorem ownerVersion_le (chained : store.Chained) {table : String} {owner member : EntityId}
    {link : LinkRow} (listed : link ∈ store.linkRows table owner member) :
    link.ownerVersion ≤ store.counter owner := by
  obtain ⟨row, found, bound⟩ := chained.owned table owner member link listed
  rwa [counter_of_row? found]

/-- The rows of an owner that gets another version correspond to its snapshots, also if it is
new. -/
theorem linkage_of_admits (chained : store.Chained) {tie : Tie} {proposed : Option Content}
    (admits : store.Admits tie.kind tie.owner proposed) {log : LinkLog}
    (logged : (standard tie.kind).log? tie.relation = some log) :
    store.Linkage tie (store.linkRows log.table tie.owner tie.member) := by
  cases found : store.row? tie.owner with
  | some row => exact chained.linkage tie log row found (admits.present row found).1 logged
  | none =>
      rw [chained.linkRows_of_owner_absent found]
      refine linkage_nil fun version => Option.eq_none_iff_forall_ne_some.mpr ?_
      intro snapshot kept
      obtain ⟨row, rowFound, _⟩ := chained.traced.recorded.row_of_recorded? kept
      rw [found] at rowFound
      cases rowFound

theorem tallies (chained : store.Chained) {kind : Kind} {id : EntityId} {proposed : Option Content}
    (admits : store.Admits kind id proposed) : store.Tallies kind id := by
  have linkage {relation : String} {log : LinkLog}
      (logged : (standard kind).log? relation = some log) (member : EntityId) :
      store.Linkage ⟨kind, id, relation, member⟩ (store.linkRows log.table id member) :=
    chained.linkage_of_admits admits logged
  exact ⟨fun _ _ logged member => (linkage logged member).numbered,
    fun _ _ logged member => (linkage logged member).length_le chained.traced.recorded⟩

end Chained

end Store

/-! ## One commit -/

namespace Env.Writes

variable {env : Env} {tie : Tie} {kind : Kind} {id : EntityId} {proposed : Option Content}
  {attribution : Attribution} {version : Nat} {store after : Store} {outcome : Outcome}

theorem lists_self (admits : store.Admits tie.kind tie.owner proposed)
    (writes : Writes env tie.kind tie.owner proposed attribution version store outcome after) :
    after.Lists tie version ↔
      tie.member ∈ (versionContent store tie.owner proposed).members tie.relation := by
  rw [Store.lists_iff_of_recorded? writes.recorded?_self, writes.members_content_self admits]

theorem refers_self (admits : store.Admits tie.kind tie.owner proposed)
    (writes : Writes env tie.kind tie.owner proposed attribution version store outcome after)
    {memberVersion : Nat} :
    after.Refers tie version memberVersion ↔
      tie.member ∈ (versionContent store tie.owner proposed).members tie.relation ∧
        after.liveVersion? tie.member = some memberVersion := by
  rw [Store.refers_iff_of_recorded? writes.recorded?_self, writes.refs_self admits, List.mem_map]
  constructor
  · rintro ⟨member, listed, same⟩
    obtain ⟨here, live⟩ := MemberRef.mk.inj same
    subst here
    exact ⟨listed, live⟩
  · rintro ⟨listed, live⟩
    exact ⟨tie.member, listed, by rw [live]⟩

/-- A record that is live after a version was written was live before, or did not exist. -/
theorem live_before (admits : store.Admits kind id proposed)
    (writes : Writes env kind id proposed attribution version store outcome after)
    {member : EntityId} (live : after.liveVersion? member ≠ none) :
    store.liveVersion? member ≠ none ∨ store.row? member = none := by
  cases found : store.row? member with
  | none => exact Or.inr rfl
  | some row =>
      refine Or.inl ?_
      by_cases same : member = id
      · subst same
        rw [Store.liveVersion?_eq_some_iff.mpr ⟨row, found, (admits.present row found).2, rfl⟩]
        exact nofun
      · rwa [Store.liveVersion?, writes.row?_of_ne same, ← Store.liveVersion?] at live

/-- No record goes back to an earlier version. -/
theorem row?_mono (admits : store.Admits kind id proposed) (next : version = store.counter id + 1)
    (writes : Writes env kind id proposed attribution version store outcome after)
    {other : EntityId} {row : EntityRow} (found : store.row? other = some row) :
    ∃ later, after.row? other = some later ∧ row.version ≤ later.version := by
  by_cases same : other = id
  · subst same
    refine ⟨_, writes.row?_self, ?_⟩
    have counter := Store.counter_of_row? found
    change row.version ≤ version
    omega
  · exact ⟨row, by rw [writes.row?_of_ne same, found], Nat.le_refl _⟩

/-- What a version adds for a member, in terms of the snapshots before and after it. -/
theorem exists_link (tie : Tie) (registered : env.registry = .standard) (chained : store.Chained)
    (admits : store.Admits tie.kind tie.owner proposed)
    (writes : Writes env tie.kind tie.owner proposed attribution version store outcome after)
    {log : LinkLog} (logged : (standard tie.kind).log? tie.relation = some log) :
    ∃ added : Option LinkRow,
      after.linkRows log.table tie.owner tie.member =
        store.linkRows log.table tie.owner tie.member ++ added.toList ∧
      (∀ link, added = some link →
        link.version = (store.linkRows log.table tie.owner tie.member).length + 1 ∧
        link.ownerVersion = version ∧ after.liveVersion? tie.member = some link.memberVersion ∧
        (after.Lists tie version ↔ link.linked = true) ∧
        (store.Lists tie (store.counter tie.owner) ↔ link.linked = false)) ∧
      (added = none → after.liveVersion? tie.member = none ∨
        (after.Lists tie version ↔ store.Lists tie (store.counter tie.owner))) := by
  have linkage := chained.linkage_of_admits admits logged
  obtain ⟨added, rows, given, otherwise⟩ := writes.exists_added registered admits chained.keyed
    logged tie.member linkage.numbered
  simp only [← lists_self admits writes, ← chained.traced.lists_counter admits] at given otherwise
  exact ⟨added, rows, given, otherwise⟩

/-- The last row of a member that stays live tells whether the last snapshot lists it. -/
theorem lists_of_last (chained : store.Chained) (admits : store.Admits tie.kind tie.owner proposed)
    (writes : Writes env tie.kind tie.owner proposed attribution version store outcome after)
    {log : LinkLog} (logged : (standard tie.kind).log? tie.relation = some log)
    (live : after.liveVersion? tie.member ≠ none) {link : LinkRow}
    (last : (store.linkRows log.table tie.owner tie.member).getLast? = some link) :
    link.linked = true ↔ store.Lists tie (store.counter tie.owner) := by
  rcases writes.live_before admits live with liveBefore | absent
  · obtain ⟨row, found, _⟩ := chained.owned _ _ _ link (List.mem_of_getLast? last)
    have kind := (admits.present row found).1
    rw [chained.current tie log row found kind logged liveBefore link last,
      chained.traced.lists_counter admits, Store.stored?, found, Option.map_some, Option.getD_some]
  · rw [chained.linkRows_of_member_absent absent] at last
    cases last

/-- The rows of the owner still correspond to its snapshots. -/
theorem linkage_self (registered : env.registry = .standard) (chained : store.Chained)
    (admits : store.Admits tie.kind tie.owner proposed)
    (next : version = store.counter tie.owner + 1)
    (writes : Writes env tie.kind tie.owner proposed attribution version store outcome after)
    {log : LinkLog} (logged : (standard tie.kind).log? tie.relation = some log) :
    after.Linkage tie (after.linkRows log.table tie.owner tie.member) := by
  obtain ⟨added, rows, given, otherwise⟩ := writes.exists_link tie registered chained admits logged
  have past (number : Nat) (other : number ≠ store.counter tie.owner + 1) :
      after.recorded? tie.kind tie.owner number = store.recorded? tie.kind tie.owner number :=
    writes.recorded?_of_older (next ▸ other) tie.kind tie.owner
  have last (number : Nat) (beyond : store.counter tie.owner < number) :
      store.recorded? tie.kind tie.owner number = none := by
    refine Option.eq_none_iff_forall_ne_some.mpr fun snapshot kept => ?_
    have bound := chained.traced.recorded.le_counter kept
    omega
  have refers (memberVersion : Nat) : after.Refers tie version memberVersion ↔
      after.Lists tie version ∧ after.liveVersion? tie.member = some memberVersion := by
    rw [writes.refers_self admits, writes.lists_self admits]
  rw [rows]
  refine Store.Adds.linkage ⟨past, last, ?_, ?_, ?_, ?_, ?_, ?_, ?_⟩
    (chained.linkage_of_admits admits logged)
  · intro link listed
    exact chained.ownerVersion_le listed
  · intro new isNew
    exact (given new isNew).1
  · intro new isNew
    rw [(given new isNew).2.1, next]
  · intro link listed new isNew
    obtain ⟨row, found, bound⟩ := chained.known _ _ _ link listed
    obtain ⟨later, laterFound, mono⟩ := writes.row?_mono admits next found
    obtain ⟨own, ownFound, _, same⟩ := Store.liveVersion?_eq_some_iff.mp (given new isNew).2.2.1
    rw [laterFound] at ownFound
    cases ownFound
    omega
  · intro link isLast new isNew same
    obtain ⟨_, _, live, _, inOld⟩ := given new isNew
    have told := writes.lists_of_last chained admits logged (by simp [live]) isLast
    rw [inOld, same] at told
    cases linked : new.linked <;> simp [linked] at told
  · intro memberVersion
    rw [← next, refers]
    constructor
    · rintro ⟨new, isNew, linked, rfl⟩
      obtain ⟨_, _, live, inNew, inOld⟩ := given new isNew
      exact ⟨⟨inNew.mpr linked, live⟩, by simp [inOld, linked]⟩
    · rintro ⟨⟨inNew, live⟩, notOld⟩
      cases isNew : added with
      | none =>
          rcases otherwise isNew with dead | steady
          · rw [dead] at live
            cases live
          · exact absurd (steady.mp inNew) notOld
      | some new =>
          obtain ⟨_, _, newLive, isLinked, _⟩ := given new isNew
          rw [live] at newLive
          exact ⟨new, rfl, isLinked.mp inNew, (Option.some.inj newLive).symm⟩
  · intro new isNew unlinked
    obtain ⟨_, _, _, inNew, inOld⟩ := given new isNew
    rw [← next]
    refine ⟨?_, ?_, _, writes.recorded?_self⟩
    · rw [Store.lists_congr (past _ (by omega)), next, Nat.add_sub_cancel, inOld]
      exact unlinked
    · rw [inNew, unlinked]
      exact Bool.false_ne_true

/-- The last row of a live member still tells whether the owner lists it. -/
theorem current_self (registered : env.registry = .standard) (chained : store.Chained)
    (admits : store.Admits tie.kind tie.owner proposed)
    (writes : Writes env tie.kind tie.owner proposed attribution version store outcome after)
    {log : LinkLog} (logged : (standard tie.kind).log? tie.relation = some log)
    (live : after.liveVersion? tie.member ≠ none) {link : LinkRow}
    (last : (after.linkRows log.table tie.owner tie.member).getLast? = some link) :
    link.linked = true ↔ after.Lists tie version := by
  obtain ⟨added, rows, given, otherwise⟩ := writes.exists_link tie registered chained admits logged
  rw [rows, List.getLast?_append] at last
  cases isNew : added with
  | some new =>
      rw [isNew] at last
      cases last
      exact (given _ isNew).2.2.2.1.symm
  | none =>
      rw [isNew] at last
      rw [writes.lists_of_last chained admits logged live last]
      rcases otherwise isNew with dead | steady
      · exact absurd dead live
      · exact steady.symm

/-- A version adds one row at most for an owner and a member: its own record, and one that is
live. -/
theorem linkRows_cases (registered : env.registry = .standard) (chained : store.Chained)
    (admits : store.Admits kind id proposed)
    (writes : Writes env kind id proposed attribution version store outcome after)
    (table : String) (owner member : EntityId) :
    after.linkRows table owner member = store.linkRows table owner member ∨
      owner = id ∧ ∃ link,
        after.linkRows table owner member = store.linkRows table owner member ++ [link] ∧
        link.ownerVersion = version ∧ after.liveVersion? member = some link.memberVersion := by
  by_cases own : owner = id ∧ ∃ relation log, (standard kind).log? relation = some log ∧
      log.table = table
  · obtain ⟨rfl, relation, log, logged, rfl⟩ := own
    obtain ⟨added, rows, given, _⟩ := writes.exists_link ⟨kind, owner, relation, member⟩ registered
      chained admits logged
    cases isNew : added with
    | none =>
        rw [isNew, Option.toList_none, List.append_nil] at rows
        exact Or.inl rows
    | some link =>
        obtain ⟨_, here, live, _⟩ := given link isNew
        rw [isNew] at rows
        exact Or.inr ⟨rfl, link, rows, here, live⟩
  · refine Or.inl (writes.linkRows_of_quiet registered admits chained.keyed ?_)
    intro same event listed here _
    exact absurd ⟨same, _, _, ((mem_linkEvents_iff admits).mp listed).1, here⟩ own

/-- Every row still names versions that both of its records have reached. -/
theorem reached (registered : env.registry = .standard) (chained : store.Chained)
    (admits : store.Admits kind id proposed) (next : version = store.counter id + 1)
    (writes : Writes env kind id proposed attribution version store outcome after)
    {table : String} {owner member : EntityId} {link : LinkRow}
    (listed : link ∈ after.linkRows table owner member) :
    (∃ row, after.row? owner = some row ∧ link.ownerVersion ≤ row.version) ∧
      ∃ row, after.row? member = some row ∧ link.memberVersion ≤ row.version := by
  have old (before : link ∈ store.linkRows table owner member) :
      (∃ row, after.row? owner = some row ∧ link.ownerVersion ≤ row.version) ∧
        ∃ row, after.row? member = some row ∧ link.memberVersion ≤ row.version := by
    obtain ⟨row, found, bound⟩ := chained.owned table owner member link before
    obtain ⟨later, laterFound, mono⟩ := writes.row?_mono admits next found
    obtain ⟨memberRow, memberFound, memberBound⟩ := chained.known table owner member link before
    obtain ⟨memberLater, memberLaterFound, memberMono⟩ := writes.row?_mono admits next memberFound
    exact ⟨⟨later, laterFound, Nat.le_trans bound mono⟩,
      ⟨memberLater, memberLaterFound, Nat.le_trans memberBound memberMono⟩⟩
  rcases writes.linkRows_cases registered chained admits table owner member with
    same | ⟨rfl, new, grown, here, live⟩
  · exact old (same ▸ listed)
  · rw [grown] at listed
    rcases List.mem_append.mp listed with before | isNew
    · exact old before
    · rw [List.mem_singleton.mp isNew]
      obtain ⟨row, found, _, same⟩ := Store.liveVersion?_eq_some_iff.mp live
      exact ⟨⟨_, writes.row?_self, Nat.le_of_eq here⟩, ⟨row, found, Nat.le_of_eq same.symm⟩⟩

/-- A written version keeps link rows and snapshots together. -/
theorem chained (registered : env.registry = .standard) (chained : store.Chained)
    (admits : store.Admits kind id proposed)
    (material : (changeTo store kind id proposed).isMaterial = true)
    (next : version = store.counter id + 1)
    (writes : Writes env kind id proposed attribution version store outcome after) :
    after.Chained := by
  have untouched {table : String} {owner member : EntityId} (other : owner ≠ id) :
      after.linkRows table owner member = store.linkRows table owner member :=
    writes.linkRows_of_quiet registered admits chained.keyed fun same => absurd same other
  refine ⟨writes.traced chained.traced admits material next,
    writes.keyedLinks registered admits chained.keyed, ?_, ?_, ?_, ?_⟩
  · intro table owner member link listed
    exact (writes.reached registered chained admits next listed).1
  · intro table owner member link listed
    exact (writes.reached registered chained admits next listed).2
  · rintro ⟨tieKind, owner, relation, member⟩ log row found kindEq logged
    by_cases other : owner = id
    · subst other
      rw [writes.row?_self] at found
      cases found
      change kind = tieKind at kindEq
      subst kindEq
      exact linkage_self registered chained admits next writes logged
    · rw [writes.row?_of_ne other] at found
      rw [untouched other]
      exact (chained.linkage _ log row found kindEq logged).congr
        (writes.recorded?_of_other other tieKind)
  · rintro ⟨tieKind, owner, relation, member⟩ log row found kindEq logged live link last
    by_cases other : owner = id
    · subst other
      rw [writes.row?_self] at found
      cases found
      change kind = tieKind at kindEq
      subst kindEq
      rw [current_self registered chained admits writes logged live last,
        lists_self admits writes, ← Content.mem_members_canonical]
      rfl
    · rw [writes.row?_of_ne other] at found
      rw [untouched other] at last
      rcases writes.live_before admits live with liveBefore | absent
      · exact chained.current _ log row found kindEq logged liveBefore link last
      · rw [chained.linkRows_of_member_absent absent] at last
        cases last

end Env.Writes

/-! ## Reachable stores -/

theorem Store.Chained.move {env : Env} (registered : env.registry = .standard)
    {store after : Store} (chained : store.Chained) (move : Move env store after) :
    after.Chained := by
  rcases move.applied_or_keepsRecords with ⟨_, _, _, _, _, applied⟩ | kept
  · have recorded := chained.traced.recorded
    obtain ⟨admits, applies⟩ := Env.apply_applies registered recorded.rows applied
    cases applies with
    | unchanged immaterial => exact chained
    | written material next writes =>
        exact writes.chained registered chained admits material (recorded.next_version next)
  · have traced := chained.traced.move registered move
    rw [kept] at traced ⊢
    refine ⟨traced, chained.keyed, chained.owned, chained.known, ?_, chained.current⟩
    intro tie log row found kind logged
    exact (chained.linkage tie log row found kind logged).congr fun _ => rfl

theorem Store.Chained.along {registry : Registry} (registered : registry = .standard)
    {store after : Store} (chained : store.Chained) (trail : Trail registry store after) :
    after.Chained :=
  trail.keeps (fun _ _ _ same chained move => chained.move (same.trans registered) move) chained

theorem Reachable.chained {store : Store} (reachable : Reachable .standard store) :
    store.Chained :=
  Store.chained_empty.along rfl (.of_run reachable)

end Chronicle
