import Chronicle.Proofs.Moments
import Mathlib.Data.List.Nodup
import Mathlib.Data.Nat.Find

/-!
# Members of the past

The members that an owner had at one of its versions are read from the link rows up to it: a
member is there if the last of its rows says that it was linked (`Env.exists_membersAt`). Since
nothing is written down about a member that has been deleted, one that leaves after that goes on
being there, though no snapshot lists it. These are the only members that linger
(`Reachable.membersAt_lingers_iff`).
-/

namespace Chronicle

open Descriptor (standard)

/-! ## Reading link rows up to a version -/

namespace Store

/-- The last of some link rows up to a version of the owner says that the member was linked. -/
def Holds (links : List LinkRow) (version : Nat) (link : LinkRow) : Prop :=
  link ∈ links ∧ link.linked = true ∧ link.ownerVersion ≤ version ∧
    ∀ other ∈ links, other.ownerVersion ≤ version → other.ownerVersion ≤ link.ownerVersion

theorem mem_linkRowsOf_iff {store : Store} (keyed : store.KeyedLinks) {table : String}
    {owner : EntityId} {link : LinkRow} :
    link ∈ store.linkRowsOf table owner ↔ link ∈ store.linkRows table owner link.member := by
  simp only [linkRowsOf, mem_linkRows_iff, Dict.mem_values_iff, Dict.get?_filter,
    Option.filter_eq_some_iff, Bool.and_eq_true, decide_eq_true_eq]
  constructor
  · rintro ⟨⟨otherTable, otherOwner, member, version⟩, found, rfl, rfl⟩
    obtain ⟨_, rfl, _⟩ := keyed _ _ _ _ _ found
    exact ⟨version, found⟩
  · rintro ⟨version, found⟩
    exact ⟨_, found, rfl, rfl⟩

/-- Where a link row stands among those of its owner. -/
def turn (link : LinkRow) : Int × EntityId × Nat := (link.ownerVersion, link.member, link.version)

/-- The rows of an owner up to one of its versions, in their turn. -/
def rowsUntil (store : Store) (table : String) (owner : EntityId) (version : Nat) : List LinkRow :=
  (Dict.ofList (((store.linkRowsOf table owner).filter fun link =>
    decide (link.ownerVersion ≤ version)).map fun link => (turn link, link))).values

/-- The last of these rows for each member. -/
def latest (store : Store) (table : String) (owner : EntityId) (version : Nat) :
    Dict EntityId LinkRow :=
  Dict.ofList ((store.rowsUntil table owner version).map fun link => (link.member, link))

theorem linksUntil_own (store : Store) (table : String) (owner : EntityId) {version : Nat}
    (bounded : version < versionLimit) :
    store.linksUntil (.own table) owner version = .ok (store.rowsUntil table owner version) := by
  have upTo : (fun link : LinkRow => (store.cell table link .ownerVersion).upTo version) =
      fun link => decide (link.ownerVersion ≤ version) := by
    funext link
    exact decide_eq_decide.mpr Int.ofNat_le
  refine bind_eq_ok.mpr ⟨(.ownerVersion, .memberVersion), rfl, ?_⟩
  refine bind_eq_ok.mpr ⟨(), if_pos bounded, ?_⟩
  change (Dict.ofList ((List.filter (fun link : LinkRow =>
    (store.cell table link .ownerVersion).upTo version) (store.linkRowsOf table owner)).map
      fun link => (turn link, link))).values.mapM
        (store.readRow table (.ownerVersion, .memberVersion)) = _
  rw [upTo, mapM_readRow_own]
  rfl

theorem le_of_turn_before {first second : LinkRow}
    (before : Key.before (turn first) (turn second) = true) :
    first.ownerVersion ≤ second.ownerVersion := by
  by_contra above
  have number : Key.before (second.ownerVersion : Int) first.ownerVersion = true :=
    decide_eq_true (Int.ofNat_lt.mpr (Nat.lt_of_not_le above))
  have after : Key.before (turn second) (turn first) = true := by
    change (Key.before (second.ownerVersion : Int) first.ownerVersion || _) = true
    rw [number, Bool.true_or]
  rw [Key.asymm before] at after
  cases after

theorem turn_before_of_lt {first second : LinkRow}
    (earlier : first.ownerVersion < second.ownerVersion) :
    Key.before (turn first) (turn second) = true := by
  have number : Key.before (first.ownerVersion : Int) second.ownerVersion = true :=
    decide_eq_true (Int.ofNat_lt.mpr earlier)
  change (Key.before (first.ownerVersion : Int) second.ownerVersion || _) = true
  rw [number, Bool.true_or]

/-- Rows with ascending versions of the owner are told apart by these. -/
theorem eq_of_ownerVersion {links : List LinkRow}
    (ascends : links.Pairwise fun earlier later => earlier.ownerVersion < later.ownerVersion)
    {first second : LinkRow} (firstListed : first ∈ links) (secondListed : second ∈ links)
    (same : first.ownerVersion = second.ownerVersion) : first = second := by
  have nodup : (links.map LinkRow.ownerVersion).Nodup :=
    List.pairwise_map.mpr (ascends.imp fun less => Nat.ne_of_lt less)
  exact List.inj_on_of_nodup_map nodup firstListed secondListed same

theorem mem_rowsUntil_iff {store : Store} (keyed : store.KeyedLinks) {table : String}
    {owner : EntityId} {version : Nat} {link : LinkRow} :
    link ∈ store.rowsUntil table owner version ↔
      link ∈ store.linkRows table owner link.member ∧ link.ownerVersion ≤ version := by
  have inRows (link : LinkRow) : link ∈ (store.linkRowsOf table owner).filter
        (fun link => decide (link.ownerVersion ≤ version)) ↔
      link ∈ store.linkRows table owner link.member ∧ link.ownerVersion ≤ version := by
    rw [List.mem_filter, mem_linkRowsOf_iff keyed, decide_eq_true_eq]
  rw [← inRows]
  -- the turn of a row tells its member and its version, under which it is kept
  refine Dict.mem_values_ofList_map fun first firstListed second secondListed same => ?_
  have member : first.member = second.member := congrArg (fun turn => turn.2.1) same
  have number : first.version = second.version := congrArg (fun turn => turn.2.2) same
  obtain ⟨_, found⟩ := mem_linkRows_iff.mp ((inRows first).mp firstListed).1
  obtain ⟨_, secondFound⟩ := mem_linkRows_iff.mp ((inRows second).mp secondListed).1
  obtain ⟨_, _, rfl⟩ := keyed _ _ _ _ _ found
  obtain ⟨_, _, rfl⟩ := keyed _ _ _ _ _ secondFound
  rw [member, number, secondFound] at found
  exact (Option.some.inj found).symm

section Latest

variable {store : Store} (keyed : store.KeyedLinks) {table : String} {owner : EntityId}
  (ascends : ∀ member, (store.linkRows table owner member).Pairwise
    fun earlier later => earlier.ownerVersion < later.ownerVersion) {version : Nat}

include keyed ascends

theorem mem_latest_iff {link : LinkRow} :
    link ∈ (store.latest table owner version).values ↔
      link ∈ store.linkRows table owner link.member ∧ link.ownerVersion ≤ version ∧
        ∀ other ∈ store.linkRows table owner link.member, other.ownerVersion ≤ version →
          other.ownerVersion ≤ link.ownerVersion := by
  have found (wanted : EntityId) : (store.latest table owner version).get? wanted = some link ↔
      link ∈ store.rowsUntil table owner version ∧ link.member = wanted ∧
        ∀ other ∈ store.rowsUntil table owner version, other.member = wanted →
          other = link ∨ Key.before (turn other) (turn link) = true :=
    Dict.get?_ofList_map_of_sorted Dict.values_ofList_map_sorted
  simp only [Dict.mem_values_iff, found, mem_rowsUntil_iff keyed]
  constructor
  · rintro ⟨_, ⟨listed, early⟩, rfl, last⟩
    refine ⟨listed, early, fun other otherListed otherEarly => ?_⟩
    have member := keyed.member_eq otherListed
    rcases last other ⟨member ▸ otherListed, otherEarly⟩ member with rfl | before
    · exact Nat.le_refl _
    · exact le_of_turn_before before
  · rintro ⟨listed, early, last⟩
    refine ⟨link.member, ⟨listed, early⟩, rfl, ?_⟩
    rintro other ⟨otherListed, otherEarly⟩ member
    rw [member] at otherListed
    rcases Nat.lt_or_eq_of_le (last other otherListed otherEarly) with less | same
    · exact Or.inr (turn_before_of_lt less)
    · exact Or.inl (eq_of_ownerVersion (ascends _) otherListed listed same)

end Latest

end Store

/-- The members that are read are those whose last row up to the version links them. -/
theorem Env.membersAt_standard {env : Env} (registered : env.registry = .standard) (store : Store)
    {kind : Kind} {relation : String} {log : LinkLog}
    (logged : (standard kind).log? relation = some log) (owner : EntityId) {version : Nat}
    (bounded : version < versionLimit) :
    env.membersAt store kind owner relation version =
      .ok (((store.latest log.table owner version).values.filter LinkRow.linked).map fun link =>
        ⟨link.member, some link.memberVersion⟩) := by
  refine bind_eq_ok.mpr ⟨_, linkTable_standard registered logged, ?_⟩
  exact bind_eq_ok.mpr ⟨_, ofStore_eq_ok.mpr (store.linksUntil_own log.table owner bounded), rfl⟩

/-- A member is read if the last of its rows up to the version says that it was linked. -/
theorem Env.exists_membersAt {env : Env} (registered : env.registry = .standard) {store : Store}
    (keyed : store.KeyedLinks) {kind : Kind} {relation : String} {log : LinkLog}
    (logged : (standard kind).log? relation = some log) {owner : EntityId}
    (ascends : ∀ member, (store.linkRows log.table owner member).Pairwise
      fun earlier later => earlier.ownerVersion < later.ownerVersion)
    {version : Nat} (bounded : version < versionLimit) :
    ∃ members, env.membersAt store kind owner relation version = .ok members ∧
      ∀ ref, ref ∈ members ↔ ∃ link,
        Store.Holds (store.linkRows log.table owner ref.id) version link ∧
          ref.version = some link.memberVersion := by
  refine ⟨_, membersAt_standard registered store logged owner bounded, ?_⟩
  intro ref
  simp only [List.mem_map, List.mem_filter, Store.mem_latest_iff keyed ascends]
  constructor
  · rintro ⟨link, ⟨⟨listed, early, last⟩, linked⟩, rfl⟩
    exact ⟨link, ⟨listed, linked, early, last⟩, rfl⟩
  · obtain ⟨member, memberVersion⟩ := ref
    rintro ⟨link, ⟨listed, linked, early, last⟩, rfl⟩
    obtain rfl : link.member = member := keyed.member_eq listed
    exact ⟨link, ⟨⟨listed, early, last⟩, linked⟩, rfl⟩

/-! ## Members that linger -/

namespace Store

/-- A record had been deleted when a version of an owner was written. -/
def DeletedAt (store : Store) (owner : EntityId) (version : Nat) (member : EntityId) : Prop :=
  ∃ before after, store.Wrote owner version before after ∧
    ∃ row, after.row? member = some row ∧ row.deleted = true

/-- Up to a version, a member came while it was live, and stayed until it left at a version when
it had been deleted. -/
def LeftDeleted (store : Store) (tie : Tie) (version : Nat) : Prop :=
  ∃ came memberVersion gone,
    store.Refers tie came memberVersion ∧ ¬ store.Lists tie (came - 1) ∧
    came < gone ∧ gone ≤ version ∧
    (∀ number, came ≤ number → number < gone → store.Lists tie number) ∧
    ¬ store.Lists tie gone ∧ store.DeletedAt tie.owner gone tie.member

namespace Linkage

variable {store : Store} {tie : Tie} {links : List LinkRow} {version : Nat}

theorem lists_of_linked (linkage : store.Linkage tie links) {link : LinkRow}
    (listed : link ∈ links) (linked : link.linked = true) :
    store.Refers tie link.ownerVersion link.memberVersion ∧
      ¬ store.Lists tie (link.ownerVersion - 1) :=
  (linkage.linked _ _).mp ⟨link, listed, linked, rfl, rfl⟩

/-- A member whose last row is a link, and that is not listed any more, left without a row. -/
theorem exists_gone (linkage : store.Linkage tie links) {link : LinkRow}
    (holds : Holds links version link) (absent : ¬ store.Lists tie version) :
    ∃ gone, link.ownerVersion < gone ∧ gone ≤ version ∧
      (∀ number, link.ownerVersion ≤ number → number < gone → store.Lists tie number) ∧
      ¬ store.Lists tie gone ∧
      ∀ other ∈ links, other.linked = false → other.ownerVersion ≠ gone := by
  classical
  obtain ⟨listed, linked, early, latest⟩ := holds
  have atLink := (linkage.lists_of_linked listed linked).1.lists
  have exists_absent : ∃ gone, link.ownerVersion ≤ gone ∧ ¬ store.Lists tie gone :=
    ⟨version, early, absent⟩
  obtain ⟨after, notListed⟩ := Nat.find_spec exists_absent
  have later : link.ownerVersion < Nat.find exists_absent :=
    Nat.lt_of_le_of_ne after fun same => notListed (same ▸ atLink)
  have atMost : Nat.find exists_absent ≤ version := Nat.find_min' exists_absent ⟨early, absent⟩
  refine ⟨Nat.find exists_absent, later, atMost, ?_, notListed, ?_⟩
  · intro number started before
    by_contra unlisted
    exact Nat.find_min exists_absent before ⟨started, unlisted⟩
  · intro other otherListed _ here
    have bound := latest other otherListed (by omega)
    omega

/-- A link holds on as long as the member is listed, and after that if there are no rows. -/
theorem holds_of_stayed (linkage : store.Linkage tie links) {link : LinkRow}
    (listed : link ∈ links) (linked : link.linked = true) {gone : Nat}
    (later : link.ownerVersion < gone) (atMost : gone ≤ version)
    (stayed : ∀ number, link.ownerVersion ≤ number → number < gone → store.Lists tie number)
    (silent : ∀ other ∈ links, other.ownerVersion < gone) : Holds links version link := by
  refine ⟨listed, linked, by omega, fun other otherListed _ => ?_⟩
  by_contra beyond
  have before := silent other otherListed
  cases otherLinked : other.linked with
  | true =>
      exact (linkage.lists_of_linked otherListed otherLinked).2 (stayed _ (by omega) (by omega))
  | false =>
      exact (linkage.unlinked other otherListed otherLinked).2.1 (stayed _ (by omega) before)

end Linkage

/-- A member that left without a row, but has an older one, had been deleted. -/
theorem Wrote.exists_deleted {store before after : Store} {version : Nat} (tie : Tie)
    (wrote : store.Wrote tie.owner version before after) {log : LinkLog}
    (logged : (standard tie.kind).log? tie.relation = some log) (drops : store.Drops tie version)
    (noRow : ∀ link ∈ store.linkRows log.table tie.owner tie.member, link.linked = false →
      link.ownerVersion ≠ version)
    {link : LinkRow} (listed : link ∈ store.linkRows log.table tie.owner tie.member)
    (older : link.ownerVersion < version) :
    ∃ row, after.row? tie.member = some row ∧ row.deleted = true := by
  obtain ⟨more, grown, later⟩ := wrote.remembers.links log.table tie.owner tie.member
  have known : link ∈ after.linkRows log.table tie.owner tie.member := by
    rw [grown] at listed
    rcases List.mem_append.mp listed with known | added
    · exact known
    · have beyond := later link added
      rw [wrote.reached] at beyond
      omega
  obtain ⟨row, found, _⟩ := wrote.chained_after.known _ _ _ link known
  refine ⟨row, found, ?_⟩
  by_contra notDeleted
  have live := liveVersion?_eq_some_iff.mpr ⟨row, found, Bool.eq_false_iff.mpr notDeleted, rfl⟩
  obtain ⟨unlinked, there, isUnlinked, here⟩ :=
    wrote.exists_unlinked tie logged drops (by simp [live])
  exact noRow unlinked there isUnlinked here

section Left

variable {store : Store} (trail : Trail .standard .empty store) {tie : Tie} {row : EntityRow}
  (found : store.row? tie.owner = some row) (kind : row.kind = tie.kind) {log : LinkLog}
  (logged : (standard tie.kind).log? tie.relation = some log) {version : Nat}

include trail found kind logged

/-- A member that is held and not listed left after it had been deleted. -/
theorem leftDeleted_of_holds {link : LinkRow}
    (holds : Holds (store.linkRows log.table tie.owner tie.member) version link)
    (absent : ¬ store.Lists tie version) (last : version ≤ row.version) :
    store.LeftDeleted tie version := by
  have chained := trail.chained
  have linkage := chained.linkage tie log row found kind logged
  obtain ⟨gone, later, atMost, stayed, notListed, noRow⟩ := linkage.exists_gone holds absent
  have reached : gone ≤ store.counter tie.owner := by
    rw [counter_of_row? found]
    omega
  obtain ⟨before, after, wrote⟩ := trail.exists_wrote (by omega) reached
  have recorded := chained.traced.recorded.complete tie.owner row found gone (by omega) (by omega)
  rw [kind] at recorded
  have drops : store.Drops tie gone := ⟨stayed _ (by omega) (by omega), notListed, recorded⟩
  obtain ⟨refers, unlisted⟩ := linkage.lists_of_linked holds.1 holds.2.1
  exact ⟨_, _, gone, refers, unlisted, later, atMost, stayed, notListed, before, after, wrote,
    wrote.exists_deleted tie logged drops noRow holds.1 later⟩

/-- A member that left after it had been deleted is held on. -/
theorem holds_of_leftDeleted (left : store.LeftDeleted tie version) :
    ∃ link, Holds (store.linkRows log.table tie.owner tie.member) version link := by
  have linkage := trail.chained.linkage tie log row found kind logged
  obtain ⟨came, memberVersion, gone, refers, unlisted, later, atMost, stayed, _, before, after,
    wrote, memberRow, memberFound, deleted⟩ := left
  obtain ⟨link, listed, linked, rfl, rfl⟩ :=
    (linkage.linked came memberVersion).mpr ⟨refers, unlisted⟩
  exact ⟨link, linkage.holds_of_stayed listed linked later atMost stayed
    fun other otherListed => wrote.ownerVersion_lt_of_deleted memberFound deleted otherListed⟩

end Left

end Store

/-- In every store that a run can lead to, the members that an owner is said to have had at one of
its versions, but that its snapshot does not list, are those that left after they had been
deleted. -/
theorem Reachable.membersAt_lingers_iff {store : Store} (reachable : Reachable .standard store)
    {env : Env} (registered : env.registry = .standard) {owner : EntityId} {row : EntityRow}
    (found : store.row? owner = some row) {relation : String}
    (logged : ((standard row.kind).log? relation).isSome = true) {version : Nat}
    (first : 1 ≤ version) (last : version ≤ row.version) :
    ∃ members snapshot, env.membersAt store row.kind owner relation version = .ok members ∧
      env.snapshotAt store row.kind owner version = .ok (some snapshot) ∧
      ∀ member, (member ∈ members.map MemberRef.id ∧
          member ∉ snapshot.content.members relation) ↔
        member ∉ snapshot.content.members relation ∧
          store.LeftDeleted ⟨row.kind, owner, relation, member⟩ version := by
  obtain ⟨log, logged⟩ := Option.isSome_iff_exists.mp logged
  have trail := Trail.of_run reachable
  have chained := trail.chained
  have recorded := chained.traced.recorded
  have bounded := (recorded.rows owner row found).bounded
  have linkage (member : EntityId) := chained.linkage ⟨row.kind, owner, relation, member⟩ log row
    found rfl logged
  obtain ⟨members, read, held⟩ := Env.exists_membersAt registered chained.keyed logged
    (fun member => (linkage member).ownerAscends) (Nat.lt_of_le_of_lt last bounded)
  obtain ⟨snapshot, kept⟩ := recorded.complete owner row found version first last
  have shown := Env.snapshotAt_standard registered store row.kind owner
    (Nat.lt_of_le_of_lt last bounded)
  rw [Store.recorded?, kept] at shown
  refine ⟨members, snapshot, read, shown, fun member => ?_⟩
  have lists : store.Lists ⟨row.kind, owner, relation, member⟩ version ↔
      member ∈ snapshot.content.members relation := Store.lists_iff_of_recorded? kept
  rw [← lists, and_comm]
  refine and_congr_right fun absent => ?_
  constructor
  · intro there
    obtain ⟨ref, listed, rfl⟩ := List.mem_map.mp there
    obtain ⟨link, holds, _⟩ := (held ref).mp listed
    exact Store.leftDeleted_of_holds trail found rfl logged holds absent last
  · intro left
    obtain ⟨link, holds⟩ := Store.holds_of_leftDeleted trail found rfl logged left
    exact List.mem_map.mpr ⟨⟨member, some link.memberVersion⟩, (held _).mpr ⟨link, holds, rfl⟩, rfl⟩

/-- What is read of the story that lost its tag after the tag had been deleted: its second
snapshot lists no tag, but the tag is still said to be a member. -/
theorem Store.membersAt_withDroppedTag :
    Env.membersAt ⟨.standard, 3, 0⟩ .withDroppedTag .story ⟨⟨2⟩⟩ "attributes" 2 =
      .ok [⟨⟨⟨1⟩⟩, some 1⟩] ∧
    ∃ snapshot, Env.snapshotAt ⟨.standard, 3, 0⟩ .withDroppedTag .story ⟨⟨2⟩⟩ 2 =
        .ok (some snapshot) ∧ snapshot.content.members "attributes" = [] := by
  have shown : ((Env.snapshotAt ⟨.standard, 3, 0⟩ .withDroppedTag .story ⟨⟨2⟩⟩ 2).toOption.map
      fun found => found.map fun snapshot => snapshot.content.members "attributes") =
      some (some []) := by decide +kernel
  obtain ⟨found, given, same⟩ := Option.map_eq_some_iff.mp shown
  obtain ⟨snapshot, rfl, nobody⟩ := Option.map_eq_some_iff.mp same
  exact ⟨eq_ok_of_toOption (by decide +kernel), snapshot, eq_ok_of_toOption given, nobody⟩

/-- The deleted tag lingers, and it is one that left after it had been deleted. -/
theorem membersAt_lingers_withDroppedTag :
    Reachable .standard .withDroppedTag ∧
    ∃ row, Store.withDroppedTag.row? ⟨⟨2⟩⟩ = some row ∧ (row.kind = .story ∧ row.version = 2) ∧
      ∃ members snapshot,
        Env.membersAt ⟨.standard, 3, 0⟩ .withDroppedTag row.kind ⟨⟨2⟩⟩ "attributes" 2 =
          .ok members ∧
        Env.snapshotAt ⟨.standard, 3, 0⟩ .withDroppedTag row.kind ⟨⟨2⟩⟩ 2 = .ok (some snapshot) ∧
        (⟨⟨1⟩⟩ ∈ members.map MemberRef.id ∧ ⟨⟨1⟩⟩ ∉ snapshot.content.members "attributes") ∧
        Store.withDroppedTag.LeftDeleted ⟨row.kind, ⟨⟨2⟩⟩, "attributes", ⟨⟨1⟩⟩⟩ 2 := by
  have reachable : Reachable .standard .withDroppedTag := reachable_following ⟨.standard, 3, 0⟩ _
  obtain ⟨row, found, kind, version⟩ := Store.row?_withDroppedTag
  have logged : ((standard row.kind).log? "attributes").isSome = true := by
    rw [kind]
    decide
  have registered : (Env.mk .standard 3 0).registry = .standard := rfl
  have first : 1 ≤ 2 := by decide
  have last : 2 ≤ row.version := Nat.le_of_eq version.symm
  obtain ⟨members, snapshot, read, shown, lingers⟩ :=
    reachable.membersAt_lingers_iff registered found logged first last
  obtain ⟨held, other, kept, nobody⟩ := Store.membersAt_withDroppedTag
  have there : ⟨⟨1⟩⟩ ∈ members.map MemberRef.id ∧
      ⟨⟨1⟩⟩ ∉ snapshot.content.members "attributes" := by
    rw [kind, held] at read
    rw [kind, kept] at shown
    cases read
    cases shown
    rw [nobody]
    exact ⟨List.mem_singleton.mpr rfl, List.not_mem_nil⟩
  exact ⟨reachable, row, found, ⟨kind, version⟩, members, snapshot, read, shown, there,
    ((lingers _).mp there).2⟩

/-- So it is not true that all members that an owner is said to have had are listed. -/
theorem not_membersAt_only_listed :
    ¬ ∀ (env : Env) (store : Store) (owner : EntityId) (row : EntityRow) (relation : String)
      (version : Nat) (members : List MemberRef) (snapshot : Snapshot),
      env.registry = .standard → Reachable .standard store → store.row? owner = some row →
      ((standard row.kind).log? relation).isSome = true →
      env.membersAt store row.kind owner relation version = .ok members →
      env.snapshotAt store row.kind owner version = .ok (some snapshot) →
      ∀ ref ∈ members, ref.id ∈ snapshot.content.members relation := by
  intro listed
  have reachable : Reachable .standard .withDroppedTag := reachable_following ⟨.standard, 3, 0⟩ _
  obtain ⟨row, found, kind, _⟩ := Store.row?_withDroppedTag
  have logged : ((standard row.kind).log? "attributes").isSome = true := by
    rw [kind]
    decide
  obtain ⟨held, snapshot, kept, nobody⟩ := Store.membersAt_withDroppedTag
  rw [← kind] at held kept
  have there := listed ⟨.standard, 3, 0⟩ _ _ row "attributes" 2 _ snapshot rfl reachable found logged
    held kept _ (List.mem_singleton.mpr rfl)
  rw [nobody] at there
  cases there

end Chronicle
