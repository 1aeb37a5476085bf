import Chronicle.Proofs.Explanation
import Chronicle.Proofs.Links
import Mathlib.Data.List.Chain
import Mathlib.Data.List.Perm.Subperm

/-!
# Links and snapshots

Link rows and snapshots are two records of one membership, kept by two records that advance
independently, and a link row is left out where the member is not live. That they correspond is
an invariant (`Store.Chained`): a member is live for one stretch of time only, so as long as it
is, its last link row tells whether the row of the owner lists it.
-/

namespace Chronicle

open Descriptor (standard)

/-- A member that an owner of a kind may list under a relation. -/
structure Tie where
  kind : Kind
  owner : EntityId
  relation : String
  member : EntityId

namespace Store

/-! ## What snapshots say about a member -/

section Says

variable (store : Store) (tie : Tie)

/-- The snapshot of a version of the owner lists the member. -/
def Lists (version : Nat) : Prop :=
  ∃ snapshot, store.recorded? tie.kind tie.owner version = some snapshot ∧
    tie.member ∈ snapshot.content.members tie.relation

/-- The snapshot of a version of the owner lists the member in one of its versions. -/
def Refers (version memberVersion : Nat) : Prop :=
  ∃ snapshot, store.recorded? tie.kind tie.owner version = some snapshot ∧
    ⟨tie.member, some memberVersion⟩ ∈ snapshot.refs tie.relation

/-- The snapshot of a version of the owner does not list the member any more. -/
def Drops (version : Nat) : Prop :=
  store.Lists tie (version - 1) ∧ ¬ store.Lists tie version ∧
    ∃ snapshot, store.recorded? tie.kind tie.owner version = some snapshot

/-- What link rows of an owner and a member say, and how they correspond to the snapshots of the
owner. -/
structure Linkage (links : List LinkRow) : Prop where
  numbered : Numbered links
  ownerAscends : links.Pairwise fun earlier later => earlier.ownerVersion < later.ownerVersion
  memberAscends : links.Pairwise fun earlier later => earlier.memberVersion ≤ later.memberVersion
  alternates : links.IsChain fun earlier later => earlier.linked ≠ later.linked
  linked : ∀ version memberVersion,
    (∃ link ∈ links, link.linked = true ∧ link.ownerVersion = version ∧
      link.memberVersion = memberVersion) ↔
    store.Refers tie version memberVersion ∧ ¬ store.Lists tie (version - 1)
  unlinked : ∀ link ∈ links, link.linked = false → store.Drops tie link.ownerVersion

end Says

variable {store after : Store} {tie : Tie}

theorem lists_iff_of_recorded? {version : Nat} {snapshot : Snapshot}
    (kept : store.recorded? tie.kind tie.owner version = some snapshot) :
    store.Lists tie version ↔ tie.member ∈ snapshot.content.members tie.relation := by
  simp only [Lists, kept, Option.some.injEq, exists_eq_left']

theorem refers_iff_of_recorded? {version memberVersion : Nat} {snapshot : Snapshot}
    (kept : store.recorded? tie.kind tie.owner version = some snapshot) :
    store.Refers tie version memberVersion ↔
      ⟨tie.member, some memberVersion⟩ ∈ snapshot.refs tie.relation := by
  simp only [Refers, kept, Option.some.injEq, exists_eq_left']

/-- Two stores say the same of a version if they have the same snapshot of it. -/
theorem lists_congr {version : Nat} (same : after.recorded? tie.kind tie.owner version =
    store.recorded? tie.kind tie.owner version) :
    after.Lists tie version ↔ store.Lists tie version := by
  rw [Lists, same, Lists]

theorem refers_congr {version memberVersion : Nat}
    (same : after.recorded? tie.kind tie.owner version =
      store.recorded? tie.kind tie.owner version) :
    after.Refers tie version memberVersion ↔ store.Refers tie version memberVersion := by
  rw [Refers, same, Refers]

theorem Drops.congr {version : Nat} (drops : store.Drops tie version)
    (before : after.recorded? tie.kind tie.owner (version - 1) =
      store.recorded? tie.kind tie.owner (version - 1))
    (same : after.recorded? tie.kind tie.owner version =
      store.recorded? tie.kind tie.owner version) : after.Drops tie version := by
  rw [Drops, lists_congr before, lists_congr same, same]
  exact drops

theorem Refers.lists {version memberVersion : Nat}
    (refers : store.Refers tie version memberVersion) : store.Lists tie version := by
  obtain ⟨snapshot, found, listed⟩ := refers
  refine ⟨snapshot, found, ?_⟩
  rw [Snapshot.members_content]
  exact List.mem_map.mpr ⟨_, listed, rfl⟩

/-! ## Link rows one after another -/

/-- No rows correspond to no snapshots. -/
theorem linkage_nil (none : ∀ version, store.recorded? tie.kind tie.owner version = none) :
    store.Linkage tie [] := by
  refine ⟨rfl, List.Pairwise.nil, List.Pairwise.nil, List.IsChain.nil, ?_, nofun⟩
  intro version memberVersion
  constructor
  · rintro ⟨link, impossible, _⟩
    cases impossible
  · rintro ⟨⟨snapshot, found, _⟩, _⟩
    rw [none] at found
    cases found

theorem Linkage.congr {links : List LinkRow} (linkage : store.Linkage tie links)
    (same : ∀ version, after.recorded? tie.kind tie.owner version =
      store.recorded? tie.kind tie.owner version) : after.Linkage tie links := by
  refine ⟨linkage.numbered, linkage.ownerAscends, linkage.memberAscends, linkage.alternates, ?_, ?_⟩
  · intro version memberVersion
    rw [refers_congr (same version), lists_congr (same (version - 1))]
    exact linkage.linked version memberVersion
  · intro link listed unlinked
    exact (linkage.unlinked link listed unlinked).congr (same _) (same _)

/-- The snapshot of the version that a row names is there; if a member came with it, it lists the
member. -/
theorem Linkage.recorded {links : List LinkRow} (linkage : store.Linkage tie links) {link : LinkRow}
    (listed : link ∈ links) :
    ∃ snapshot, store.recorded? tie.kind tie.owner link.ownerVersion = some snapshot ∧
      (link.linked = true → tie.member ∈ snapshot.content.members tie.relation) := by
  cases linked : link.linked with
  | true =>
      obtain ⟨refers, _⟩ := (linkage.linked _ _).mp ⟨link, listed, linked, rfl, rfl⟩
      obtain ⟨snapshot, kept, inSnapshot⟩ := refers.lists
      exact ⟨snapshot, kept, fun _ => inSnapshot⟩
  | false =>
      obtain ⟨_, _, snapshot, kept⟩ := linkage.unlinked link listed linked
      exact ⟨snapshot, kept, nofun⟩

/-- There are no more rows than versions of the owner. -/
theorem Linkage.length_le {links : List LinkRow} (linkage : store.Linkage tie links)
    (recorded : store.Recorded) : links.length ≤ store.counter tie.owner := by
  have nodup : (links.map LinkRow.ownerVersion).Nodup :=
    List.pairwise_map.mpr (linkage.ownerAscends.imp fun before => Nat.ne_of_lt before)
  have reached : links.map LinkRow.ownerVersion ⊆ List.range' 1 (store.counter tie.owner) := by
    intro version named
    obtain ⟨link, listed, rfl⟩ := List.mem_map.mp named
    obtain ⟨snapshot, kept, _⟩ := linkage.recorded listed
    obtain ⟨row, found, _, fits⟩ := recorded.row_of_recorded? kept
    have first := fits.first
    have last := fits.last
    rw [counter_of_row? found, List.mem_range'_1]
    omega
  have count := (nodup.subperm reached).length_le
  rwa [List.length_map, List.length_range'] at count

/-- What the next version of the owner adds: a snapshot, and perhaps a row that tells what happened
to the member. -/
structure Adds (store after : Store) (tie : Tie) (count : Nat) (links : List LinkRow)
    (added : Option LinkRow) : Prop where
  past : ∀ version, version ≠ count + 1 → after.recorded? tie.kind tie.owner version =
    store.recorded? tie.kind tie.owner version
  last : ∀ version, count < version → store.recorded? tie.kind tie.owner version = none
  older : ∀ link ∈ links, link.ownerVersion ≤ count
  number : ∀ new, added = some new → new.version = links.length + 1
  here : ∀ new, added = some new → new.ownerVersion = count + 1
  ascends : ∀ link ∈ links, ∀ new, added = some new → link.memberVersion ≤ new.memberVersion
  alternates : ∀ link, links.getLast? = some link → ∀ new, added = some new →
    link.linked ≠ new.linked
  linked : ∀ memberVersion,
    (∃ new, added = some new ∧ new.linked = true ∧ new.memberVersion = memberVersion) ↔
      after.Refers tie (count + 1) memberVersion ∧ ¬ store.Lists tie count
  unlinked : ∀ new, added = some new → new.linked = false → after.Drops tie (count + 1)

namespace Adds

variable {count : Nat} {links : List LinkRow} {added : Option LinkRow}

theorem numbered (adds : store.Adds after tie count links added) (numbered : Numbered links) :
    Numbered (links ++ added.toList) := by
  cases added with
  | none => simpa using numbered
  | some new =>
      rw [Numbered, Option.toList_some, List.map_append, List.length_append, numbered,
        List.length_singleton, List.range'_1_concat]
      simp only [List.map_cons, List.map_nil, adds.number new rfl, Nat.add_comm 1]

/-- The members that come are still those that have a row. -/
theorem linked_iff (adds : store.Adds after tie count links added)
    (linkage : store.Linkage tie links) (version memberVersion : Nat) :
    (∃ link ∈ links ++ added.toList, link.linked = true ∧ link.ownerVersion = version ∧
        link.memberVersion = memberVersion) ↔
      after.Refers tie version memberVersion ∧ ¬ after.Lists tie (version - 1) := by
  simp only [List.mem_append, Option.mem_toList]
  rcases Nat.lt_trichotomy version (count + 1) with early | rfl | late
  · rw [refers_congr (adds.past version (by omega)),
      lists_congr (adds.past (version - 1) (by omega)), ← linkage.linked]
    constructor
    · rintro ⟨link, listed | isNew, rest⟩
      · exact ⟨link, listed, rest⟩
      · have now := adds.here link isNew
        omega
    · rintro ⟨link, listed, rest⟩
      exact ⟨link, Or.inl listed, rest⟩
  · rw [Nat.add_sub_cancel, lists_congr (adds.past count (by omega)), ← adds.linked]
    constructor
    · rintro ⟨link, listed | isNew, isLinked, same, sameMember⟩
      · have early := adds.older link listed
        omega
      · exact ⟨link, isNew, isLinked, sameMember⟩
    · rintro ⟨new, isNew, isLinked, sameMember⟩
      exact ⟨new, Or.inr isNew, isLinked, adds.here new isNew, sameMember⟩
  · -- there are no snapshots and no rows beyond the next version
    constructor
    · rintro ⟨link, listed | isNew, _, same, _⟩
      · have early := adds.older link listed
        omega
      · have now := adds.here link isNew
        omega
    · rintro ⟨⟨snapshot, found, _⟩, _⟩
      rw [adds.past version (by omega), adds.last version (by omega)] at found
      cases found

/-- Rows still correspond to the snapshots after the next version of the owner. -/
theorem linkage (adds : store.Adds after tie count links added)
    (linkage : store.Linkage tie links) : after.Linkage tie (links ++ added.toList) := by
  refine ⟨adds.numbered linkage.numbered, ?_, ?_, ?_, adds.linked_iff linkage, ?_⟩
  · refine List.pairwise_append.mpr ⟨linkage.ownerAscends, ?_, ?_⟩
    · cases added <;> simp
    · intro link listed new isNew
      have early := adds.older link listed
      rw [adds.here new (Option.mem_toList.mp isNew)]
      omega
  · refine List.pairwise_append.mpr ⟨linkage.memberAscends, ?_, ?_⟩
    · cases added <;> simp
    · intro link listed new isNew
      exact adds.ascends link listed new (Option.mem_toList.mp isNew)
  · refine List.isChain_append.mpr ⟨linkage.alternates, ?_, ?_⟩
    · cases added <;> simp
    · intro link isLast new isNew
      refine adds.alternates link isLast new ?_
      cases added with
      | none => cases isNew
      | some other => exact isNew
  · intro link listed isUnlinked
    rcases List.mem_append.mp listed with listed | isNew
    · have early := adds.older link listed
      exact (linkage.unlinked link listed isUnlinked).congr (adds.past _ (by omega))
        (adds.past _ (by omega))
    · have given := Option.mem_toList.mp isNew
      rw [adds.here link given]
      exact adds.unlinked link given isUnlinked

end Adds

end Store

end Chronicle
