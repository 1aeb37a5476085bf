import Chronicle.Proofs.Lingering

/-!
# Members of the right kinds

A commit refuses members of a wrong kind among those that exist by then, and members may be named
before they exist. Nothing looks at the owner again when such a member is made. So the members of a
record are of the right kinds as far as they existed when it got its present version
(`Reachable.members_fit`), and there may be others (`not_members_fit_later`).
-/

namespace Chronicle

open Descriptor (standard)

namespace Store

/-- The reduced form of a content names no other members. -/
theorem memberFault?_canonical {store : Store} {descriptor : Descriptor} {content : Content}
    (fits : store.memberFault? descriptor content = none) :
    store.memberFault? descriptor content.canonical = none :=
  memberFault?_of_fewer fits fun _ _ listed => Content.mem_members_canonical.mp listed

namespace Wrote

variable {store before after : Store} {id : EntityId} {row : EntityRow}

/-- What was there before a commit is remembered after it. -/
theorem remembers_before {version : Nat} (wrote : store.Wrote id version before after) :
    before.Remembers store := by
  obtain ⟨env, kind, proposed, attribution, outcome, registered, applied⟩ := wrote.commit
  exact (wrote.early.chained.remembers_move registered (.applied applied)).trans wrote.remembers

/-- A commit that takes a record to another version writes that version. -/
theorem of_commit {env : Env} {kind : Kind} {proposed : Option Content}
    {attribution : Attribution} {version : Nat} (early : Trail .standard .empty before)
    (registered : env.registry = .standard) (ahead : before.counter id < version)
    (reached : (env.commit kind id proposed attribution before).2.counter id = version)
    (late : Trail .standard (env.commit kind id proposed attribution before).2 store) :
    store.Wrote id version before (env.commit kind id proposed attribution before).2 := by
  obtain ⟨outcome, applied⟩ | same :=
    transact_cases (env.apply kind id proposed attribution) before
  · exact ⟨early, ⟨env, kind, proposed, attribution, outcome, registered, applied⟩, ahead, reached,
      late⟩
  · change (env.commit kind id proposed attribution before).2 = before at same
    rw [same] at reached
    omega

/-- The row of a record is still the one that was written with its version. -/
theorem row_of_row? (chained : store.Chained) (found : store.row? id = some row)
    (wrote : store.Wrote id row.version before after) : after.row? id = some row := by
  obtain ⟨_, _, _, _, _, _, _, _, writes⟩ := wrote.writes
  rw [writes.row?_self]
  exact congrArg some
    (wrote.remembers.row_eq wrote.chained_after.traced chained.traced writes.row?_self found rfl).symm

/-- The members of a record were of the right kinds when it got its version, as far as they
existed. -/
theorem memberFault?_eq_none (chained : store.Chained) (found : store.row? id = some row)
    (live : row.deleted = false) (wrote : store.Wrote id row.version before after) :
    before.memberFault? (standard row.kind) row.content = none := by
  have written := wrote.row_of_row? chained found
  obtain ⟨_, _, proposed, _, _, _, admits, _, writes⟩ := wrote.writes
  rw [writes.row?_self] at written
  -- the version stands on both sides of the equation of rows
  generalize row.version = version at written
  cases written
  cases proposed with
  | none => cases live
  | some content => exact memberFault?_canonical (admits.members content rfl)

end Wrote

end Store

/-- In every store that a run can lead to, a member of a live record is of the kind that its
relation points to if it existed when the record got its present version. -/
theorem Reachable.members_fit {store : Store} (reachable : Reachable .standard store)
    {id : EntityId} {row : EntityRow} (found : store.row? id = some row)
    (live : row.deleted = false) {spec : RelationSpec}
    (declared : spec ∈ (standard row.kind).relations) {member : EntityId}
    (listed : member ∈ row.content.members spec.name) {memberRow : EntityRow}
    (memberFound : store.row? member = some memberRow) :
    (∃ before after, store.Wrote id row.version before after) ∧
    ∀ before after, store.Wrote id row.version before after →
      (before.row? member).isSome = true → memberRow.kind = spec.target := by
  have trail := Trail.of_run reachable
  have chained := trail.chained
  constructor
  · exact trail.exists_wrote (chained.traced.recorded.rows id row found).positive
      (Nat.le_of_eq (Store.counter_of_row? found).symm)
  · intro before after wrote existed
    obtain ⟨earlier, earlierFound⟩ := Option.isSome_iff_exists.mp existed
    obtain ⟨last, lastFound, kind, _⟩ := wrote.remembers_before.rows member earlier earlierFound
    rw [memberFound] at lastFound
    cases lastFound
    have fits := Store.memberFault?_eq_none_iff.mp (wrote.memberFault?_eq_none chained found live)
    rw [kind, fits spec declared member listed earlier earlierFound]

/-- A store with a tag. -/
def Store.withForeseenTag : Store :=
  .following ⟨.standard, 3, 0⟩
    [.commit .attr ⟨⟨1⟩⟩ (some ⟨.ofList [("key", .text "draft")], .empty⟩) ⟨"editor", .direct⟩]

/-- The store once a story has been given the tag, and another one that does not exist yet. -/
def Store.withForeseenStory : Store :=
  Operation.perform ⟨.standard, 3, 0⟩ .withForeseenTag
    (.commit .story ⟨⟨2⟩⟩ (some ⟨.ofList [("title", .text "rain")],
      .ofList [("attributes", [⟨⟨1⟩⟩, ⟨⟨3⟩⟩])]⟩) ⟨"editor", .direct⟩)

/-- The store once an item has been made with the identifier of the tag that did not exist. -/
def Store.withUnforeseenItem : Store :=
  Operation.perform ⟨.standard, 3, 0⟩ .withForeseenStory
    (.commit .newsItem ⟨⟨3⟩⟩ (some ⟨.ofList [("title", .text "storm")], .empty⟩) ⟨"editor", .direct⟩)

theorem reachable_withUnforeseenItem : Reachable .standard .withUnforeseenItem :=
  .step (.step (reachable_following ⟨.standard, 3, 0⟩ _) 3 0 _) 3 0 _

/-- The row of that story. -/
theorem Store.row?_withUnforeseenItem : ∃ row, Store.withUnforeseenItem.row? ⟨⟨2⟩⟩ = some row ∧
    row.kind = .story ∧ row.version = 1 ∧ row.deleted = false ∧
      row.content.members "attributes" = [⟨⟨1⟩⟩, ⟨⟨3⟩⟩] := by
  have stored : (Store.withUnforeseenItem.row? ⟨⟨2⟩⟩).map (fun row =>
      (row.kind, row.version, row.deleted, row.content.members "attributes")) =
      some (.story, 1, false, [⟨⟨1⟩⟩, ⟨⟨3⟩⟩]) := by decide +kernel
  obtain ⟨row, found, same⟩ := Option.map_eq_some_iff.mp stored
  simp only [Prod.mk.injEq] at same
  exact ⟨row, found, same⟩

/-- The relation between stories and their tags. -/
theorem Descriptor.exists_tagRelation :
    ∃ spec ∈ (standard .story).relations, spec.name = "attributes" ∧ spec.target = .attr := by
  decide

/-- The tag that existed is one. -/
theorem members_fit_withUnforeseenItem :
    Reachable .standard .withUnforeseenItem ∧
    ∃ row spec tag, Store.withUnforeseenItem.row? ⟨⟨2⟩⟩ = some row ∧ row.deleted = false ∧
      spec ∈ (standard row.kind).relations ∧ ⟨⟨1⟩⟩ ∈ row.content.members spec.name ∧
      Store.withUnforeseenItem.row? ⟨⟨1⟩⟩ = some tag ∧
      Store.withUnforeseenItem.Wrote ⟨⟨2⟩⟩ row.version .withForeseenTag .withForeseenStory ∧
      (Store.withForeseenTag.row? ⟨⟨1⟩⟩).isSome = true ∧ tag.kind = spec.target := by
  have reachable := reachable_withUnforeseenItem
  obtain ⟨row, found, kind, version, live, members⟩ := Store.row?_withUnforeseenItem
  obtain ⟨spec, declared, named, _⟩ := Descriptor.exists_tagRelation
  have listed : ⟨⟨1⟩⟩ ∈ row.content.members spec.name := by
    rw [named, members]
    exact List.mem_cons_self
  rw [← kind] at declared
  have stored : (Store.withUnforeseenItem.row? ⟨⟨1⟩⟩).isSome = true := by decide +kernel
  obtain ⟨tag, tagFound⟩ := Option.isSome_iff_exists.mp stored
  have existed : (Store.withForeseenTag.row? ⟨⟨1⟩⟩).isSome = true := by decide +kernel
  have wrote : Store.withUnforeseenItem.Wrote ⟨⟨2⟩⟩ row.version .withForeseenTag
      .withForeseenStory := by
    rw [version]
    exact .of_commit (Trail.of_run (reachable_following ⟨.standard, 3, 0⟩ _)) rfl
      (by decide +kernel) (by decide +kernel) (Operation.perform_trail ⟨.standard, 3, 0⟩ _ _)
  exact ⟨reachable, row, spec, tag, found, live, declared, listed, tagFound, wrote, existed,
    (reachable.members_fit found live declared listed tagFound).2 _ _ wrote existed⟩

/-- The other one is an item, so it is not true that all members have the right kinds. -/
theorem not_members_fit_later :
    ¬ ∀ (store : Store) (id : EntityId) (row : EntityRow) (spec : RelationSpec)
      (member : EntityId) (memberRow : EntityRow),
      Reachable .standard store → store.row? id = some row → row.deleted = false →
      spec ∈ (standard row.kind).relations → member ∈ row.content.members spec.name →
      store.row? member = some memberRow → memberRow.kind = spec.target := by
  intro fits
  obtain ⟨row, found, kind, _, live, members⟩ := Store.row?_withUnforeseenItem
  obtain ⟨spec, declared, named, target⟩ := Descriptor.exists_tagRelation
  have listed : ⟨⟨3⟩⟩ ∈ row.content.members spec.name := by
    rw [named, members]
    exact List.mem_cons_of_mem _ List.mem_cons_self
  rw [← kind] at declared
  have stored : (Store.withUnforeseenItem.row? ⟨⟨3⟩⟩).map EntityRow.kind = some .newsItem := by
    decide +kernel
  obtain ⟨item, itemFound, itemKind⟩ := Option.map_eq_some_iff.mp stored
  have wrong := fits _ _ row spec _ item reachable_withUnforeseenItem found live declared listed
    itemFound
  rw [itemKind, target] at wrong
  cases wrong

end Chronicle
