import Chronicle.Proofs.Content.Difference
import Chronicle.Proofs.Steps
import Chronicle.Record

/-!
# The standard kinds

What the three standard descriptors have in common: each has a table of snapshots of its
own, its relations have different names, and the sequence of members never counts.
-/

namespace Chronicle

namespace Descriptor

@[simp] theorem standard_kind (kind : Kind) : (standard kind).kind = kind := by
  cases kind <;> rfl

theorem standard_fixedColumns (kind : Kind) : (standard kind).fixedColumns? = none := by
  cases kind <;> decide

theorem standard_relation_names (kind : Kind) :
    ((standard kind).relations.map RelationSpec.name).Nodup := by
  cases kind <;> decide

theorem standard_isOrdered (kind : Kind) (relation : String) :
    (standard kind).isOrdered relation = false := by
  unfold isOrdered
  split
  · rename_i spec known
    have declared := List.mem_of_find?_eq_some known
    have unordered : ∀ spec ∈ (standard kind).relations, spec.ordered = false := by
      cases kind <;> decide
    exact unordered spec declared
  · rfl

/-- Contents of a standard kind have the same normal form if they have the same values and
the same members. -/
theorem standard_normal_eq_iff (kind : Kind) (first second : Content) :
    (standard kind).normal first = (standard kind).normal second ↔
      (∀ name, first.value name = second.value name) ∧
        ∀ relation member, member ∈ first.members relation ↔ member ∈ second.members relation := by
  have lists (relation : String) : (standard kind).normalMembers relation (first.members relation) =
        (standard kind).normalMembers relation (second.members relation) ↔
      ∀ member, member ∈ first.members relation ↔ member ∈ second.members relation := by
    rw [normalMembers_eq_iff, standard_isOrdered]
    simp
  rw [normal_eq_iff]
  exact ⟨fun alike => ⟨alike.values, fun relation => (lists relation).mp (alike.lists relation)⟩,
    fun both => ⟨both.1, fun relation => (lists relation).mpr (both.2 relation)⟩⟩

theorem standard_normal_canonical (kind : Kind) (content : Content) :
    (standard kind).normal content.canonical = (standard kind).normal content :=
  (standard_normal_eq_iff kind _ _).mpr
    ⟨Content.value_canonical content, fun _ _ => Content.mem_members_canonical⟩

theorem declares_of_check {descriptor : Descriptor} {content : Content}
    (accepted : descriptor.check content = .ok ()) : descriptor.Declares content :=
  fun _ _ listed => declared_of_mem accepted listed

/-- A change of accepted contents of a standard kind is without effect exactly if it leaves the
normal form alone. -/
theorem standard_immaterial_iff {kind : Kind} {before after : Content}
    (beforeAccepted : (standard kind).check before = .ok ())
    (afterAccepted : (standard kind).check after = .ok ()) :
    ((standard kind).compare (some before) (some after)).isMaterial = false ↔
      (standard kind).normal before = (standard kind).normal after :=
  compare_immaterial_iff (standard_relation_names kind) (declares_of_check beforeAccepted)
    (declares_of_check afterAccepted)

theorem standard_isMaterial {kind : Kind} {before after : Content}
    (beforeAccepted : (standard kind).check before = .ok ())
    (afterAccepted : (standard kind).check after = .ok ()) :
    ((standard kind).compare (some before) (some after)).isMaterial =
      decide ((standard kind).normal before ≠ (standard kind).normal after) := by
  have immaterial := standard_immaterial_iff beforeAccepted afterAccepted
  by_cases same : (standard kind).normal before = (standard kind).normal after
  · rw [immaterial.mpr same, decide_eq_false (not_not_intro same)]
  · rw [decide_eq_true same]
    exact (Bool.not_eq_false _).mp (mt immaterial.mp same)

end Descriptor

namespace Env

theorem descriptor_standard {env : Env} (standard : env.registry = .standard) (kind : Kind) :
    env.descriptor kind = .ok (.standard kind) := by
  rw [descriptor, standard]
  cases kind <;> rfl

theorem clock_eq_ok {env : Env} {now : Int64} : env.clock = .ok now ↔ now = env.now ∧ ¬ env.now < 0 := by
  unfold clock
  split
  · rename_i early
    constructor
    · intro shown
      cases shown
    · intro both
      exact absurd early both.2
  · rename_i started
    exact ⟨fun shown => ⟨(Except.ok.inj shown).symm, started⟩, fun both => by rw [both.1]⟩

/-- The live record that a standard kind of environment reads. -/
theorem record?_standard {env : Env} (standard : env.registry = .standard) (store : Store)
    (id : EntityId) :
    env.record? store id = .ok (((store.row? id).filter fun row => !row.deleted).map fun row =>
      ⟨id, row.kind, row.version, store.load (.standard row.kind) id⟩) := by
  unfold record?
  cases store.row? id with
  | none => rfl
  | some row =>
      dsimp only
      rw [descriptor_standard standard]
      cases deleted : row.deleted <;> simp [Option.filter, deleted]

end Env

end Chronicle
