import Chronicle.Proofs.Intake
import Chronicle.Proofs.Pending

/-!
# Identifiers that are drawn

An identifier that is drawn is neither in use nor one of the latest that were handed out, as long as
one is left that is neither. So with enough identifiers left, those that are drawn one after another
are new, and no two of them are the same (`Store.Draws.unused`, `Store.Draws.nodup`).
-/

namespace Chronicle

namespace Store

/-- The identifiers that are in use. -/
def usedIds (store : Store) : List Uuid := store.entities.keys.map EntityId.uuid

theorem length_usedIds (store : Store) : store.usedIds.length = store.entities.size := by
  rw [usedIds, List.length_map, Dict.keys, List.length_map, Dict.size]

theorem row?_eq_none_of_unused {store : Store} {id : EntityId} (unused : id.uuid ∉ store.usedIds) :
    store.row? id = none := by
  cases found : store.row? id with
  | none => rfl
  | some row =>
      have key : id ∈ store.entities.keys := store.entities.mem_keys_iff.mpr ⟨row, found⟩
      exact absurd (List.mem_map_of_mem key) unused

/-- A new identifier is neither in use nor one of the latest ones, unless there are too many of
them. -/
theorem newEntityId_not_mem {store : Store} {recent older : List Uuid}
    (issued : store.supply.issued = recent ++ older)
    (spare : store.entities.size + recent.length < 2 ^ 128) (generator : Generator) :
    (store.newEntityId generator).1.uuid ∉ store.usedIds ++ recent := by
  have few : (store.usedIds ++ recent).length < 2 ^ 128 := by
    rwa [List.length_append, length_usedIds]
  have unused := generator.fresh recent older store.usedIds (Uuid.exists_not_mem few)
  rwa [← issued] at unused

/-- A new identifier is that of no record, unless all are in use. -/
theorem row?_newEntityId {store : Store} (spare : store.entities.size < 2 ^ 128)
    (generator : Generator) : store.row? (store.newEntityId generator).1 = none := by
  have unused := newEntityId_not_mem (List.nil_append store.supply.issued).symm spare generator
  rw [List.append_nil] at unused
  exact row?_eq_none_of_unused unused

/-! ## Identifiers in turn -/

/-- Identifiers are drawn one after another, which leads from one store to the other. -/
inductive Draws (generator : Generator) : Store → List EntityId → Store → Prop
  | none (store : Store) : Draws generator store [] store
  | next {store after : Store} {ids : List EntityId}
      (rest : Draws generator (store.newEntityId generator).2 ids after) :
      Draws generator store ((store.newEntityId generator).1 :: ids) after

namespace Draws

variable {generator : Generator} {store between after : Store} {ids others : List EntityId}

theorem append (first : store.Draws generator ids between)
    (rest : between.Draws generator others after) : store.Draws generator (ids ++ others) after := by
  induction first with
  | none store => exact rest
  | next _ ih => exact .next (ih rest)

theorem drawsOnly (draws : store.Draws generator ids after) : store.DrawsOnly after := by
  induction draws with
  | none store => exact .refl store
  | @next store _ _ _ ih => exact (DrawsAhead.newEntityId store generator).drawsOnly.trans ih

/-- With enough identifiers left, those that are drawn are neither in use nor among the latest ones,
nor is one of them drawn twice: each is one of the latest for those that follow. -/
theorem distinct (draws : store.Draws generator ids after) {recent older : List Uuid}
    (issued : store.supply.issued = recent ++ older)
    (spare : store.entities.size + recent.length + ids.length ≤ 2 ^ 128) :
    ids.Nodup ∧ ∀ id ∈ ids, id.uuid ∉ store.usedIds ++ recent := by
  induction draws generalizing recent with
  | none store => exact ⟨List.nodup_nil, nofun⟩
  | @next store after ids _ ih =>
      rw [List.length_cons] at spare
      have first := newEntityId_not_mem issued (by omega) generator
      have issuedNext : (store.newEntityId generator).2.supply.issued =
          ((store.newEntityId generator).1.uuid :: recent) ++ older :=
        congrArg ((store.newEntityId generator).1.uuid :: ·) issued
      obtain ⟨nodup, rest⟩ := ih issuedNext (by
        change store.entities.size + _ + _ ≤ _
        rw [List.length_cons]
        omega)
      refine ⟨List.nodup_cons.mpr ⟨fun again => ?_, nodup⟩, List.forall_mem_cons.mpr ⟨first, ?_⟩⟩
      · exact rest _ again (List.mem_append_right _ List.mem_cons_self)
      · intro id listed taken
        refine rest id listed ?_
        rcases List.mem_append.mp taken with inUse | isRecent
        · exact List.mem_append_left _ inUse
        · exact List.mem_append_right _ (List.mem_cons_of_mem _ isRecent)

variable (draws : store.Draws generator ids after)
  (spare : store.entities.size + ids.length ≤ 2 ^ 128)

include draws spare

/-- With enough identifiers left, all that are drawn are new. -/
theorem unused : ∀ id ∈ ids, store.row? id = Option.none := by
  intro id listed
  have new := (draws.distinct (List.nil_append store.supply.issued).symm spare).2 id listed
  rw [List.append_nil] at new
  exact row?_eq_none_of_unused new

/-- With enough identifiers left, no two that are drawn are the same. -/
theorem nodup : ids.Nodup :=
  (draws.distinct (List.nil_append store.supply.issued).symm spare).1

end Draws

end Store

end Chronicle
