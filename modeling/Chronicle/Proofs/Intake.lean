import Chronicle.Exchange.Push
import Chronicle.Proofs.Steps

/-!
# Reading a push

Reading the body of a push may draw identifiers for records that have none; it does
nothing else to the store (`readPush_drawsAhead`).
-/

namespace Chronicle

/-- Two stores differ at most in which identifiers have been handed out. -/
def Store.DrawsOnly (before after : Store) : Prop := after = { before with supply := after.supply }

/-- Identifiers are drawn, and those that had been handed out still have been. -/
structure Store.DrawsAhead (before after : Store) : Prop where
  drawsOnly : before.DrawsOnly after
  advances : before.supply.issued <:+ after.supply.issued

namespace Store

theorem DrawsOnly.refl (store : Store) : store.DrawsOnly store := rfl

theorem DrawsOnly.trans {first second third : Store} (early : first.DrawsOnly second)
    (late : second.DrawsOnly third) : first.DrawsOnly third := by
  unfold DrawsOnly at *
  rw [late, early]

namespace DrawsAhead

theorem refl (store : Store) : store.DrawsAhead store := ⟨.refl store, List.suffix_refl _⟩

theorem trans {first second third : Store} (early : first.DrawsAhead second)
    (late : second.DrawsAhead third) : first.DrawsAhead third :=
  ⟨early.drawsOnly.trans late.drawsOnly, early.advances.trans late.advances⟩

theorem newEntityId (store : Store) (generator : Generator) :
    store.DrawsAhead (store.newEntityId generator).2 := ⟨rfl, List.suffix_cons _ _⟩

end DrawsAhead

end Store

/-- What operations run under, but with other new identifiers. -/
abbrev Env.withGenerator (env : Env) (generator : Generator) : Env :=
  { env with generator := generator }

/-- If each item in turn draws at most, all of them do. -/
theorem inTurn_drawsAhead {ε α β : Type} {step : α → Store → Except ε (β × Store)}
    {items : List α} {store after : Store} {results : List β}
    (each : ∀ item before result next, step item before = .ok (result, next) →
      before.DrawsAhead next)
    (carried : inTurn step items store = .ok (results, after)) : store.DrawsAhead after :=
  inTurn_keeps (motive := store.DrawsAhead)
    (fun item _ before result next kept once => kept.trans (each item before result next once))
    (.refl store) carried

theorem Intake.id_drawsAhead {env : Env} {what : String} {members : Dict String Json}
    {store after : Store} {id : EntityId}
    (taken : Intake.id env what members store = .ok (id, after)) : store.DrawsAhead after := by
  unfold Intake.id at taken
  split at taken
  · cases taken
    exact .newEntityId store env.generator
  · cases taken
    exact .newEntityId store env.generator
  · simp only [bind_eq_ok, pure_eq_ok, Prod.mk.injEq] at taken
    obtain ⟨_, _, _, rfl⟩ := taken
    exact .refl _

namespace Env

variable {env : Env} {store after : Store}

theorem attributeId_drawsAhead {members : Dict String Json} {content : Content}
    {keyed : KeyedAttributes} {found : EntityId × KeyedAttributes}
    (taken : env.attributeId members content keyed store = .ok (found, after)) :
    store.DrawsAhead after := by
  unfold attributeId at taken
  split at taken
  · simp only [bind_eq_ok, pure_eq_ok, Prod.mk.injEq] at taken
    obtain ⟨_, _, _, rfl⟩ := taken
    exact .refl _
  · split at taken
    · cases taken
      exact .refl _
    · cases taken
      exact .newEntityId store env.generator

theorem readLink_drawsAhead {json : Json} {keyed left : KeyedAttributes}
    {link : EntityId × Option Bundle}
    (taken : env.readLink json (keyed, store) = .ok (link, left, after)) :
    store.DrawsAhead after := by
  unfold readLink at taken
  dsimp only at taken
  split at taken
  · simp only [bind_eq_ok, pure_eq_ok, Prod.mk.injEq] at taken
    obtain ⟨_, _, _, _, rfl⟩ := taken
    exact .refl _
  · simp only [bind_eq_ok, pure_eq_ok, Prod.exists, Prod.mk.injEq] at taken
    obtain ⟨_, _, _, _, _, _, _, _, _, named, _, _, _, _, rfl⟩ := taken
    exact attributeId_drawsAhead named

theorem readLinks_drawsAhead {owner : EntityId} {json : Option Json}
    {links : List EntityId × List Bundle}
    (taken : env.readLinks owner json store = .ok (links, after)) : store.DrawsAhead after := by
  unfold readLinks at taken
  split at taken
  · cases taken
    exact .refl _
  · split at taken
    · cases taken
    · simp only [bind_eq_ok, pure_eq_ok, Prod.exists, Prod.mk.injEq] at taken
      obtain ⟨keyed, _, _, _, _, read, _, rfl⟩ := taken
      refine inTurn_keeps (motive := fun state : KeyedAttributes × Store => store.DrawsAhead state.2)
        ?_ (.refl store) read
      intro entry _ before link next kept once
      exact kept.trans (readLink_drawsAhead once)

theorem readItem_drawsAhead {json : Json} {item : Bundle × List Bundle}
    (taken : env.readItem json store = .ok (item, after)) : store.DrawsAhead after := by
  unfold readItem at taken
  simp only [bind_eq_ok, pure_eq_ok, Prod.exists, Prod.mk.injEq] at taken
  obtain ⟨_, _, _, _, named, _, _, _, _, _, _, _, linked, _, _, _, rfl⟩ := taken
  exact (Intake.id_drawsAhead named).trans (readLinks_drawsAhead linked)

theorem readItems_drawsAhead {json : Option Json} {items : List (Bundle × List Bundle)}
    (taken : env.readItems json store = .ok (items, after)) : store.DrawsAhead after := by
  unfold readItems at taken
  split at taken
  · cases taken
    exact .refl _
  · split at taken
    · cases taken
    · exact inTurn_drawsAhead (fun _ _ _ _ once => readItem_drawsAhead once) taken

theorem readStory_drawsAhead {json : Json} {bundle : StoryBundle}
    (taken : env.readStory json store = .ok (bundle, after)) : store.DrawsAhead after := by
  unfold readStory at taken
  simp only [bind_eq_ok, pure_eq_ok, Prod.exists, Prod.mk.injEq] at taken
  obtain ⟨_, _, _, _, named, _, _, _, _, _, _, _, linked, _, _, items, _, _, _, rfl⟩ := taken
  exact ((Intake.id_drawsAhead named).trans (readLinks_drawsAhead linked)).trans
    (readItems_drawsAhead items)

/-- Reading a push draws identifiers at most. -/
theorem readPush_drawsAhead {producer : String} {body : Json} {submission : Submission}
    (taken : env.readPush producer body store = .ok (submission, after)) :
    store.DrawsAhead after := by
  unfold readPush at taken
  rw [bind_eq_ok] at taken
  obtain ⟨stories, _, taken⟩ := taken
  split at taken
  · cases taken
  · simp only [bind_eq_ok, pure_eq_ok, Prod.exists, Prod.mk.injEq] at taken
    obtain ⟨_, _, read, _, rfl⟩ := taken
    exact inTurn_drawsAhead (fun _ _ _ _ once => readStory_drawsAhead once) read

end Env

end Chronicle
