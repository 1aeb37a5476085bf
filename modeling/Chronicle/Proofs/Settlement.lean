import Chronicle.Proofs.Acceptance

/-!
# Applying again what has been applied

A commit of what is settled already changes nothing, if the members that it lists are of the kinds
that they have to be (`Env.apply_settled_again`). Where no identifier is used for two kinds that is
so after a submission has been applied (`Env.applyStories_link`), and each of its items is listed by
its own story alone, so applying all of it again leaves the store as it is
(`Env.applyStories_again`).
-/

namespace Chronicle

open Descriptor (standard)

/-! ## Members of the right kinds -/

/-- The members that a mention lists are of the right kinds, as far as they exist. -/
def Mention.Linked (store : Store) (mention : Mention) : Prop :=
  store.memberFault? (standard mention.kind) mention.sent.content = none

/-- The identifiers that a mention uses, each for a kind: that of its own record, and those of its
members. -/
def Mention.uses (mention : Mention) : List (Kind × EntityId) :=
  mention.name :: (standard mention.kind).relations.flatMap fun relation =>
    (mention.sent.content.members relation.name).map fun member => (relation.target, member)

/-- No identifier is used for two kinds. -/
def Submission.Unambiguous (submission : Submission) : Prop :=
  ∀ first ∈ submission.mentions.flatMap Mention.uses,
    ∀ second ∈ submission.mentions.flatMap Mention.uses, first.2 = second.2 → first.1 = second.1

instance (submission : Submission) : Decidable submission.Unambiguous := by
  unfold Submission.Unambiguous
  infer_instance

namespace Env

variable {env : Env} {attribution : Attribution} {store after : Store} {submission : Submission}

/-- Every commit of the submission keeps the members of a mention of the right kinds. -/
theorem keeps_linked (registered : env.registry = .standard)
    (unambiguous : submission.Unambiguous) {mention : Mention}
    (listed : mention ∈ submission.mentions) {bundle : StoryBundle}
    (sent : bundle ∈ submission.stories) :
    Keeps env attribution bundle (Mention.Linked · mention) := by
  constructor
  · intro other otherListed before outcome next sound linked applied
    rw [Mention.Linked, Store.memberFault?_eq_none_iff] at linked ⊢
    intro relation declared member isMember row found
    by_cases here : member = other.sent.id
    · -- the member that has been committed is named for the kind that it is used for
      subst here
      have settled := apply_settled registered sound other applied
      have named : other.name ∈ submission.mentions.flatMap Mention.uses :=
        List.mem_flatMap.mpr ⟨other, Submission.mem_mentions sent otherListed, List.mem_cons_self⟩
      have used : (relation.target, other.sent.id) ∈ submission.mentions.flatMap Mention.uses :=
        List.mem_flatMap.mpr ⟨mention, listed, List.mem_cons_of_mem _
          (List.mem_flatMap.mpr ⟨relation, declared, List.mem_map_of_mem isMember⟩)⟩
      rw [settled.kind_eq found]
      exact unambiguous _ named _ used rfl
    · rw [apply_row?_of_ne registered sound applied here] at found
      exact linked relation declared member isMember row found
  · intro item isItem owner _ _ before outcome next _ _ sound linked detached
    rw [Mention.Linked, Store.memberFault?_eq_none_iff] at linked ⊢
    intro relation declared member isMember row found
    by_cases here : member = owner
    · subst here
      obtain ⟨old, last, oldFound, _, _, lastFound, without⟩ :=
        detach_without registered sound detached
      cases found.symm.trans lastFound
      rw [without.kind_eq]
      exact linked relation declared member isMember old oldFound
    · rw [detach_row?_of_ne registered sound detached here] at found
      exact linked relation declared member isMember row found

/-- Once a submission has been applied, the members that it lists are of the right kinds. -/
theorem applyStories_link (registered : env.registry = .standard)
    (unambiguous : submission.Unambiguous) {mention : Mention}
    (listed : mention ∈ submission.mentions) {applied : List AppliedStory}
    (sound : store.SoundRows)
    (done : inTurn (env.applyStory attribution) submission.stories store = .ok (applied, after)) :
    mention.Linked after := by
  obtain ⟨bundle, sent, mentioned⟩ := List.mem_flatMap.mp listed
  have keeps : ∀ other ∈ submission.stories,
      Keeps env attribution other (Mention.Linked · mention) :=
    fun other otherSent => keeps_linked registered unambiguous listed otherSent
  refine applyStories_reach registered keeps sent ?_ sound done
  intro before result next sound applied
  refine (keeps bundle sent).of_mention registered mentioned ?_ sound applied
  intro before outcome next sound once
  have admits := (apply_applies registered sound once).1
  exact (keeps bundle sent).mention mention mentioned before outcome next sound
    (admits.members _ rfl) once

end Env

/-! ## Commits without effect -/

/-- Whether a commit has changed nothing. -/
def Outcome.IsNoop (outcome : Outcome) : Prop := outcome.change.isMaterial = false

/-- Whether nothing has been changed for a story. -/
structure AppliedStory.IsNoop (applied : AppliedStory) : Prop where
  story : applied.story.IsNoop
  items : ∀ outcome ∈ applied.items, outcome.IsNoop
  attributes : ∀ outcome ∈ applied.attributes, outcome.IsNoop

/-- A mention that could be committed without effect. -/
structure Mention.Rests (store : Store) (mention : Mention) : Prop where
  accepted : (standard mention.kind).check mention.sent.content = .ok ()
  linked : mention.Linked store
  settled : mention.Settled store

namespace Env

variable {env : Env} {attribution : Attribution} {store : Store}

/-- A commit of what is settled changes nothing. -/
theorem apply_settled_again (registered : env.registry = .standard) (sound : store.SoundRows)
    {mention : Mention} (rests : mention.Rests store) :
    ∃ outcome, env.apply mention.kind mention.sent.id (some mention.sent.content) attribution store =
      .ok (outcome, store) ∧ outcome.IsNoop := by
  obtain ⟨row, live, kind, counts⟩ := rests.settled
  obtain ⟨found, notDeleted⟩ := Store.live?_eq_some_iff.mp live
  have checked : store.checkProposed (standard mention.kind) (some mention.sent.content) = .ok () := by
    refine Store.checkProposed_eq_ok.mpr ?_
    rintro _ ⟨⟩
    exact ⟨rests.accepted, rests.linked⟩
  have given : store.previous (standard mention.kind) mention.sent.id =
      .ok (some row.content, row.version) := by
    refine (Store.previous_eq_ok sound).mpr ⟨?_, ?_⟩
    · intro other otherFound
      cases found.symm.trans otherFound
      exact ⟨kind, notDeleted⟩
    · rw [Store.stored?, Store.counter, found]
      rfl
  have rowAccepted := (sound _ row found).accepted
  rw [kind] at rowAccepted
  have immaterial := (Descriptor.standard_immaterial_iff rowAccepted rests.accepted).mpr counts
  refine ⟨⟨mention.sent.id, mention.kind, row.version, (standard mention.kind).compare
    (some row.content) (some mention.sent.content), []⟩, ?_, immaterial⟩
  unfold apply
  rw [descriptor_standard registered]
  change (store.checkProposed (standard mention.kind) _ >>= _) = _
  rw [checked]
  change (store.previous (standard mention.kind) _ >>= _) = _
  rw [given]
  change (if ((standard mention.kind).compare (some row.content)
    (some mention.sent.content)).isMaterial = true then _ else _) = _
  rw [immaterial]
  rfl

/-- An item that is settled and listed by its own story alone is applied without effect. -/
theorem applyItem_again (registered : env.registry = .standard) (sound : store.SoundRows)
    {story : EntityId} {item : Bundle} (rests : Mention.Rests store ⟨.newsItem, item⟩)
    (owners : store.owners item.id itemRelation = [story]) :
    ∃ outcome, env.applyItem story attribution item store = .ok (outcome, store) ∧
      outcome.IsNoop := by
  obtain ⟨outcome, committed, noop⟩ := apply_settled_again registered sound rests
  refine ⟨outcome, ?_, noop⟩
  have none : (store.owners item.id itemRelation).filter (fun owner => owner ≠ story) = [] := by
    rw [owners]
    simp
  unfold applyItem
  simp only [bind_eq_ok, Prod.exists]
  refine ⟨outcome, store, committed, [], store, ?_, rfl⟩
  rw [none]
  rfl

/-- A story of which all is settled is applied without effect. -/
theorem applyStory_again (registered : env.registry = .standard) (sound : store.SoundRows)
    {bundle : StoryBundle} (rests : ∀ mention ∈ bundle.mentions, mention.Rests store)
    (owners : ∀ item ∈ bundle.items, store.owners item.id itemRelation = [bundle.id]) :
    ∃ applied, env.applyStory attribution bundle store = .ok (applied, store) ∧
      applied.IsNoop := by
  have attributesStill : ∃ outcomes, inTurn
      (fun sent : Bundle => env.apply .attr sent.id (some sent.content) attribution)
      bundle.attributes store = .ok (outcomes, store) ∧ ∀ outcome ∈ outcomes, outcome.IsNoop :=
    inTurn_still fun sent listed =>
      apply_settled_again registered sound (rests _ (StoryBundle.attr_mem_mentions listed))
  have itemsStill : ∃ outcomes, inTurn (env.applyItem bundle.id attribution) bundle.items store =
      .ok (outcomes, store) ∧ ∀ outcome ∈ outcomes, outcome.IsNoop :=
    inTurn_still fun sent listed =>
      applyItem_again registered sound (rests _ (StoryBundle.item_mem_mentions listed))
        (owners sent listed)
  obtain ⟨attributes, attributesDone, attributesNoop⟩ := attributesStill
  obtain ⟨items, itemsDone, itemsNoop⟩ := itemsStill
  obtain ⟨story, storyDone, storyNoop⟩ :=
    apply_settled_again registered sound (rests ⟨.story, bundle.sent⟩ List.mem_cons_self)
  refine ⟨⟨story, items, attributes⟩, ?_, storyNoop, itemsNoop, attributesNoop⟩
  unfold applyStory
  simp only [bind_eq_ok, Prod.exists]
  exact ⟨attributes, store, attributesDone, items, store, itemsDone, story, store, storyDone, rfl⟩

/-- Stories of which all is settled are applied without effect. -/
theorem applyStories_again (registered : env.registry = .standard) (sound : store.SoundRows)
    {bundles : List StoryBundle}
    (rests : ∀ bundle ∈ bundles, ∀ mention ∈ bundle.mentions, mention.Rests store)
    (owners : ∀ bundle ∈ bundles, ∀ item ∈ bundle.items,
      store.owners item.id itemRelation = [bundle.id]) :
    ∃ applied, inTurn (env.applyStory attribution) bundles store = .ok (applied, store) ∧
      ∀ story ∈ applied, story.IsNoop :=
  inTurn_still fun bundle sent =>
    applyStory_again registered sound (rests bundle sent) (owners bundle sent)

end Env

end Chronicle
