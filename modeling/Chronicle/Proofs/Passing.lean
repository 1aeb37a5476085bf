import Chronicle.Proofs.Judgement

/-!
# Passing the judgement

If nothing is told about a submission, each mention that was judged passes: its record has the
named kind if it is live, what was sent does not diverge, and no conflict that the producer had
caused for it is pending any more. An attribute that is sent again with the same story is not
judged, so nothing is known of it.
-/

namespace Chronicle

open Descriptor (standard)

/-- A mention passes if its record has the named kind and does not diverge in the first store,
and no conflict of the producer is pending for it in the last. -/
structure Mention.Passes (first last : Store) (scope : Scope) (mention : Mention) : Prop where
  kind : ∀ row, first.live? mention.sent.id = some row → row.kind = mention.kind
  covered : mention.divergent? first = none
  cleared : ∀ conflict, last.conflict? mention.kind mention.sent.id = some conflict →
    conflict.scope ≠ scope

theorem Mention.Passes.of_sheds {first middle last : Store} {scope : Scope} {mention : Mention}
    (passes : mention.Passes first middle scope) (sheds : middle.Sheds last) :
    mention.Passes first last scope :=
  ⟨passes.kind, passes.covered, fun conflict pending =>
    passes.cleared conflict (sheds.pending _ conflict pending)⟩

namespace Env

variable {env : Env} {first store after : Store} {scope : Scope}

theorem judge_quiet (registered : env.registry = .standard) (rows : first.SoundRows)
    (kept : first.KeepsRecords store) (mention : Mention)
    (accepted : (standard mention.kind).check mention.sent.content = .ok ())
    {parent : Option Parent}
    (judged : env.judge scope mention.kind parent mention.sent store = .ok (none, after)) :
    mention.Passes first after scope ∧ store.Sheds after := by
  obtain ⟨looked, _, rfl⟩ | ⟨_, _, _, impossible, _⟩ := judge_eq_ok judged
  · obtain ⟨kind, covered⟩ := (stale?_mention_eq_ok registered (kept.soundRows rows) accepted).mp
      looked
    rw [kept.divergent?_eq] at covered
    refine ⟨⟨?_, ?_, ?_⟩, .withdrawConflict store mention.kind mention.sent.id scope⟩
    · intro row live
      rw [← kept.live?_eq] at live
      exact kind row live
    · exact Option.map_eq_none_iff.mp covered.symm
    · intro conflict pending
      exact Store.withdrawConflict_scope pending
  · cases impossible

/-- Items or attributes about which nothing is told pass, all of them. -/
theorem judgeMembers_quiet (registered : env.registry = .standard) (rows : first.SoundRows)
    (kept : first.KeepsRecords store) {kind : Kind} {parent : Option Parent} {sent : List Bundle}
    (accepted : ∀ bundle ∈ sent, (standard kind).check bundle.content = .ok ())
    {summaries : List (Option ConflictSummary)}
    (judged : inTurn (env.judge scope kind parent) sent store = .ok (summaries, after))
    (quiet : ∀ summary ∈ summaries, summary = none) :
    (∀ bundle ∈ sent, Mention.Passes first after scope ⟨kind, bundle⟩) ∧ store.Sheds after := by
  induction sent generalizing store summaries with
  | nil =>
      obtain ⟨_, rfl⟩ := inTurn_nil_eq_ok.mp judged
      exact ⟨nofun, .refl _⟩
  | cons bundle rest ih =>
      obtain ⟨summary, between, others, once, later, rfl⟩ := inTurn_cons_eq_ok.mp judged
      obtain ⟨rfl, othersQuiet⟩ := List.forall_mem_cons.mp quiet
      obtain ⟨bundleAccepted, restAccepted⟩ := List.forall_mem_cons.mp accepted
      obtain ⟨passes, sheds⟩ := judge_quiet registered rows kept ⟨kind, bundle⟩
        bundleAccepted once
      obtain ⟨restPass, restSheds⟩ := ih (kept.trans sheds.records) restAccepted later othersQuiet
      refine ⟨?_, sheds.trans restSheds⟩
      exact List.forall_mem_cons.mpr ⟨passes.of_sheds restSheds, restPass⟩

theorem judgeStory_quiet (registered : env.registry = .standard) (rows : first.SoundRows)
    (kept : first.KeepsRecords store) {bundle : StoryBundle}
    (judged : env.judgeStory scope bundle store = .ok ([], after)) :
    (∀ mention ∈ bundle.mentions, (standard mention.kind).check mention.sent.content = .ok ()) ∧
      (∀ mention ∈ bundle.judged, mention.Passes first after scope) ∧ store.Sheds after := by
  obtain ⟨story, items, attributes, afterStory, afterItems, valid, storyJudged, itemsJudged,
    attributesJudged, none⟩ := judgeStory_eq_ok judged
  have accepted := (validateStory_eq_ok registered).mp valid
  have quiet := List.filterMap_eq_nil_iff.mp none.symm
  obtain ⟨rfl, othersQuiet⟩ := List.forall_mem_cons.mp quiet
  obtain ⟨itemsQuiet, attributesQuiet⟩ := List.forall_mem_append.mp othersQuiet
  obtain ⟨storyAccepted, othersAccepted⟩ := List.forall_mem_cons.mp accepted
  obtain ⟨itemsAccepted, attributesAccepted⟩ := List.forall_mem_append.mp othersAccepted
  rw [List.forall_mem_map] at itemsAccepted attributesAccepted
  obtain ⟨storyPasses, storySheds⟩ := judge_quiet registered rows kept
    ⟨.story, bundle.sent⟩ storyAccepted storyJudged
  have toItems := storySheds.trans
    (.withdrawDropped afterStory .newsItem scope bundle.id (bundle.items.map Bundle.id))
  obtain ⟨itemsPass, itemsShed⟩ := judgeMembers_quiet registered rows
    (kept.trans toItems.records) itemsAccepted itemsJudged itemsQuiet
  have toAttributes := (toItems.trans itemsShed).trans
    (.withdrawDropped afterItems .attr scope bundle.id (bundle.attributes.map Bundle.id))
  obtain ⟨attributesPass, attributesShed⟩ := judgeMembers_quiet registered rows
    (kept.trans toAttributes.records)
    (fun sent listed => attributesAccepted sent (Bundle.mem_firsts listed)) attributesJudged
    attributesQuiet
  have storyToItems := Store.Sheds.withdrawDropped afterStory .newsItem scope bundle.id
    (bundle.items.map Bundle.id)
  have itemsToAttributes := Store.Sheds.withdrawDropped afterItems .attr scope bundle.id
    (bundle.attributes.map Bundle.id)
  refine ⟨accepted, ?_, toAttributes.trans attributesShed⟩
  refine List.forall_mem_cons.mpr ⟨?_, List.forall_mem_append.mpr ⟨?_, ?_⟩⟩
  · exact storyPasses.of_sheds
      (((storyToItems.trans itemsShed).trans itemsToAttributes).trans attributesShed)
  · refine List.forall_mem_map.mpr ?_
    intro sent listed
    exact (itemsPass sent listed).of_sheds (itemsToAttributes.trans attributesShed)
  · exact List.forall_mem_map.mpr attributesPass

/-- If nothing is told about any story, all that was judged passes. -/
theorem judgeStories_quiet (registered : env.registry = .standard) (rows : first.SoundRows)
    (kept : first.KeepsRecords store) {bundles : List StoryBundle}
    {summaries : List (List ConflictSummary)}
    (judged : inTurn (env.judgeStory scope) bundles store = .ok (summaries, after))
    (quiet : summaries.flatten = []) :
    (∀ mention ∈ bundles.flatMap StoryBundle.mentions,
        (standard mention.kind).check mention.sent.content = .ok ()) ∧
      (∀ mention ∈ bundles.flatMap StoryBundle.judged, mention.Passes first after scope) ∧
      store.Sheds after := by
  induction bundles generalizing store summaries with
  | nil =>
      obtain ⟨_, rfl⟩ := inTurn_nil_eq_ok.mp judged
      exact ⟨nofun, nofun, .refl _⟩
  | cons bundle rest ih =>
      obtain ⟨told, between, others, once, later, rfl⟩ := inTurn_cons_eq_ok.mp judged
      obtain ⟨rfl, othersQuiet⟩ := List.append_eq_nil_iff.mp quiet
      obtain ⟨accepted, passes, sheds⟩ := judgeStory_quiet registered rows kept once
      obtain ⟨restAccepted, restPass, restSheds⟩ := ih (kept.trans sheds.records) later othersQuiet
      rw [List.flatMap_cons, List.flatMap_cons]
      refine ⟨List.forall_mem_append.mpr ⟨accepted, restAccepted⟩,
        List.forall_mem_append.mpr ⟨?_, restPass⟩, sheds.trans restSheds⟩
      intro mention listed
      exact (passes mention listed).of_sheds restSheds

/-! ## Accepted submissions -/

/-- What is known of a submission that was accepted once it has been judged. -/
structure Accepts (env : Env) (submission : Submission) (store judged : Store)
    (applied : List AppliedStory) (after : Store) : Prop where
  accepted : ∀ mention ∈ submission.mentions,
    (standard mention.kind).check mention.sent.content = .ok ()
  passes : ∀ mention ∈ submission.judged, mention.Passes store judged submission.scope
  sheds : store.Sheds judged
  applied : inTurn (env.applyStory ⟨submission.actor, .external submission.scope⟩)
    submission.stories judged = .ok (applied, after)

/-- An accepted submission passed the judgement, and was then applied. -/
theorem submit_accepts (registered : env.registry = .standard) (rows : store.SoundRows)
    {submission : Submission} {applied : List AppliedStory}
    (accepted : (env.submit submission store).1 = .ok applied) :
    ∃ judged, Accepts env submission store judged applied (env.submit submission store).2 := by
  rw [submit_eq] at accepted ⊢
  cases carried : env.judgeAndApply submission store with
  | error refusal =>
      rw [carried] at accepted
      cases accepted
  | ok answer =>
      obtain ⟨answer, last⟩ := answer
      obtain ⟨summaries, judged, judgedAll, ⟨quiet, applied, rfl, done⟩ | ⟨_, rfl, _⟩⟩ :=
        judgeAndApply_eq_ok carried
      · rw [carried] at accepted
        cases accepted
        obtain ⟨contents, passes, sheds⟩ :=
          judgeStories_quiet registered rows (.refl store) judgedAll quiet
        exact ⟨judged, contents, passes, sheds, done⟩
      · rw [carried] at accepted
        cases accepted

end Env

theorem exists_applied_of_isOk {env : Env} {submission : Submission} {store : Store}
    (carried : (env.submit submission store).1.isOk = true) :
    ∃ applied, (env.submit submission store).1 = .ok applied := by
  cases answer : (env.submit submission store).1 with
  | error refusal =>
      rw [answer] at carried
      cases carried
  | ok applied => exact ⟨applied, rfl⟩

end Chronicle
