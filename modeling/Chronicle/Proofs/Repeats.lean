import Chronicle.Proofs.Passing

/-!
# Attributes that are sent again

A story may come with the same attribute more than once. Only the first is judged, but all are
applied. So what an accepted submission overwrites without having been seen is exactly what
diverges among the attributes that are sent again: the version that is declared for these is
never looked at (`Env.submit_blind`).
-/

namespace Chronicle

open Descriptor (standard)

namespace Bundle

/-- What is sent for a record after something else has been sent for it. -/
def Repeated (sent : Bundle) (bundles : List Bundle) : Prop :=
  ∃ earlier later, bundles = earlier ++ sent :: later ∧ sent.id ∈ earlier.map Bundle.id

theorem Repeated.cons {sent : Bundle} {bundles : List Bundle} (repeated : sent.Repeated bundles)
    (first : Bundle) : sent.Repeated (first :: bundles) := by
  obtain ⟨earlier, later, rfl, seen⟩ := repeated
  exact ⟨first :: earlier, later, rfl, List.mem_cons_of_mem _ seen⟩

/-- What is sent is either the first for its record, or sent again. -/
theorem mem_firsts_or_repeated {sent : Bundle} {bundles : List Bundle} (listed : sent ∈ bundles) :
    sent ∈ firsts bundles ∨ sent.Repeated bundles := by
  induction bundles with
  | nil => cases listed
  | cons first rest ih =>
      rcases List.mem_cons.mp listed with rfl | later
      · exact Or.inl List.mem_cons_self
      · by_cases same : sent.id = first.id
        · obtain ⟨earlier, others, rfl⟩ := List.append_of_mem later
          refine Or.inr ⟨first :: earlier, others, rfl, ?_⟩
          rw [List.map_cons, same]
          exact List.mem_cons_self
        · rcases ih later with firstOfRest | repeated
          · refine Or.inl (List.mem_cons_of_mem _ (List.mem_filter.mpr ⟨firstOfRest, ?_⟩))
            exact decide_eq_true same
          · exact Or.inr (repeated.cons first)

/-- The bundles without the versions that are declared for records that were `seen` before. -/
def blindAfter (seen : List EntityId) : List Bundle → List Bundle
  | [] => []
  | first :: rest =>
      (if first.id ∈ seen then { first with base := none } else first) ::
        blindAfter (first.id :: seen) rest

/-- Two bundles that differ at most in the version that is declared. -/
structure SameContent (first second : Bundle) : Prop where
  id_eq : first.id = second.id
  content_eq : first.content = second.content

theorem blindAfter_sameContent (seen : List EntityId) (bundles : List Bundle) :
    List.Forall₂ SameContent (blindAfter seen bundles) bundles := by
  induction bundles generalizing seen with
  | nil => exact .nil
  | cons first rest ih =>
      refine .cons ?_ (ih _)
      split
      · exact ⟨rfl, rfl⟩
      · exact ⟨rfl, rfl⟩

theorem map_id_of_sameContent {first second : List Bundle}
    (each : List.Forall₂ SameContent first second) :
    first.map Bundle.id = second.map Bundle.id := by
  induction each with
  | nil => rfl
  | cons head _ ih => rw [List.map_cons, List.map_cons, head.id_eq, ih]

/-- The first bundles of the records that were not seen before are left as they are. -/
theorem filter_firsts_blindAfter (seen : List EntityId) (bundles : List Bundle) :
    (firsts (blindAfter seen bundles)).filter (fun bundle => decide (bundle.id ∉ seen)) =
      (firsts bundles).filter fun bundle => decide (bundle.id ∉ seen) := by
  induction bundles generalizing seen with
  | nil => rfl
  | cons first rest ih =>
      have others (bundles : List Bundle) :
          (bundles.filter fun bundle => decide (bundle.id ≠ first.id)).filter
              (fun bundle => decide (bundle.id ∉ seen)) =
            bundles.filter fun bundle => decide (bundle.id ∉ first.id :: seen) := by
        rw [List.filter_filter]
        refine List.filter_congr ?_
        intro bundle _
        simp [Bool.and_comm]
      by_cases known : first.id ∈ seen
      · rw [blindAfter, if_pos known, firsts, firsts, List.filter_cons_of_neg (by simp [known]),
          List.filter_cons_of_neg (by simp [known]), others, others, ih]
      · rw [blindAfter, if_neg known, firsts, firsts, List.filter_cons_of_pos (by simp [known]),
          List.filter_cons_of_pos (by simp [known]), others, others, ih]

theorem firsts_blindAfter_nil (bundles : List Bundle) :
    firsts (blindAfter [] bundles) = firsts bundles := by
  have same := filter_firsts_blindAfter [] bundles
  simpa using same

end Bundle

/-- The story without the versions that are declared for attributes that are sent again. -/
def StoryBundle.blind (bundle : StoryBundle) : StoryBundle :=
  { bundle with attributes := Bundle.blindAfter [] bundle.attributes }

def Submission.blind (submission : Submission) : Submission :=
  { submission with stories := submission.stories.map StoryBundle.blind }

/-! ## What is not looked at -/

section Lists

variable {ε σ α β : Type}

theorem inTurn_forall₂ {step : α → σ → Except ε (β × σ)} {alike : α → α → Prop}
    (same : ∀ first second, alike first second → step first = step second)
    {items others : List α} (each : List.Forall₂ alike items others) (state : σ) :
    inTurn step items state = inTurn step others state := by
  induction each generalizing state with
  | nil => rfl
  | cons head _ ih =>
      rename_i first second rest tail _
      have later : inTurn step rest = inTurn step tail := funext ih
      rw [inTurn, inTurn, same first second head, later]

theorem forM_forall₂ {test : α → Except ε Unit} {alike : α → α → Prop}
    (same : ∀ first second, alike first second → test first = test second)
    {items others : List α} (each : List.Forall₂ alike items others) :
    items.forM test = others.forM test := by
  induction each with
  | nil => rfl
  | cons head _ ih =>
      rename_i first second rest tail _
      change (test first >>= fun _ => rest.forM test) = (test second >>= fun _ => tail.forM test)
      rw [same first second head, ih]

end Lists

namespace Env

variable (env : Env)

theorem judgeStory_blind (scope : Scope) (bundle : StoryBundle) :
    env.judgeStory scope bundle.blind = env.judgeStory scope bundle := by
  have alike := Bundle.blindAfter_sameContent [] bundle.attributes
  have valid : env.validateStory bundle.blind = env.validateStory bundle := by
    have attributes : bundle.blind.attributes.forM (fun sent => env.validate .attr sent.content) =
        bundle.attributes.forM fun sent => env.validate .attr sent.content := by
      refine forM_forall₂ ?_ alike
      intro first second same
      rw [same.content_eq]
    unfold validateStory
    rw [attributes]
    rfl
  have ids : bundle.blind.attributes.map Bundle.id = bundle.attributes.map Bundle.id :=
    Bundle.map_id_of_sameContent alike
  have firsts : Bundle.firsts bundle.blind.attributes = Bundle.firsts bundle.attributes :=
    Bundle.firsts_blindAfter_nil bundle.attributes
  unfold judgeStory
  rw [valid, ids, firsts]
  rfl

theorem applyStory_blind (attribution : Attribution) (bundle : StoryBundle) :
    env.applyStory attribution bundle.blind = env.applyStory attribution bundle := by
  funext store
  have attributes : inTurn (fun sent : Bundle =>
        env.apply .attr sent.id (some sent.content) attribution) bundle.blind.attributes store =
      inTurn (fun sent : Bundle => env.apply .attr sent.id (some sent.content) attribution)
        bundle.attributes store := by
    refine inTurn_forall₂ ?_ (Bundle.blindAfter_sameContent [] bundle.attributes) store
    intro first second same
    rw [same.id_eq, same.content_eq]
  unfold applyStory
  rw [attributes]
  rfl

/-- The version that is declared for an attribute that is sent again is never looked at. -/
theorem submit_blind (submission : Submission) (store : Store) :
    env.submit submission.blind store = env.submit submission store := by
  have judged (state : Store) :
      inTurn (env.judgeStory submission.blind.scope) submission.blind.stories state =
        inTurn (env.judgeStory submission.scope) submission.stories state := by
    rw [Submission.blind, inTurn_map]
    exact inTurn_congr fun bundle _ before => by rw [judgeStory_blind]
  have applied (state : Store) :
      inTurn (env.applyStory ⟨submission.blind.actor, .external submission.blind.scope⟩)
          submission.blind.stories state =
        inTurn (env.applyStory ⟨submission.actor, .external submission.scope⟩)
          submission.stories state := by
    rw [Submission.blind, inTurn_map]
    exact inTurn_congr fun bundle _ before => by rw [applyStory_blind]
  have both : env.judgeAndApply submission.blind store = env.judgeAndApply submission store := by
    unfold judgeAndApply
    simp only [judged, applied]
  rw [submit_eq, submit_eq, both]

end Env

/-! ## What is overwritten -/

theorem Bundle.Repeated.mem {sent : Bundle} {bundles : List Bundle}
    (repeated : sent.Repeated bundles) : sent ∈ bundles := by
  obtain ⟨earlier, later, rfl, _⟩ := repeated
  exact List.mem_append_right _ List.mem_cons_self

/-- What is sent again is all that is mentioned and not judged. -/
theorem StoryBundle.judged_or_repeated {bundle : StoryBundle} {mention : Mention}
    (listed : mention ∈ bundle.mentions) :
    mention ∈ bundle.judged ∨ mention.kind = .attr ∧ mention.sent.Repeated bundle.attributes := by
  simp only [judged, mentions, List.mem_cons, List.mem_append, List.mem_map] at *
  rcases listed with story | item | ⟨sent, isSent, rfl⟩
  · exact Or.inl (Or.inl story)
  · exact Or.inl (Or.inr (Or.inl item))
  · rcases Bundle.mem_firsts_or_repeated isSent with first | repeated
    · exact Or.inl (Or.inr (Or.inr ⟨sent, first, rfl⟩))
    · exact Or.inr ⟨rfl, repeated⟩

/-- Of what an accepted submission mentions nothing diverges but attributes that are sent again.
So it overwrites what has not been seen exactly if one of these does, and whatever version is
declared for them makes no difference. -/
theorem Env.submit_overwrites_iff {env : Env} (registered : env.registry = .standard)
    {store : Store} (reachable : Reachable .standard store) {submission : Submission}
    {applied : List AppliedStory} (accepted : (env.submit submission store).1 = .ok applied) :
    (∀ mention ∈ submission.mentions, mention.divergent? store = none ∨
      mention.kind = .attr ∧
        ∃ bundle ∈ submission.stories, mention.sent.Repeated bundle.attributes) ∧
    ((∃ mention ∈ submission.mentions, (mention.divergent? store).isSome = true) ↔
      ∃ bundle ∈ submission.stories, ∃ sent : Bundle, sent.Repeated bundle.attributes ∧
        ((Mention.mk .attr sent).divergent? store).isSome = true) ∧
    env.submit submission.blind store = env.submit submission store := by
  obtain ⟨judged, accepts⟩ := submit_accepts registered reachable.sound.1 accepted
  have covered : ∀ mention ∈ submission.mentions, mention.divergent? store = none ∨
      mention.kind = .attr ∧
        ∃ bundle ∈ submission.stories, mention.sent.Repeated bundle.attributes := by
    intro mention listed
    obtain ⟨bundle, sent, mentioned⟩ := List.mem_flatMap.mp listed
    rcases StoryBundle.judged_or_repeated mentioned with looked | ⟨isAttr, repeated⟩
    · exact Or.inl (accepts.passes mention (List.mem_flatMap.mpr ⟨bundle, sent, looked⟩)).covered
    · exact Or.inr ⟨isAttr, bundle, sent, repeated⟩
  refine ⟨covered, ?_, env.submit_blind submission store⟩
  constructor
  · rintro ⟨⟨kind, sent⟩, listed, diverges⟩
    rcases covered _ listed with none | ⟨rfl, bundle, inStories, repeated⟩
    · rw [none] at diverges
      cases diverges
    · exact ⟨bundle, inStories, sent, repeated, diverges⟩
  · rintro ⟨bundle, inStories, sent, repeated, diverges⟩
    refine ⟨⟨.attr, sent⟩, List.mem_flatMap.mpr ⟨bundle, inStories, ?_⟩, diverges⟩
    exact StoryBundle.attr_mem_mentions repeated.mem

/-- A tag that is sent twice gets the second name, although its version was not seen. -/
theorem submit_overwrites_unseen_name :
    Reachable .standard .withRenamedTag ∧
    ∃ applied, (Env.submit ⟨.standard, 3, 0⟩ (.naming [(2, "final"), (1, "other")])
        .withRenamedTag).1 = .ok applied ∧
      ∃ mention ∈ (Submission.naming [(2, "final"), (1, "other")]).mentions,
        (mention.divergent? .withRenamedTag).isSome = true := by
  have reachable : Reachable .standard .withRenamedTag := reachable_following ⟨.standard, 3, 0⟩ _
  have carried : (Env.submit ⟨.standard, 3, 0⟩ (.naming [(2, "final"), (1, "other")])
      .withRenamedTag).1.isOk = true := by decide +kernel
  obtain ⟨applied, accepted⟩ := exists_applied_of_isOk carried
  refine ⟨reachable, applied, accepted, ?_⟩
  refine (Env.submit_overwrites_iff rfl reachable accepted).2.1.mpr ?_
  refine ⟨_, List.mem_singleton.mpr rfl, ⟨⟨⟨1⟩⟩, some 1, ⟨.ofList [("key", .text "other")],
    .empty⟩⟩, ⟨[_], [], rfl, by decide⟩, ?_⟩
  decide +kernel

/-- So it is not true that an accepted submission overwrites nothing that has not been seen. -/
theorem not_submit_overwrites_only_seen :
    ¬ ∀ (env : Env) (store : Store) (submission : Submission) (applied : List AppliedStory),
      env.registry = .standard → Reachable .standard store →
      (env.submit submission store).1 = .ok applied →
      ∀ mention ∈ submission.mentions, mention.divergent? store = none := by
  intro covered
  have reachable : Reachable .standard .withRenamedTag := reachable_following ⟨.standard, 3, 0⟩ _
  have carried : (Env.submit ⟨.standard, 3, 0⟩ (.naming [(2, "final"), (1, "other")])
      .withRenamedTag).1.isOk = true := by decide +kernel
  obtain ⟨applied, accepted⟩ := exists_applied_of_isOk carried
  have none := covered _ _ _ _ rfl reachable accepted
  revert none
  decide +kernel

end Chronicle
