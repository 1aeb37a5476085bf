import Chronicle.Proofs.Notices
import Chronicle.Proofs.Settlement

/-!
# Submitting again

A submission that is sent once more finds what it has left. If it was accepted, all that it mentions
is settled and all conflicts that are pending are left by its turns; if it was rejected, each turn
finds what it has noticed itself, or nothing that it would remove. So the second time changes
nothing (`Env.submit_again`).
-/

namespace Chronicle

open Descriptor (standard)

/-! ## Without declared versions -/

def Bundle.unbased (sent : Bundle) : Bundle := { sent with base := none }

def StoryBundle.unbased (bundle : StoryBundle) : StoryBundle :=
  { bundle with
    base := none
    items := bundle.items.map Bundle.unbased
    attributes := bundle.attributes.map Bundle.unbased }

/-- The submission without the versions that it declares. -/
def Submission.unbased (submission : Submission) : Submission :=
  { submission with stories := submission.stories.map StoryBundle.unbased }

def Mention.unbased (mention : Mention) : Mention := { mention with sent := mention.sent.unbased }

def Turn.unbased : Turn → Turn
  | .judge bundle mention => .judge bundle.unbased mention.unbased
  | .drop bundle kind => .drop bundle.unbased kind

theorem Bundle.map_id_unbased (bundles : List Bundle) :
    (bundles.map Bundle.unbased).map Bundle.id = bundles.map Bundle.id := by
  rw [List.map_map]
  rfl

theorem Bundle.firsts_unbased (bundles : List Bundle) :
    firsts (bundles.map Bundle.unbased) = (firsts bundles).map Bundle.unbased := by
  induction bundles with
  | nil => rfl
  | cons first rest ih =>
      rw [List.map_cons, firsts, firsts, List.map_cons, ih, List.filter_map]
      rfl

namespace StoryBundle

theorem sent_unbased (bundle : StoryBundle) : bundle.unbased.sent = bundle.sent.unbased := by
  rw [sent, sent, proposed, proposed, unbased, Bundle.unbased, Bundle.map_id_unbased]

theorem mentions_unbased (bundle : StoryBundle) :
    bundle.unbased.mentions = bundle.mentions.map Mention.unbased := by
  rw [mentions, mentions, sent_unbased, List.map_cons, List.map_append, unbased]
  simp only [List.map_map]
  rfl

theorem memberIds_unbased (bundle : StoryBundle) (kind : Kind) :
    bundle.unbased.memberIds kind = bundle.memberIds kind := by
  cases kind with
  | story => rfl
  | newsItem => exact Bundle.map_id_unbased bundle.items
  | attr => exact Bundle.map_id_unbased bundle.attributes

theorem turns_unbased (bundle : StoryBundle) :
    bundle.unbased.turns = bundle.turns.map Turn.unbased := by
  rw [turns, turns, sent_unbased]
  simp only [List.map_cons, List.map_append, List.map_map]
  rw [show bundle.unbased.attributes = bundle.attributes.map Bundle.unbased from rfl,
    Bundle.firsts_unbased, List.map_map,
    show bundle.unbased.items = bundle.items.map Bundle.unbased from rfl, List.map_map]
  rfl

end StoryBundle

namespace Submission

theorem mentions_unbased (submission : Submission) :
    submission.unbased.mentions = submission.mentions.map Mention.unbased := by
  rw [mentions, mentions, unbased, List.flatMap_map, List.map_flatMap]
  exact List.flatMap_congr fun bundle _ => bundle.mentions_unbased

theorem turns_unbased (submission : Submission) :
    submission.unbased.turns = submission.turns.map Turn.unbased := by
  rw [turns, turns, unbased, List.flatMap_map, List.map_flatMap]
  exact List.flatMap_congr fun bundle _ => bundle.turns_unbased

variable {submission again : Submission}

/-- What is mentioned again was mentioned, perhaps with another version. -/
theorem mentioned_again (same : again.unbased = submission.unbased) {mention : Mention}
    (listed : mention ∈ again.mentions) :
    ∃ other ∈ submission.mentions, other.unbased = mention.unbased := by
  have there : mention.unbased ∈ again.unbased.mentions := by
    rw [mentions_unbased]
    exact List.mem_map_of_mem listed
  rwa [same, mentions_unbased, List.mem_map] at there

/-- Each turn of what is sent again has been taken, perhaps with another version. -/
theorem turn_again (same : again.unbased = submission.unbased) {turn : Turn}
    (listed : turn ∈ again.turns) : ∃ other ∈ submission.turns, other.unbased = turn.unbased := by
  have there : turn.unbased ∈ again.unbased.turns := by
    rw [turns_unbased]
    exact List.mem_map_of_mem listed
  rwa [same, turns_unbased, List.mem_map] at there

/-- Each item that is sent again was sent, with the same story. -/
theorem item_again (same : again.unbased = submission.unbased) {bundle : StoryBundle}
    (sent : bundle ∈ again.stories) {item : Bundle} (listed : item ∈ bundle.items) :
    ∃ other ∈ submission.stories, other.id = bundle.id ∧ ∃ former ∈ other.items,
      former.id = item.id := by
  have there : bundle.unbased ∈ again.unbased.stories := List.mem_map_of_mem sent
  rw [same] at there
  obtain ⟨other, otherSent, alike⟩ := List.mem_map.mp there
  have inStory : item.unbased ∈ bundle.unbased.items := List.mem_map_of_mem listed
  rw [← alike] at inStory
  obtain ⟨former, formerListed, sameItem⟩ := List.mem_map.mp inStory
  exact ⟨other, otherSent, (congrArg StoryBundle.id alike :), former, formerListed,
    (congrArg Bundle.id sameItem :)⟩

end Submission

/-- Which conflicts a turn leaves does not depend on declared versions. -/
theorem Turn.leaves_unbased {scope : Scope} {conflict : Conflict} {turn : Turn} :
    turn.unbased.Leaves scope conflict ↔ turn.Leaves scope conflict := by
  cases turn with
  | judge bundle mention => exact Iff.rfl
  | drop bundle kind =>
      rw [unbased, Leaves, Leaves, StoryBundle.memberIds_unbased]
      exact Iff.rfl

theorem Mention.rests_unbased {store : Store} {mention : Mention} :
    mention.unbased.Rests store ↔ mention.Rests store :=
  ⟨fun rests => ⟨rests.accepted, rests.linked, rests.settled⟩,
    fun rests => ⟨rests.accepted, rests.linked, rests.settled⟩⟩

/-! ## After a submission that was accepted -/

/-- What is settled does not diverge, whatever version is declared. -/
theorem Mention.Settled.divergent?_eq_none {store : Store} {mention : Mention}
    (settled : mention.Settled store) : mention.divergent? store = none := by
  obtain ⟨row, live, _, counts⟩ := settled
  rw [divergent?, live, Option.filter, if_neg]
  simp [counts]

/-- Nothing is noticed of a submission of which all is settled. -/
theorem Submission.quiet_of_settled {store : Store} {submission : Submission}
    (settled : ∀ mention ∈ submission.mentions, mention.Settled store) {turn : Turn}
    (listed : turn ∈ submission.turns) : turn.told? store = none ∧ turn.Fits store := by
  cases turn with
  | drop bundle kind => exact ⟨rfl, trivial⟩
  | judge bundle mention =>
      obtain ⟨sent, judged⟩ := judge_mem_turns.mp listed
      have there := settled mention (mem_mentions sent (StoryBundle.mem_mentions_of_judged judged))
      exact ⟨there.divergent?_eq_none, fun row live =>
        there.kind_eq (Store.live?_eq_some_iff.mp live).1⟩

namespace Env

variable {env later : Env} {submission again : Submission} {store after : Store}

/-- Turns of a submission of which all is settled change nothing, if they leave all that is
pending. -/
theorem take_settled_again (registered : env.registry = .standard) (disputed : store.Disputed)
    (rests : ∀ mention ∈ submission.mentions, mention.Rests store)
    (left : ∀ turn ∈ submission.turns, ∀ key conflict, store.conflicts.get? key = some conflict →
      turn.Leaves submission.scope conflict) :
    ∃ answers, env.Judges submission store answers store ∧ ∀ answer ∈ answers, answer = none := by
  have accepted : ∀ mention ∈ submission.mentions,
      (standard mention.kind).check mention.sent.content = .ok () :=
    fun mention listed => (rests mention listed).accepted
  have still : ∃ answers, inTurn (env.take submission.scope) submission.turns store =
      .ok (answers, store) ∧ ∀ answer ∈ answers, answer = none := by
    refine inTurn_still fun turn listed => ⟨none, ?_, rfl⟩
    obtain ⟨quiet, fits⟩ := Submission.quiet_of_settled
      (fun mention mentioned => (rests mention mentioned).settled) listed
    exact (take_quiet registered disputed (Submission.turns_accepted accepted turn listed)
      quiet).mpr ⟨fits, rfl, (Store.leftBy_eq_self (left turn listed)).symm⟩
  obtain ⟨answers, taken, none⟩ := still
  exact ⟨answers, ⟨accepted, taken⟩, none⟩

/-- If nothing has been told, no turn has noticed anything. -/
theorem Judges.untold_of_quiet {answers : List (Option ConflictSummary)} {judged : Store}
    (judges : env.Judges submission store answers judged) (registered : env.registry = .standard)
    (disputed : store.Disputed) (quiet : ∀ answer ∈ answers, answer = none) :
    ∀ turn ∈ submission.turns, ∀ name, ¬ turn.Tells store name := by
  intro turn listed name tells
  obtain ⟨_, _, told⟩ := judges.exists_notice_of_tells registered disputed listed tells
  cases quiet _ told

/-- What is pending in the end is left by every turn that has noticed nothing. -/
theorem Judges.leaves_pending {answers : List (Option ConflictSummary)} {judged : Store}
    (judges : env.Judges submission store answers judged) (registered : env.registry = .standard)
    (disputed : store.Disputed) (once : (submission.mentions.map Mention.name).Nodup)
    {turn : Turn} (listed : turn ∈ submission.turns) (untold : ∀ name, ¬ turn.Tells store name)
    {name : Kind × EntityId} {conflict : Conflict}
    (found : judged.conflicts.get? name = some conflict) :
    turn.Leaves submission.scope conflict := by
  obtain ⟨notice, rfl, _⟩ | ⟨_, left⟩ := judges.noticed_or_left registered disputed name
  · -- the conflict is the one that another turn has noticed
    rw [notice.pending registered disputed judges.turns_accepted once] at found
    cases found
    refine notice.leaves_elsewhere once ?_
    rw [notice.split, List.mem_append, List.mem_cons] at listed
    rcases listed with isEarlier | rfl | isLater
    · exact Or.inl isEarlier
    · exact absurd notice.tells (untold notice.mention.name)
    · exact Or.inr isLater
  · rw [left, Option.filter_eq_some_iff] at found
    exact of_decide_eq_true found.2 turn listed

/-- What has been accepted is accepted again without effect, whatever versions are declared. -/
theorem submit_accepted_again (registered : env.registry = .standard)
    (laterRegistered : later.registry = .standard) (disputed : store.Disputed)
    (once : (submission.mentions.map Mention.name).Nodup)
    (unambiguous : submission.Unambiguous) {applied : List AppliedStory}
    (accepted : env.submit submission store = (.ok applied, after))
    (same : again.unbased = submission.unbased) :
    ∃ reapplied, later.submit again after = (.ok reapplied, after) ∧
      ∀ story ∈ reapplied, story.IsNoop := by
  obtain ⟨answers, judged, judges, quiet, done⟩ := (submit_eq_ok registered).mp accepted
  have judgedDisputed := inTurn_take_disputed registered disputed judges.taken
  have afterDisputed : after.Disputed := by
    have trail := env.submit_trail submission store
    rw [registered, accepted] at trail
    exact disputed.along trail
  have scope : again.scope = submission.scope := (congrArg Submission.scope same :)
  have rests : ∀ mention ∈ again.mentions, mention.Rests after := by
    intro mention listed
    obtain ⟨other, otherListed, alike⟩ := Submission.mentioned_again same listed
    rw [← Mention.rests_unbased, ← alike, Mention.rests_unbased]
    exact ⟨judges.accepted other otherListed,
      applyStories_link registered unambiguous otherListed judgedDisputed.rows done,
      applyStories_settle registered once otherListed judgedDisputed.rows done⟩
  have left : ∀ turn ∈ again.turns, ∀ key conflict, after.conflicts.get? key = some conflict →
      turn.Leaves again.scope conflict := by
    intro turn listed key conflict found
    obtain ⟨other, otherListed, alike⟩ := Submission.turn_again same listed
    rw [scope, ← Turn.leaves_unbased, ← alike, Turn.leaves_unbased]
    rw [applyStories_conflicts registered judgedDisputed.rows done] at found
    exact judges.leaves_pending registered disputed once otherListed
      (judges.untold_of_quiet registered disputed quiet other otherListed) found
  obtain ⟨nothing, judgesAgain, none⟩ :=
    take_settled_again laterRegistered afterDisputed rests left
  have owners : ∀ bundle ∈ again.stories, ∀ item ∈ bundle.items,
      after.owners item.id itemRelation = [bundle.id] := by
    intro bundle sent item listed
    obtain ⟨other, otherSent, sameStory, former, formerListed, sameItem⟩ :=
      Submission.item_again same sent listed
    rw [← sameStory, ← sameItem]
    exact applyStories_owners registered once otherSent formerListed judgedDisputed.rows done
  obtain ⟨reapplied, doneAgain, noops⟩ := applyStories_again laterRegistered afterDisputed.rows
    (fun bundle sent mention listed => rests mention (Submission.mem_mentions sent listed)) owners
  exact ⟨reapplied, (submit_eq_ok laterRegistered).mpr
    ⟨nothing, after, judgesAgain, none, doneAgain⟩, noops⟩

/-! ## After a submission that was rejected -/

/-- A turn that was taken is taken again, with the same answer and without effect, where all turns
have led. -/
theorem Judges.take_again {answers : List (Option ConflictSummary)} {judged : Store}
    (judges : env.Judges submission store answers judged) (registered : env.registry = .standard)
    (laterRegistered : later.registry = .standard) (since : env.now ≤ later.now)
    (disputed : store.Disputed) (once : (submission.mentions.map Mention.name).Nodup)
    {turn : Turn} {earlier rest : List Turn} {before next : Store}
    {firsts others : List (Option ConflictSummary)} {answer : Option ConflictSummary}
    (split : submission.turns = earlier ++ turn :: rest)
    (start : inTurn (env.take submission.scope) earlier store = .ok (firsts, before))
    (taken : env.take submission.scope turn before = .ok (answer, next))
    (last : inTurn (env.take submission.scope) rest next = .ok (others, judged)) :
    later.take submission.scope turn judged = .ok (answer, judged) := by
  have listed : turn ∈ submission.turns := by
    rw [split]
    exact List.mem_append_right _ List.mem_cons_self
  have accepted := judges.turns_accepted turn listed
  have judgedDisputed := inTurn_take_disputed registered disputed judges.taken
  have kept := inTurn_take_keepsRecords judges.taken
  cases told : turn.told? store with
  | none =>
      have keptBefore := inTurn_take_keepsRecords start
      obtain ⟨fits, rfl, _⟩ := (take_quiet registered (inTurn_take_disputed registered disputed start)
        accepted ((keptBefore.told?_eq turn).trans told)).mp taken
      have untold : ∀ name, ¬ turn.Tells store name := by
        intro name tells
        obtain ⟨bundle, mention, row, rfl, diverges, _⟩ := Turn.tells_iff.mp tells
        cases told.symm.trans diverges
      refine (take_quiet laterRegistered judgedDisputed accepted
        ((kept.told?_eq turn).trans told)).mpr
          ⟨kept.fits_iff.mpr (keptBefore.fits_iff.mp fits), rfl, ?_⟩
      refine (Store.leftBy_eq_self fun key conflict found => ?_).symm
      exact judges.leaves_pending registered disputed once listed untold found
  | some row =>
      cases turn with
      | drop bundle kind => cases told
      | judge bundle mention =>
          obtain ⟨notice, rfl, rfl, _, _, rfl⟩ :=
            Notice.of_told registered disputed judges.turns_accepted split start told taken last
          have started : ¬ later.now < 0 := by
            have first := notice.started
            rw [Int64.lt_iff_toInt_lt] at first ⊢
            rw [Int64.le_iff_toInt_le] at since
            omega
          exact take_held laterRegistered started judgedDisputed.rows accepted
            ((kept.divergent?_eq _).trans notice.told) notice.kind
            (notice.pending registered disputed judges.turns_accepted once) notice.notes.holds

/-- What has been rejected is rejected again for the same conflicts, and nothing changes. -/
theorem submit_rejected_again (registered : env.registry = .standard)
    (laterRegistered : later.registry = .standard) (since : env.now ≤ later.now)
    (disputed : store.Disputed) (once : (submission.mentions.map Mention.name).Nodup)
    {conflicts : List ConflictSummary}
    (rejected : env.submit submission store = (.error (.conflicting conflicts), after)) :
    later.submit submission after = (.error (.conflicting conflicts), after) := by
  obtain ⟨told, answers, judges, same⟩ := (submit_eq_conflicting registered).mp rejected
  refine (submit_eq_conflicting laterRegistered).mpr
    ⟨told, answers, ⟨judges.accepted, inTurn_again judges.taken ?_⟩, same⟩
  intro earlier turn rest before next firsts answer others split start taken last
  exact judges.take_again registered laterRegistered since disputed once split start taken last

/-! ## Any submission -/

/-- A submission that is sent again at any later time changes nothing, unless the first was refused
for another cause than conflicts. If it was accepted, it is accepted without effect, whatever
versions are declared this time; if it was rejected, it is rejected for the same conflicts. -/
theorem submit_again (registered : env.registry = .standard)
    (laterRegistered : later.registry = .standard) (since : env.now ≤ later.now)
    (reachable : Reachable .standard store)
    (once : (submission.mentions.map Mention.name).Nodup)
    (unambiguous : submission.Unambiguous) :
    (∀ applied, env.submit submission store = (.ok applied, after) →
      ∀ again : Submission, again.unbased = submission.unbased →
        ∃ reapplied, later.submit again after = (.ok reapplied, after) ∧
          ∀ story ∈ reapplied, story.IsNoop) ∧
    (∀ conflicts, env.submit submission store = (.error (.conflicting conflicts), after) →
      later.submit submission after = (.error (.conflicting conflicts), after)) := by
  have disputed := (Trail.of_run reachable).disputed
  constructor
  · intro applied accepted again same
    exact submit_accepted_again registered laterRegistered disputed once unambiguous accepted same
  · intro conflicts rejected
    exact submit_rejected_again registered laterRegistered since disputed once rejected

end Env

/-- An item that has moved to another story stays there, and a tag that was refused its name is
refused it again. -/
theorem submit_again_refiling :
    Reachable .standard .withFiledItem ∧ Reachable .standard .withRenamedTag ∧
    (∃ applied reapplied,
      (Env.submit ⟨.standard, 3, 0⟩ .refiling .withFiledItem).1 = .ok applied ∧
      Env.submit ⟨.standard, 7, 1⟩ Submission.refiling.unbased
          (Env.submit ⟨.standard, 3, 0⟩ .refiling .withFiledItem).2 =
        (.ok reapplied, (Env.submit ⟨.standard, 3, 0⟩ .refiling .withFiledItem).2) ∧
      ∀ story ∈ reapplied, story.IsNoop) ∧
    ∃ conflicts,
      (Env.submit ⟨.standard, 3, 0⟩ (.naming [(1, "other")]) .withRenamedTag).1 =
        .error (.conflicting conflicts) ∧
      Env.submit ⟨.standard, 7, 1⟩ (.naming [(1, "other")])
          (Env.submit ⟨.standard, 3, 0⟩ (.naming [(1, "other")]) .withRenamedTag).2 =
        (.error (.conflicting conflicts),
          (Env.submit ⟨.standard, 3, 0⟩ (.naming [(1, "other")]) .withRenamedTag).2) := by
  have filed : Reachable .standard .withFiledItem := reachable_following ⟨.standard, 3, 0⟩ _
  have renamed : Reachable .standard .withRenamedTag := reachable_following ⟨.standard, 3, 0⟩ _
  have since : (Env.mk .standard 3 0).now ≤ (Env.mk .standard 7 1).now := by decide
  have carried : (Env.submit ⟨.standard, 3, 0⟩ .refiling .withFiledItem).1.isOk = true := by
    decide +kernel
  have reports : Env.Reports ⟨.standard, 3, 0⟩ (.naming [(1, "other")]) .withRenamedTag
      (.attr, ⟨⟨1⟩⟩) := by decide +kernel
  obtain ⟨applied, accepted⟩ := exists_applied_of_isOk carried
  obtain ⟨conflicts, rejected, _⟩ := reports
  obtain ⟨reapplied, again, noops⟩ := (Env.submit_again rfl rfl since filed (by decide)
    (by decide)).1 applied (Prod.ext accepted rfl) Submission.refiling.unbased rfl
  exact ⟨filed, renamed, ⟨applied, reapplied, accepted, again, noops⟩, conflicts, rejected,
    (Env.submit_again rfl rfl since renamed (by decide) (by decide)).2 conflicts
      (Prod.ext rejected rfl)⟩

end Chronicle
