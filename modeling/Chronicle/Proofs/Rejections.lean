import Chronicle.Proofs.Rereading
import Chronicle.Proofs.Resubmission
import Chronicle.Proofs.Statuses
import Chronicle.Proofs.Verbatim

/-!
# Pushes that are rejected again

Once a submission has been rejected, what is pending under its scope for a record that it names is
what it reports (`Env.Judges.mem_reports_iff`). So a second submission of the same records that is
rejected too leaves the pending conflicts alone exactly if it reports the same
(`Env.Judges.unchanged_iff`). A push that is repeated does not always: an attribute without an
identifier that is not linked yet gets a new one each time, and what was reported of its owner or its
story is then reported in other words (`Env.push_rejected_again`).
-/

namespace Chronicle

open Descriptor (standard)

/-! ## Reports -/

/-- What a submission tells of a record that diverges, as far as it is compared with what is
pending. -/
structure Report where
  record : Kind × EntityId
  digest : Digest
  parent : Option Parent
  deriving DecidableEq

/-- What a turn reports. -/
def Turn.report? (store : Store) : Turn → Option Report
  | .judge bundle mention => (mention.divergent? store).map fun _ =>
      ⟨mention.name, (standard mention.kind).digest mention.sent.content,
        bundle.parentFor mention.kind⟩
  | .drop _ _ => none

/-- What a submission reports. -/
def Submission.reports (submission : Submission) (store : Store) : List Report :=
  submission.turns.filterMap (Turn.report? store)

theorem Submission.mem_reports {submission : Submission} {store : Store} {report : Report} :
    report ∈ submission.reports store ↔ ∃ bundle ∈ submission.stories, ∃ mention ∈ bundle.judged,
      ∃ row, mention.divergent? store = some row ∧ report =
        ⟨mention.name, (standard mention.kind).digest mention.sent.content,
          bundle.parentFor mention.kind⟩ := by
  rw [reports, List.mem_filterMap]
  constructor
  · rintro ⟨turn, listed, told⟩
    cases turn with
    | drop bundle kind => cases told
    | judge bundle mention =>
        obtain ⟨sent, judged⟩ := Submission.judge_mem_turns.mp listed
        obtain ⟨row, diverges, rfl⟩ := Option.map_eq_some_iff.mp told
        exact ⟨bundle, sent, mention, judged, row, diverges, rfl⟩
  · rintro ⟨bundle, sent, mention, judged, row, diverges, rfl⟩
    refine ⟨.judge bundle mention, Submission.judge_mem_turns.mpr ⟨sent, judged⟩, ?_⟩
    rw [Turn.report?, diverges]
    rfl

theorem Store.KeepsRecords.reports_eq {store other : Store} (kept : store.KeepsRecords other)
    (submission : Submission) : submission.reports other = submission.reports store := by
  refine congrArg (fun report => submission.turns.filterMap report) (funext fun turn => ?_)
  cases turn with
  | judge bundle mention => rw [Turn.report?, Turn.report?, kept.divergent?_eq]
  | drop bundle kind => rfl

/-- The report that a conflict answers to. -/
def Conflict.report (conflict : Conflict) : Report :=
  ⟨conflict.name, conflict.digest, conflict.parent⟩

namespace Env

variable {env later : Env} {submission again : Submission} {store judged : Store}
  {answers : List (Option ConflictSummary)}

namespace Judges

variable (judges : env.Judges submission store answers judged)
  (registered : env.registry = .standard) (disputed : store.Disputed)
  (once : (submission.mentions.map Mention.name).Nodup)

include judges registered disputed once

/-- A mention that diverges has its conflict noticed. -/
theorem exists_notice_of_divergent {bundle : StoryBundle} (sent : bundle ∈ submission.stories)
    {mention : Mention} (named : mention ∈ bundle.judged) {row : EntityRow}
    (told : mention.divergent? store = some row) :
    ∃ notice : env.Notice submission store judged,
      notice.bundle = bundle ∧ notice.mention = mention ∧
        judged.conflicts.get? mention.name = some notice.next := by
  have listed := Submission.judge_mem_turns.mpr ⟨sent, named⟩
  obtain ⟨earlier, later, before, between, firsts, answer, others, split, start, taken, rest, _⟩ :=
    inTurn_around judges.taken listed
  obtain ⟨notice, rfl, rfl, _⟩ := Notice.of_told registered disputed judges.turns_accepted split
    start told taken rest
  exact ⟨notice, rfl, rfl, notice.pending registered disputed judges.turns_accepted once⟩

/-- What is pending under the scope of a submission, for a record that this names, is what it
reports. -/
theorem mem_reports_iff {report : Report} :
    report ∈ submission.reports store ↔
      report.record ∈ submission.mentions.map Mention.name ∧
      ∃ conflict, judged.conflicts.get? report.record = some conflict ∧
        conflict.scope = submission.scope ∧ conflict.report = report := by
  constructor
  · intro reported
    obtain ⟨bundle, sent, mention, named, row, told, rfl⟩ := Submission.mem_reports.mp reported
    obtain ⟨notice, rfl, rfl, pending⟩ :=
      judges.exists_notice_of_divergent registered disputed once sent named told
    obtain ⟨digest, parent, scope⟩ := Conflict.holds_iff.mp notice.notes.holds
    refine ⟨List.mem_map_of_mem (Submission.mem_mentions sent
      (StoryBundle.mem_mentions_of_judged named)), notice.next, pending, scope, ?_⟩
    rw [Conflict.report, notice.notes.name_eq, digest, parent]
  · rintro ⟨listed, conflict, pending, own, rfl⟩
    obtain ⟨mention, mentioned, named⟩ := List.mem_map.mp listed
    rw [← Submission.judged_eq_mentions once, Submission.judged, List.mem_flatMap] at mentioned
    obtain ⟨bundle, sent, isJudged⟩ := mentioned
    have inTurns := Submission.judge_mem_turns.mpr ⟨sent, isJudged⟩
    cases told : mention.divergent? store with
    | some row =>
        obtain ⟨notice, rfl, rfl, noticed⟩ :=
          judges.exists_notice_of_divergent registered disputed once sent isJudged told
        rw [named, show judged.conflicts.get? conflict.report.record = some conflict from pending]
          at noticed
        cases noticed
        obtain ⟨digest, parent, _⟩ := Conflict.holds_iff.mp notice.notes.holds
        refine Submission.mem_reports.mpr ⟨notice.bundle, sent, notice.mention, isJudged, row, told, ?_⟩
        rw [Conflict.report, notice.notes.name_eq, digest, parent]
    | none =>
        -- a turn that notices nothing withdraws what is pending under the scope
        have untold : ∀ name, ¬ (Turn.judge bundle mention).Tells store name := by
          intro name tells
          obtain ⟨_, _, row, same, diverges, _⟩ := Turn.tells_iff.mp tells
          cases same
          cases told.symm.trans diverges
        exact absurd own (judges.leaves_pending registered disputed once inTurns untold pending
          named)

/-- What is held already stays as it is when it is reported again. -/
theorem keeps_held {bundle : StoryBundle} (sent : bundle ∈ submission.stories) {mention : Mention}
    (named : mention ∈ bundle.judged) {row : EntityRow}
    (told : mention.divergent? store = some row) {pending : Conflict}
    (found : store.conflicts.get? mention.name = some pending)
    (held : pending.holds submission.scope ((standard mention.kind).digest mention.sent.content)
      (bundle.parentFor mention.kind) = true) :
    judged.conflicts.get? mention.name = some pending := by
  obtain ⟨notice, rfl, rfl, noticed⟩ :=
    judges.exists_notice_of_divergent registered disputed once sent named told
  obtain ⟨_, parent, _⟩ := Conflict.holds_iff.mp held
  have stays : ¬ submission.WithdrawsFirst pending := by
    refine Submission.not_withdrawsFirst once sent (StoryBundle.mem_mentions_of_judged named)
      (disputed.sound.name_eq found).symm fun story sentWith => ?_
    rw [parent] at sentWith
    obtain ⟨given, sentParent, rfl⟩ := Option.map_eq_some_iff.mp sentWith
    rw [StoryBundle.parentFor_story sentParent]
  rw [noticed, notice.next_eq registered disputed judges.turns_accepted once found stays,
    Conflict.noticed, if_pos held]

end Judges

end Env

/-! ## Submissions of the same records -/

/-- Lists that correspond item by item both have an item of some sort, or neither has. -/
theorem exists_mem_congr {α β : Type} {Corresponds : α → β → Prop} {first : List α}
    {again : List β} (same : List.Forall₂ Corresponds first again) {P : α → Prop}
    {Q : β → Prop} (each : ∀ item other, Corresponds item other → (P item ↔ Q other)) :
    (∃ item ∈ first, P item) ↔ ∃ other ∈ again, Q other := by
  induction same with
  | nil => simp
  | cons corresponds _ ih =>
      rw [List.exists_mem_cons_iff, List.exists_mem_cons_iff, each _ _ corresponds, ih]

section Redrawn

variable {base : Store} {id : EntityId} {row : EntityRow} (found : base.row? id = some row)

include found

theorem Store.SameRecord.mem_iff {first again : List EntityId}
    (same : List.Forall₂ base.SameRecord first again) : id ∈ first ↔ id ∈ again := by
  have each (item other : EntityId) (same : base.SameRecord item other) :
      item = id ↔ other = id := by
    rcases same with rfl | ⟨itemNone, otherNone⟩
    · exact Iff.rfl
    · constructor
      · rintro rfl
        cases itemNone.symm.trans found
      · rintro rfl
        cases otherNone.symm.trans found
  have both := exists_mem_congr same each
  simpa using both

/-- A record that is stored is named by both stories or by neither. -/
theorem StoryBundle.Redrawn.named_iff {first again : StoryBundle} (redrawn : first.Redrawn base again)
    (kind : Kind) :
    (kind, id) ∈ first.mentions.map Mention.name ↔ (kind, id) ∈ again.mentions.map Mention.name := by
  by_cases isStory : kind = .story
  · subst isStory
    have named (bundle : StoryBundle) :
        (Kind.story, id) ∈ bundle.mentions.map Mention.name ↔ id = bundle.id := by
      simp [mentions, Mention.name, sent]
    rw [named, named, redrawn.id_eq]
  · rw [← mem_memberIds_iff isStory, ← mem_memberIds_iff isStory,
      Store.SameRecord.mem_iff found (redrawn.members kind)]

namespace Submission.Redrawn

variable {first again : Submission} (redrawn : first.Redrawn base again)

include redrawn

theorem named_iff (kind : Kind) :
    (kind, id) ∈ first.mentions.map Mention.name ↔ (kind, id) ∈ again.mentions.map Mention.name := by
  have named (submission : Submission) :
      (kind, id) ∈ submission.mentions.map Mention.name ↔
        ∃ bundle ∈ submission.stories, (kind, id) ∈ bundle.mentions.map Mention.name := by
    rw [mentions, List.map_flatMap, List.mem_flatMap]
  rw [named, named]
  exact exists_mem_congr redrawn.stories fun _ _ story => story.named_iff found kind

/-- A conflict of a stored record that is left by all turns of one submission is left by those of
the other. -/
theorem leaves (once : (first.mentions.map Mention.name).Nodup) {conflict : Conflict}
    (about : conflict.entity = id)
    (left : ∀ turn ∈ first.turns, turn.Leaves first.scope conflict) :
    ∀ turn ∈ again.turns, turn.Leaves again.scope conflict := by
  intro turn listed
  by_contra removes
  obtain ⟨own, removed⟩ := Turn.not_leaves listed removes
  have own := own.trans redrawn.scope_eq
  have name : conflict.name = (conflict.kind, id) := congrArg (Prod.mk conflict.kind) about
  rw [name] at removed
  rcases removed with named | ⟨member, bundle⟩
  · rw [← redrawn.named_iff found, ← name] at named
    obtain ⟨mention, mentioned, named⟩ := List.mem_map.mp named
    rw [← judged_eq_mentions once, judged, List.mem_flatMap] at mentioned
    obtain ⟨bundle, sent, isJudged⟩ := mentioned
    exact left _ (judge_mem_turns.mpr ⟨sent, isJudged⟩) named own
  · have dropped (first again : StoryBundle) (story : first.Redrawn base again) :
        (conflict.parent.map Parent.story = some first.id ∧
          (conflict.kind, id) ∉ first.mentions.map Mention.name) ↔
        (conflict.parent.map Parent.story = some again.id ∧
          (conflict.kind, id) ∉ again.mentions.map Mention.name) := by
      rw [story.id_eq, story.named_iff found]
    obtain ⟨bundle, sent, sentWith, unnamed⟩ :=
      (exists_mem_congr redrawn.stories dropped).mpr bundle
    have kept := left _ (drop_mem_turns.mpr ⟨sent, member⟩) rfl own sentWith
    rw [StoryBundle.mem_memberIds_iff member, about] at kept
    exact unnamed kept

end Submission.Redrawn

end Redrawn

namespace Env

variable {env later : Env} {submission again : Submission} {store judged other rejudged : Store}
  {answers reanswers : List (Option ConflictSummary)}

/-- What is pending for a record that is not reported has been left by all turns. -/
theorem Judges.left_of_unreported (judges : env.Judges submission store answers judged)
    (registered : env.registry = .standard) (disputed : store.Disputed) {name : Kind × EntityId}
    (unreported : ∀ report ∈ submission.reports store, report.record ≠ name) :
    judged.conflicts.get? name = (store.conflicts.get? name).filter fun conflict =>
      decide (∀ turn ∈ submission.turns, turn.Leaves submission.scope conflict) := by
  refine inTurn_untold registered disputed judges.turns_accepted ?_ judges.taken
  intro turn listed tells
  obtain ⟨bundle, mention, row, rfl, told, rfl⟩ := Turn.tells_iff.mp tells
  obtain ⟨sent, isJudged⟩ := Submission.judge_mem_turns.mp listed
  exact unreported _ (Submission.mem_reports.mpr ⟨bundle, sent, mention, isJudged, row, told, rfl⟩)
    rfl

/-- What is judged twice, but for attributes that were new both times, leaves the pending conflicts
alone the second time exactly if it reports the same as the first time. -/
theorem Judges.unchanged_iff (judges : env.Judges submission store answers judged)
    (rejudges : later.Judges again other reanswers rejudged)
    (registered : env.registry = .standard) (laterRegistered : later.registry = .standard)
    (disputed : store.Disputed) (otherDisputed : other.Disputed) (kept : store.KeepsRecords other)
    (pending : other.conflicts = judged.conflicts)
    (once : (submission.mentions.map Mention.name).Nodup)
    (onceAgain : (again.mentions.map Mention.name).Nodup)
    (redrawn : submission.Redrawn store again) :
    rejudged.conflicts = other.conflicts ↔
      ∀ report, report ∈ submission.reports store ↔ report ∈ again.reports other := by
  have stored {name : Kind × EntityId} {conflict : Conflict}
      (found : judged.conflicts.get? name = some conflict) : ∃ row, store.row? name.2 = some row := by
    rw [← pending] at found
    obtain ⟨row, rowFound, _⟩ := otherDisputed.sound.owned name conflict found
    exact ⟨row, (kept.row?_eq _).symm.trans rowFound⟩
  constructor
  · intro same report
    rw [judges.mem_reports_iff registered disputed once,
      rejudges.mem_reports_iff laterRegistered otherDisputed onceAgain, same, pending,
      redrawn.scope_eq]
    constructor
    · rintro ⟨named, conflict, found, held⟩
      obtain ⟨row, rowFound⟩ := stored found
      exact ⟨(redrawn.named_iff rowFound _).mp named, conflict, found, held⟩
    · rintro ⟨named, conflict, found, held⟩
      obtain ⟨row, rowFound⟩ := stored found
      exact ⟨(redrawn.named_iff rowFound _).mpr named, conflict, found, held⟩
  · intro same
    rw [pending]
    refine Dict.ext_get? fun name => ?_
    by_cases reported : ∃ report ∈ again.reports other, report.record = name
    · obtain ⟨report, reportedAgain, rfl⟩ := reported
      -- the conflict holds what is reported again
      obtain ⟨_, conflict, found, own, held⟩ :=
        (judges.mem_reports_iff registered disputed once).mp ((same report).mpr reportedAgain)
      obtain ⟨bundle, sent, mention, isJudged, row, told, rfl⟩ :=
        Submission.mem_reports.mp reportedAgain
      obtain ⟨_, digest, parent⟩ := Report.mk.inj held
      have holds := Conflict.holds_iff.mpr ⟨digest, parent, own.trans redrawn.scope_eq.symm⟩
      rw [found]
      refine rejudges.keeps_held laterRegistered otherDisputed onceAgain sent isJudged told ?_ holds
      rw [pending]
      exact found
    · have unreported : ∀ report ∈ again.reports other, report.record ≠ name :=
        fun report listed named => reported ⟨report, listed, named⟩
      have first := judges.left_of_unreported registered disputed
        fun report listed => unreported report ((same report).mp listed)
      rw [rejudges.left_of_unreported laterRegistered otherDisputed unreported, pending]
      cases found : judged.conflicts.get? name with
      | none => rfl
      | some conflict =>
          obtain ⟨row, rowFound⟩ := stored found
          have about : conflict.entity = name.2 := by
            rw [← pending] at found
            exact (otherDisputed.sound.keyed name conflict found).2
          rw [found] at first
          have left := of_decide_eq_true (Option.filter_eq_some_iff.mp first.symm).2
          rw [Option.filter, if_pos (decide_eq_true (redrawn.leaves rowFound once about left))]

/-! ## Pushes -/

variable {producer : String} {body : Json} {rejection : Response} {after last : Store}

/-- What a push reports. -/
def reportsOf (env : Env) (producer : String) (body : Json) (store : Store) : List Report :=
  match env.readPush producer body store with
  | .ok (submission, read) => submission.reports read
  | .error _ => []

/-- A push names each record once. -/
def NamesOnce (env : Env) (producer : String) (body : Json) (store : Store) : Prop :=
  ∀ submission read, env.readPush producer body store = .ok (submission, read) →
    (submission.mentions.map Mention.name).Nodup

/-- A push that is rejected has been read, and judged in full. -/
theorem push_rejected (registered : env.registry = .standard) (disputed : store.Disputed)
    (pushed : env.push producer body store = (rejection, after)) (rejected : rejection.status = 409) :
    ∃ submission read answers, env.readPush producer body store = .ok (submission, read) ∧
      env.Judges submission read answers after := by
  obtain ⟨error, unread, refused⟩ | ⟨submission, read, taken, cause⟩ :=
    push_cases registered disputed.rows producer body
  · obtain ⟨fault, rfl⟩ := readPush_onlyBad registered producer body store error unread
    cases pushed.symm.trans refused
    cases rejected
  · obtain ⟨refusal, answer, refused⟩ | ⟨_, _, _, _, accepted⟩ := cause
    · cases pushed.symm.trans refused
      cases refusal with
      | conflicting conflicts =>
          obtain ⟨_, answers, judges, _⟩ :=
            (submit_eq_conflicting registered).mp (Prod.ext answer rfl)
          exact ⟨submission, read, answers, taken, judges⟩
      | _ => cases rejected
    · cases pushed.symm.trans accepted
      cases rejected

/-- A push whose stories and items have identifiers, and that is rejected twice, leaves the listings
of pending conflicts alone the second time exactly if it reports the same as the first time. It does
if nothing had to be drawn for the first; otherwise attributes that are not linked yet have become
other ones. -/
theorem push_rejected_again (registered : env.registry = .standard)
    (laterRegistered : later.registry = .standard) (reachable : Reachable .standard store)
    (spare : store.entities.size < 2 ^ 128) (identified : body.Identified)
    (once : env.NamesOnce producer body store)
    (pushed : env.push producer body store = (rejection, after)) (rejected : rejection.status = 409)
    {rejectionAgain : Response}
    (repushed : later.push producer body after = (rejectionAgain, last))
    (rejectedAgain : rejectionAgain.status = 409) :
    (later.NamesOnce producer body after →
      ((∀ kind, last.conflictsOf kind = after.conflictsOf kind) ↔
        ∀ report, report ∈ env.reportsOf producer body store ↔
          report ∈ later.reportsOf producer body after)) ∧
    ((∀ submission read, env.readPush producer body store = .ok (submission, read) → read = store) →
      ∀ kind, last.conflictsOf kind = after.conflictsOf kind) := by
  have disputed := (Trail.of_run reachable).disputed
  obtain ⟨submission, read, answers, taken, judges⟩ :=
    push_rejected registered disputed pushed rejected
  have draws := (readPush_drawsAhead taken).drawsOnly
  have readDisputed := disputed.along ((readPush_drawsAhead taken).trail .standard)
  have afterDisputed := inTurn_take_disputed registered readDisputed judges.taken
  obtain ⟨resubmission, reread, reanswers, retaken, rejudges⟩ :=
    push_rejected laterRegistered afterDisputed repushed rejectedAgain
  have redraws := (readPush_drawsAhead retaken).drawsOnly
  have rereadDisputed := afterDisputed.along ((readPush_drawsAhead retaken).trail .standard)
  have lastDisputed := inTurn_take_disputed laterRegistered rereadDisputed rejudges.taken
  have kept := inTurn_take_keepsRecords judges.taken
  -- both times the body is read from stores with the records of the first reading
  have sameEntities : read.entities = store.entities := by rw [draws]
  have rereads := @readPush_rereads env read store after later.generator draws.keepsRecords.symm kept
    (by rw [sameEntities]; exact spare) body identified producer
  rw [taken, ← readPush_congr (laterRegistered.trans registered.symm), retaken] at rereads
  cases rereads with
  | carried same =>
      have unchanged := judges.unchanged_iff rejudges registered laterRegistered readDisputed
        rereadDisputed (kept.trans redraws.keepsRecords) (by rw [redraws])
      have listings : last.conflicts = reread.conflicts ↔
          ∀ kind, last.conflictsOf kind = after.conflictsOf kind := by
        rw [← afterDisputed.conflicts_eq_iff lastDisputed, redraws]
      rw [listings] at unchanged
      constructor
      · intro onceAgain
        rw [reportsOf, reportsOf, taken, retaken]
        exact unchanged (once submission read taken) (onceAgain resubmission reread retaken)
          same.corresponds
      · intro undrawn
        have still : resubmission = submission := same.steady (by rw [undrawn submission read taken])
        subst still
        have named := once resubmission read taken
        refine (unchanged named named same.corresponds).mpr fun report => ?_
        rw [(kept.trans redraws.keepsRecords).reports_eq]

end Env

/-- A store with a story that has a tag and was renamed. -/
def Store.withRetitledStory : Store :=
  .following ⟨.standard, 3, 0⟩
    [.commit .attr ⟨⟨1⟩⟩ (some ⟨.ofList [("key", .text "mood")], .empty⟩) ⟨"editor", .direct⟩,
      .commit .story ⟨⟨2⟩⟩ (some ⟨.ofList [("title", .text "draft")],
        .ofList [("attributes", [⟨⟨1⟩⟩])]⟩) ⟨"editor", .direct⟩,
      .commit .story ⟨⟨2⟩⟩ (some ⟨.ofList [("title", .text "final")],
        .ofList [("attributes", [⟨⟨1⟩⟩])]⟩) ⟨"editor", .direct⟩]

/-- The story as it is pushed by who has not seen its new title, with a tag that has no identifier. -/
def Json.retitling (tag : String) : Json :=
  .array [.object [("id", .text "00000000-0000-0000-0000-000000000002"), ("base_version", .int 1),
    ("title", .text "other"), ("attributes", .array [.object [("key", .text tag)]])]]

/-- The tag is the one that the story has, so the second push leaves the conflict alone. -/
theorem push_rejected_again_known_tag :
    Reachable .standard .withRetitledStory ∧
    ∃ rejection after again last,
      Env.push ⟨.standard, 3, 4⟩ "feed" (.retitling "mood") .withRetitledStory = (rejection, after) ∧
      rejection.status = 409 ∧
      Env.push ⟨.standard, 3, 5⟩ "feed" (.retitling "mood") after = (again, last) ∧
      again.status = 409 ∧ ∀ kind, last.conflictsOf kind = after.conflictsOf kind := by
  have reachable : Reachable .standard .withRetitledStory := reachable_following ⟨.standard, 3, 0⟩ _
  obtain ⟨⟨rejection, after⟩, pushed⟩ : ∃ result, Env.push ⟨.standard, 3, 4⟩ "feed"
      (.retitling "mood") .withRetitledStory = result := ⟨_, rfl⟩
  obtain ⟨⟨again, last⟩, repushed⟩ : ∃ result, Env.push ⟨.standard, 3, 5⟩ "feed"
      (.retitling "mood") after = result := ⟨_, rfl⟩
  have rejected : (Env.push ⟨.standard, 3, 4⟩ "feed" (.retitling "mood")
      .withRetitledStory).1.status = 409 := by decide +kernel
  have rejectedAgain : (Env.push ⟨.standard, 3, 5⟩ "feed" (.retitling "mood")
      (Env.push ⟨.standard, 3, 4⟩ "feed" (.retitling "mood") .withRetitledStory).2).1.status = 409 := by
    decide +kernel
  rw [pushed] at rejected rejectedAgain
  rw [repushed] at rejectedAgain
  have read : ∀ submission read, Env.readPush ⟨.standard, 3, 4⟩ "feed" (.retitling "mood")
      .withRetitledStory = .ok (submission, read) →
      (submission.mentions.map Mention.name).Nodup ∧ read = .withRetitledStory := by
    have checked : ((Env.readPush ⟨.standard, 3, 4⟩ "feed" (.retitling "mood")
        .withRetitledStory).toOption.all fun given =>
          decide ((given.1.mentions.map Mention.name).Nodup ∧ given.2 = .withRetitledStory)) = true := by
      decide +kernel
    intro submission read taken
    rw [taken] at checked
    exact of_decide_eq_true checked
  have unchanged := Env.push_rejected_again rfl rfl reachable (by decide +kernel) (by decide)
    (fun submission store taken => (read submission store taken).1) pushed rejected repushed
    rejectedAgain
  exact ⟨reachable, rejection, after, again, last, pushed, rejected, repushed, rejectedAgain,
    unchanged.2 fun submission store taken => (read submission store taken).2⟩

/-- The identifiers that an object gives itself and its attributes. -/
def Json.ownIds (json : Json) : List EntityId :=
  (json.id?.toList ++ (json.listed attributeRelation).filterMap fun entry =>
    if entry.text?.isSome then some entry else entry.id?).filterMap fun id =>
      id.text?.bind EntityId.ofText?

/-- All identifiers that a body gives. -/
def Json.ids (body : Json) : List EntityId :=
  body.stories.flatMap fun story =>
    story.ownIds ++ (story.listed itemRelation).flatMap Json.ownIds

/-- A tag that the story does not have gets another identifier with each push, so it is not true that
a push that is rejected again leaves the listings alone. -/
theorem not_push_rejected_again_unchanged :
    ¬ ∀ (env later : Env) (store : Store) (producer : String) (body : Json)
      (rejection again : Response) (after last : Store),
      env.registry = .standard → later.registry = .standard → env.now ≤ later.now →
      Reachable .standard store → body.Identified → body.ids.Nodup →
      env.push producer body store = (rejection, after) → rejection.status = 409 →
      later.push producer body after = (again, last) → again.status = 409 →
      ∀ kind, last.listConflicts kind = after.listConflicts kind := by
  intro unchanged
  have reachable : Reachable .standard .withRetitledStory := reachable_following ⟨.standard, 3, 0⟩ _
  have rejected : (Env.push ⟨.standard, 3, 4⟩ "feed" (.retitling "tone")
      .withRetitledStory).1.status = 409 := by decide +kernel
  have rejectedAgain : (Env.push ⟨.standard, 3, 5⟩ "feed" (.retitling "tone")
      (Env.push ⟨.standard, 3, 4⟩ "feed" (.retitling "tone") .withRetitledStory).2).1.status =
        409 := by decide +kernel
  have same := unchanged ⟨.standard, 3, 4⟩ ⟨.standard, 3, 5⟩ .withRetitledStory "feed"
    (.retitling "tone") _ _ _ _ rfl rfl (by decide) reachable (by decide) (by decide +kernel)
    (Prod.eta _).symm rejected (Prod.eta _).symm rejectedAgain .story
  have times := congrArg (fun response : Response => (response.body.listed "conflicts").map
    fun conflict => (conflict.object?.bind fun members => members.get? "updated_at").bind
      Json.int64?) same
  revert times
  decide +kernel

end Chronicle
