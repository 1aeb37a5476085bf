import Chronicle.Proofs.Acceptance
import Chronicle.Proofs.Telling

/-!
# Where a conflict is noticed

A conflict that is told was noticed by one turn, with other turns before it and after it
(`Env.Notice`). In a submission that names each record once no other turn is about that record,
and none of them removes what was noticed, so it is pending when all turns have been taken
(`Env.Notice.pending`).
-/

namespace Chronicle

open Descriptor (standard)

/-! ## Turns of a submission that names each record once -/

theorem StoryBundle.mem_memberIds_iff {bundle : StoryBundle} {kind : Kind} (member : kind ≠ .story)
    {id : EntityId} :
    id ∈ bundle.memberIds kind ↔ (kind, id) ∈ bundle.mentions.map Mention.name := by
  cases kind with
  | story => exact absurd rfl member
  | newsItem => simp [memberIds, mentions, Mention.name]
  | attr => simp [memberIds, mentions, Mention.name]

theorem StoryBundle.mem_mentions_of_judged {bundle : StoryBundle} {mention : Mention}
    (judged : mention ∈ bundle.judged) : mention ∈ bundle.mentions := by
  simp only [StoryBundle.judged, mentions, List.mem_cons, List.mem_append, List.mem_map] at judged ⊢
  rcases judged with story | item | ⟨sent, first, rfl⟩
  · exact Or.inl story
  · exact Or.inr (Or.inl item)
  · exact Or.inr (Or.inr ⟨sent, Bundle.mem_firsts first, rfl⟩)

namespace Submission

variable {submission : Submission}

theorem turns_accepted
    (accepted : ∀ mention ∈ submission.mentions,
      (standard mention.kind).check mention.sent.content = .ok ()) :
    ∀ turn ∈ submission.turns, turn.Accepted := by
  intro turn listed
  cases turn with
  | judge bundle mention =>
      obtain ⟨sent, judged⟩ := judge_mem_turns.mp listed
      exact accepted mention (mem_mentions sent (StoryBundle.mem_mentions_of_judged judged))
  | drop bundle kind => trivial

variable {earlier later : List Turn} {bundle : StoryBundle} {mention : Mention}

theorem judged_at (split : submission.turns = earlier ++ .judge bundle mention :: later) :
    bundle ∈ submission.stories ∧ mention ∈ bundle.judged := by
  rw [← judge_mem_turns, split]
  exact List.mem_append_right _ List.mem_cons_self

/-- The record that a turn judges is judged by no other. -/
theorem name_ne_elsewhere (once : (submission.mentions.map Mention.name).Nodup)
    (split : submission.turns = earlier ++ .judge bundle mention :: later) {turn : Turn}
    (elsewhere : turn ∈ earlier ∨ turn ∈ later) {other : Mention}
    (judges : turn.mention? = some other) : other.name ≠ mention.name := by
  have names := submission.turns_mentions
  rw [judged_eq_mentions once, split, List.filterMap_append,
    List.filterMap_cons_some (f := Turn.mention?) (b := mention) rfl] at names
  rw [← names, List.map_append, List.map_cons, List.nodup_middle] at once
  intro same
  refine (List.nodup_cons.mp once).1 ?_
  rw [← same, ← List.map_append, ← List.filterMap_append]
  exact List.mem_map.mpr ⟨other, List.mem_filterMap.mpr ⟨turn, List.mem_append.mpr elsewhere, judges⟩,
    rfl⟩

theorem not_tells_elsewhere (once : (submission.mentions.map Mention.name).Nodup)
    (split : submission.turns = earlier ++ .judge bundle mention :: later) {turn : Turn}
    (elsewhere : turn ∈ earlier ∨ turn ∈ later) {store : Store} :
    ¬ turn.Tells store mention.name := by
  intro tells
  obtain ⟨_, _, _, rfl, _, named⟩ := Turn.tells_iff.mp tells
  exact name_ne_elsewhere once split elsewhere rfl named

/-- What is noticed for a mention is left by all other turns. -/
theorem leaves_elsewhere (once : (submission.mentions.map Mention.name).Nodup)
    (split : submission.turns = earlier ++ .judge bundle mention :: later) {scope : Scope}
    {conflict : Conflict} (named : conflict.name = mention.name)
    (sentWith : conflict.parent = bundle.parentFor mention.kind) {turn : Turn}
    (elsewhere : turn ∈ earlier ∨ turn ∈ later) : turn.Leaves scope conflict := by
  cases turn with
  | judge other judged =>
      intro same
      exact absurd (same.trans named) (name_ne_elsewhere once split elsewhere rfl)
  | drop other kind =>
      rintro rfl _ ownStory
      have dropListed : Turn.drop other conflict.kind ∈ submission.turns := by
        rw [split, List.mem_append, List.mem_cons]
        exact elsewhere.imp id Or.inr
      obtain ⟨sent, judged⟩ := judged_at split
      obtain ⟨otherSent, member⟩ := drop_mem_turns.mp dropListed
      obtain ⟨parent, given, story⟩ := Option.map_eq_some_iff.mp ownStory
      rw [sentWith] at given
      cases StoryBundle.parentFor_story given
      -- the conflict came with this very story, which is sent with the record
      have stories : bundle = other := story_eq_of_name once sent otherSent List.mem_cons_self
        List.mem_cons_self (Prod.ext rfl story)
      subst stories
      rw [StoryBundle.mem_memberIds_iff member]
      exact List.mem_map.mpr ⟨mention, StoryBundle.mem_mentions_of_judged judged, named.symm⟩

end Submission

/-! ## The turn that notices a conflict -/

/-- The record that a producer is told about. -/
def ConflictSummary.name (summary : ConflictSummary) : Kind × EntityId :=
  (summary.kind, summary.entity)

namespace Env

/-- A turn that notices a conflict, between the turns before it and those after it. -/
structure Notice (env : Env) (submission : Submission) (store judged : Store) where
  earlier : List Turn
  bundle : StoryBundle
  mention : Mention
  later : List Turn
  split : submission.turns = earlier ++ .judge bundle mention :: later
  /-- What the earlier turns tell. -/
  firsts : List (Option ConflictSummary)
  before : Store
  start : inTurn (env.take submission.scope) earlier store = .ok (firsts, before)
  row : EntityRow
  told : mention.divergent? store = some row
  kind : row.kind = mention.kind
  started : ¬ env.now < 0
  next : Conflict
  between : Store
  taken : env.take submission.scope (.judge bundle mention) before =
    .ok (some (next.summary (row.record mention.sent.id)), between)
  notes : before.Notes env.now submission.scope bundle mention row next between
  /-- What the later turns tell. -/
  others : List (Option ConflictSummary)
  rest : inTurn (env.take submission.scope) later between = .ok (others, judged)

variable {env : Env} {submission : Submission} {store judged : Store}
  {answers : List (Option ConflictSummary)}

namespace Notice

/-- What the producer is told. -/
def summary (notice : env.Notice submission store judged) : ConflictSummary :=
  notice.next.summary (notice.row.record notice.mention.sent.id)

theorem summary_name (notice : env.Notice submission store judged) :
    notice.summary.name = notice.mention.name := notice.notes.name_eq

theorem tells (notice : env.Notice submission store judged) :
    (Turn.judge notice.bundle notice.mention).Tells store notice.mention.name :=
  Turn.tells_iff.mpr ⟨notice.bundle, notice.mention, notice.row, rfl, notice.told, rfl⟩

theorem listed (notice : env.Notice submission store judged) :
    Turn.judge notice.bundle notice.mention ∈ submission.turns :=
  Submission.judge_mem_turns.mpr (Submission.judged_at notice.split)

/-- A turn whose mention diverges notices its conflict. -/
theorem of_told (registered : env.registry = .standard) (disputed : store.Disputed)
    (accepted : ∀ turn ∈ submission.turns, turn.Accepted) {earlier later : List Turn} {bundle : StoryBundle} {mention : Mention}
    (split : submission.turns = earlier ++ .judge bundle mention :: later)
    {firsts others : List (Option ConflictSummary)} {before between : Store}
    (start : inTurn (env.take submission.scope) earlier store = .ok (firsts, before))
    {row : EntityRow} (told : mention.divergent? store = some row)
    {answer : Option ConflictSummary}
    (taken : env.take submission.scope (.judge bundle mention) before = .ok (answer, between))
    (rest : inTurn (env.take submission.scope) later between = .ok (others, judged)) :
    ∃ notice : env.Notice submission store judged, notice.bundle = bundle ∧
      notice.mention = mention ∧ notice.firsts = firsts ∧ notice.others = others ∧
      answer = some notice.summary := by
  have listed := Submission.judge_mem_turns.mpr (Submission.judged_at split)
  have toldBefore : mention.divergent? before = some row := by
    rw [(inTurn_take_keepsRecords start).divergent?_eq, told]
  obtain ⟨kind, started, next, rfl, notes⟩ := take_told registered
    (inTurn_take_disputed registered disputed start) (accepted _ listed)
    toldBefore taken
  exact ⟨⟨earlier, bundle, mention, later, split, firsts, before, start, row, told, kind, started,
    next, between, taken, notes, others, rest⟩, rfl, rfl, rfl, rfl, rfl⟩

variable (notice : env.Notice submission store judged)

theorem between_keepsRecords : store.KeepsRecords notice.between :=
  (inTurn_take_keepsRecords notice.start).trans (take_keepsRecords notice.taken)

theorem between_disputed (registered : env.registry = .standard) (disputed : store.Disputed) :
    notice.between.Disputed :=
  take_disputed registered (inTurn_take_disputed registered disputed notice.start) notice.taken

theorem accepted_elsewhere (accepted : ∀ turn ∈ submission.turns, turn.Accepted) :
    (∀ turn ∈ notice.earlier, turn.Accepted) ∧ ∀ turn ∈ notice.later, turn.Accepted := by
  rw [notice.split, List.forall_mem_append, List.forall_mem_cons] at accepted
  exact ⟨accepted.1, accepted.2.2⟩

/-- Up to the turn that notices it, the conflict that was pending is left or removed. -/
theorem before_eq (registered : env.registry = .standard) (disputed : store.Disputed)
    (accepted : ∀ turn ∈ submission.turns, turn.Accepted)
    (once : (submission.mentions.map Mention.name).Nodup) :
    notice.before.conflicts.get? notice.mention.name =
      (store.conflicts.get? notice.mention.name).filter fun conflict =>
        decide (∀ turn ∈ notice.earlier, turn.Leaves submission.scope conflict) :=
  inTurn_untold registered disputed (notice.accepted_elsewhere accepted).1
    (fun _ listed => Submission.not_tells_elsewhere once notice.split (Or.inl listed)) notice.start

/-- What is noticed is left by all other turns. -/
theorem leaves_elsewhere (once : (submission.mentions.map Mention.name).Nodup) {turn : Turn}
    (elsewhere : turn ∈ notice.earlier ∨ turn ∈ notice.later) :
    turn.Leaves submission.scope notice.next :=
  Submission.leaves_elsewhere once notice.split notice.notes.name_eq notice.notes.parent_eq elsewhere

/-- What was noticed is pending when all turns have been taken. -/
theorem pending (registered : env.registry = .standard) (disputed : store.Disputed)
    (accepted : ∀ turn ∈ submission.turns, turn.Accepted)
    (once : (submission.mentions.map Mention.name).Nodup) :
    judged.conflicts.get? notice.mention.name = some notice.next := by
  have left : ∀ turn ∈ notice.later, turn.Leaves submission.scope notice.next :=
    fun turn listed => notice.leaves_elsewhere once (Or.inr listed)
  have untold : ∀ turn ∈ notice.later, ¬ turn.Tells notice.between notice.mention.name :=
    fun turn listed => Submission.not_tells_elsewhere once notice.split (Or.inr listed)
  rw [inTurn_untold registered (notice.between_disputed registered disputed)
    (notice.accepted_elsewhere accepted).2 untold notice.rest, notice.notes.placed, Option.filter,
    if_pos (decide_eq_true left)]

end Notice

namespace Judges

theorem turns_accepted (judges : env.Judges submission store answers judged) :
    ∀ turn ∈ submission.turns, turn.Accepted := Submission.turns_accepted judges.accepted

/-- What is told was noticed by one of the turns. -/
theorem exists_notice (judges : env.Judges submission store answers judged)
    (registered : env.registry = .standard) (disputed : store.Disputed)
    {firsts others : List (Option ConflictSummary)} {summary : ConflictSummary}
    (told : answers = firsts ++ some summary :: others) :
    ∃ notice : env.Notice submission store judged, notice.firsts = firsts ∧
      notice.others = others ∧ notice.summary = summary := by
  have taken := judges.taken
  rw [told] at taken
  obtain ⟨earlier, turn, later, before, between, split, start, once, rest⟩ := inTurn_split taken
  have listed : turn ∈ submission.turns := by
    rw [split]
    exact List.mem_append_right _ List.mem_cons_self
  cases diverges : turn.told? before with
  | none =>
      have quiet := (take_quiet registered (inTurn_take_disputed registered disputed start)
        (judges.turns_accepted turn listed) diverges).mp once
      cases quiet.2.1
  | some row =>
      cases turn with
      | drop bundle kind => cases diverges
      | judge bundle mention =>
          rw [(inTurn_take_keepsRecords start).told?_eq] at diverges
          obtain ⟨notice, _, _, sameFirsts, sameOthers, same⟩ := Notice.of_told registered disputed
            judges.turns_accepted split start diverges once rest
          exact ⟨notice, sameFirsts, sameOthers, (Option.some.inj same).symm⟩

/-- A turn that tells has noticed a conflict. -/
theorem exists_notice_of_tells (judges : env.Judges submission store answers judged)
    (registered : env.registry = .standard) (disputed : store.Disputed) {turn : Turn}
    (listed : turn ∈ submission.turns) {name : Kind × EntityId} (tells : turn.Tells store name) :
    ∃ notice : env.Notice submission store judged, notice.mention.name = name ∧
      some notice.summary ∈ answers := by
  obtain ⟨bundle, mention, row, rfl, told, rfl⟩ := Turn.tells_iff.mp tells
  obtain ⟨earlier, later, before, between, firsts, answer, others, split, start, once, rest, rfl⟩ :=
    inTurn_around judges.taken listed
  obtain ⟨notice, _, rfl, _, _, rfl⟩ := Notice.of_told registered disputed judges.turns_accepted
    split start told once rest
  exact ⟨notice, rfl, List.mem_append_right _ List.mem_cons_self⟩

/-- A conflict of a record is noticed by a turn, or none is told and the one that is pending stays
if all turns leave it. -/
theorem noticed_or_left (judges : env.Judges submission store answers judged)
    (registered : env.registry = .standard) (disputed : store.Disputed) (name : Kind × EntityId) :
    (∃ notice : env.Notice submission store judged, notice.mention.name = name ∧
      some notice.summary ∈ answers) ∨
    (∀ summary, some summary ∈ answers → summary.name ≠ name) ∧
      judged.conflicts.get? name = (store.conflicts.get? name).filter fun conflict =>
        decide (∀ turn ∈ submission.turns, turn.Leaves submission.scope conflict) := by
  by_cases tells : ∃ turn ∈ submission.turns, turn.Tells store name
  · obtain ⟨turn, listed, tells⟩ := tells
    exact Or.inl (judges.exists_notice_of_tells registered disputed listed tells)
  · have untold : ∀ turn ∈ submission.turns, ¬ turn.Tells store name :=
      fun turn listed told => tells ⟨turn, listed, told⟩
    refine Or.inr ⟨?_, inTurn_untold registered disputed judges.turns_accepted untold judges.taken⟩
    rintro summary told rfl
    obtain ⟨firsts, others, split⟩ := List.append_of_mem told
    obtain ⟨notice, _, _, rfl⟩ := judges.exists_notice registered disputed split
    exact untold _ notice.listed (by rw [notice.summary_name]; exact notice.tells)

end Judges

end Env

/-! ## Reports -/

/-- Whether a submission is rejected with a conflict of the record with this name. -/
def Env.Reports (env : Env) (submission : Submission) (store : Store) (name : Kind × EntityId) :
    Prop :=
  ∃ conflicts, (env.submit submission store).1 = .error (.conflicting conflicts) ∧
    ∃ summary ∈ conflicts, summary.name = name

/-- The conflicts that an answer tells. -/
def reported {α : Type} : Except Refusal α → List ConflictSummary
  | .error (.conflicting conflicts) => conflicts
  | _ => []

theorem eq_conflicting_of_reported {α : Type} {answer : Except Refusal α}
    {summary : ConflictSummary} {others : List ConflictSummary}
    (told : reported answer = summary :: others) :
    answer = .error (.conflicting (summary :: others)) := by
  unfold reported at told
  split at told
  · rw [told]
  · cases told

instance (env : Env) (submission : Submission) (store : Store) (name : Kind × EntityId) :
    Decidable (env.Reports submission store name) :=
  decidable_of_iff (∃ summary ∈ reported (env.submit submission store).1, summary.name = name) <| by
    constructor
    · rintro ⟨summary, listed, named⟩
      obtain ⟨first, others, told⟩ := List.exists_cons_of_ne_nil (List.ne_nil_of_mem listed)
      rw [told] at listed
      exact ⟨first :: others, eq_conflicting_of_reported told, summary, listed, named⟩
    · rintro ⟨conflicts, rejected, summary, listed, named⟩
      rw [rejected]
      exact ⟨summary, listed, named⟩

namespace Env

variable {env : Env} {submission : Submission} {store : Store}

/-- What is pending after a submission is what is pending once it has been judged, and what is
reported is what has been told. Only a submission that is refused leaves all as it was. -/
theorem submit_judged (registered : env.registry = .standard) (disputed : store.Disputed) :
    ((env.submit submission store).2 = store ∧ ∀ name, ¬ env.Reports submission store name) ∨
    ∃ answers judged, env.Judges submission store answers judged ∧
      (env.submit submission store).2.conflicts = judged.conflicts ∧
      ∀ name, env.Reports submission store name ↔
        ∃ summary, some summary ∈ answers ∧ summary.name = name := by
  have told {answers : List (Option ConflictSummary)} {summary : ConflictSummary} :
      summary ∈ (answers.filterMap fun answer => answer) ↔ some summary ∈ answers := by
    rw [List.mem_filterMap]
    exact exists_eq_right
  have unreported (unconflicted : ∀ conflicts,
      (env.submit submission store).1 ≠ .error (.conflicting conflicts)) (name : Kind × EntityId) :
      ¬ env.Reports submission store name := by
    rintro ⟨conflicts, rejected, _⟩
    exact unconflicted conflicts rejected
  cases answered : (env.submit submission store).1 with
  | ok applied =>
      obtain ⟨answers, judged, judges, quiet, done⟩ :=
        (submit_eq_ok registered).mp (Prod.ext answered rfl)
      have sound := (inTurn_take_disputed registered disputed judges.taken).rows
      refine Or.inr ⟨answers, judged, judges, applyStories_conflicts registered sound done, ?_⟩
      intro name
      constructor
      · exact fun reported => absurd reported (unreported (by rw [answered]; exact nofun) name)
      · rintro ⟨summary, listed, _⟩
        cases quiet _ listed
  | error refusal =>
      by_cases conflicting : ∃ conflicts, refusal = .conflicting conflicts
      · obtain ⟨conflicts, rfl⟩ := conflicting
        obtain ⟨_, answers, judges, rfl⟩ :=
          (submit_eq_conflicting registered).mp (Prod.ext answered rfl)
        refine Or.inr ⟨answers, _, judges, rfl, fun name => ?_⟩
        constructor
        · rintro ⟨conflicts, rejected, summary, listed, named⟩
          cases answered.symm.trans rejected
          exact ⟨summary, told.mp listed, named⟩
        · rintro ⟨summary, listed, named⟩
          exact ⟨_, answered, summary, told.mpr listed, named⟩
      · have unconflicted : ∀ conflicts, refusal ≠ .conflicting conflicts :=
          fun conflicts same => conflicting ⟨conflicts, same⟩
        refine Or.inl ⟨submit_of_refused answered unconflicted, unreported ?_⟩
        intro conflicts rejected
        exact unconflicted conflicts (Except.error.inj (answered.symm.trans rejected))

end Env

end Chronicle
