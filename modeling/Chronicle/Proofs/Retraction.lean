import Chronicle.Proofs.Notices
import Mathlib.Data.List.Infix

/-!
# Conflicts that are told and withdrawn again

What a producer is told is pending when the submission has been judged, unless the submission
names the record, or the story of an item or attribute, once more: a later turn may then remove
what an earlier one has noticed (`Store.Retracts`). Nothing of that is known to who is told.
-/

namespace Chronicle

open Descriptor (standard)

/-! ## Turns that remove what was noticed -/

/-- The story with which a turn notices the conflict of a record of this kind. -/
def Turn.sentWith (kind : Kind) : Turn → Option EntityId
  | .judge bundle _ => (bundle.parentFor kind).map Parent.story
  | .drop _ _ => none

/-- Whether a turn that notices no conflict removes the one of a record, if the producer has set it
with this story. -/
def Turn.Removes (name : Kind × EntityId) (story : Option EntityId) : Turn → Prop
  | .judge _ mention => mention.name = name
  | .drop bundle kind => kind = name.1 ∧ story = some bundle.id ∧ name.2 ∉ bundle.memberIds kind

instance (name : Kind × EntityId) (story : Option EntityId) :
    (turn : Turn) → Decidable (turn.Removes name story)
  | .judge _ mention => inferInstanceAs (Decidable (mention.name = name))
  | .drop bundle kind => inferInstanceAs
      (Decidable (kind = name.1 ∧ story = some bundle.id ∧ name.2 ∉ bundle.memberIds kind))

/-- Whether one of the turns removes the conflict of a record. A turn that notices it again sets the
story with which it is sent. -/
def Store.Retracts (store : Store) (name : Kind × EntityId) : Option EntityId → List Turn → Prop
  | _, [] => False
  | story, turn :: rest =>
      if turn.Tells store name then Retracts store name (turn.sentWith name.1) rest
      else turn.Removes name story ∨ Retracts store name story rest

instance Store.decidableRetracts (store : Store) (name : Kind × EntityId) :
    (story : Option EntityId) → (turns : List Turn) → Decidable (store.Retracts name story turns)
  | _, [] => .isFalse id
  | story, turn :: rest => by
      have told := store.decidableRetracts name (turn.sentWith name.1) rest
      have untold := store.decidableRetracts name story rest
      unfold Store.Retracts
      infer_instance

/-- A conflict that the producer has set is left by the turns that do not remove it. -/
theorem Turn.leaves_iff {scope : Scope} {conflict : Conflict} (set : conflict.scope = scope)
    {turn : Turn} : turn.Leaves scope conflict ↔
      ¬ turn.Removes conflict.name (conflict.parent.map Parent.story) := by
  cases turn with
  | judge bundle mention =>
      constructor
      · exact fun leaves named => leaves named set
      · exact fun keeps named => absurd named keeps
  | drop bundle kind =>
      constructor
      · rintro leaves ⟨same, sentWith, unsent⟩
        exact unsent (leaves same set sentWith)
      · intro keeps same _ sentWith
        exact Classical.byContradiction fun unsent => keeps ⟨same, sentWith, unsent⟩

theorem Store.retracts_iff {store : Store} {name : Kind × EntityId} {story : Option EntityId}
    {turns : List Turn} (untold : ∀ turn ∈ turns, ¬ turn.Tells store name) :
    store.Retracts name story turns ↔ ∃ turn ∈ turns, turn.Removes name story := by
  induction turns with
  | nil => simp [Store.Retracts]
  | cons turn rest ih =>
      obtain ⟨turnUntold, restUntold⟩ := List.forall_mem_cons.mp untold
      rw [Store.Retracts, if_neg turnUntold, ih restUntold, List.exists_mem_cons_iff]

namespace Env

variable {env : Env} {scope : Scope} {first store after : Store} {turns : List Turn}
  {answers : List (Option ConflictSummary)} {conflict : Conflict}

/-- A conflict that the producer has set goes on as long as no turn removes it. -/
theorem inTurn_unretracted (registered : env.registry = .standard) (disputed : store.Disputed)
    (kept : first.KeepsRecords store) (accepted : ∀ turn ∈ turns, turn.Accepted)
    (found : store.conflicts.get? conflict.name = some conflict) (set : conflict.scope = scope)
    (stays : ¬ first.Retracts conflict.name (conflict.parent.map Parent.story) turns)
    (taken : inTurn (env.take scope) turns store = .ok (answers, after)) :
    ∃ next, after.conflicts.get? conflict.name = some next ∧ next.id = conflict.id := by
  induction turns generalizing store answers conflict with
  | nil =>
      obtain ⟨_, rfl⟩ := inTurn_nil_eq_ok.mp taken
      exact ⟨conflict, found, rfl⟩
  | cons turn rest ih =>
      obtain ⟨_, between, _, once, later, _⟩ := inTurn_cons_eq_ok.mp taken
      obtain ⟨turnAccepted, restAccepted⟩ := List.forall_mem_cons.mp accepted
      have betweenDisputed := take_disputed registered disputed once
      have betweenKept := kept.trans (take_keepsRecords once)
      rw [Store.Retracts] at stays
      by_cases tells : turn.Tells first conflict.name
      · -- the conflict is noticed once more, and continues
        rw [if_pos tells] at stays
        obtain ⟨bundle, mention, row, rfl, told, named⟩ := Turn.tells_iff.mp tells
        rw [← kept.divergent?_eq] at told
        obtain ⟨_, _, next, _, notes⟩ := take_told registered disputed turnAccepted told once
        have continues := notes.continues conflict (by rw [named, found])
        have sameName : next.name = conflict.name := notes.name_eq.trans named
        have placed : between.conflicts.get? next.name = some next := by
          rw [notes.name_eq, notes.placed]
        have kind : mention.kind = conflict.name.1 := congrArg Prod.fst named
        rw [← sameName]
        obtain ⟨last, lastFound, same⟩ := ih betweenDisputed betweenKept restAccepted placed
          notes.scope_eq (by rwa [notes.parent_eq, kind, sameName]) later
        exact ⟨last, lastFound, same.trans continues.id_eq⟩
      · rw [if_neg tells, not_or] at stays
        obtain ⟨keeps, stays⟩ := stays
        refine ih betweenDisputed betweenKept restAccepted ?_ set stays later
        rw [take_untold registered disputed turnAccepted (mt kept.tells_iff.mp tells) once, found,
          Option.filter, if_pos (decide_eq_true ((Turn.leaves_iff set).mpr keeps))]

/-- A conflict that the producer has set is gone once a turn has removed it, unless it is noticed
again. -/
theorem inTurn_retracted (registered : env.registry = .standard) (disputed : store.Disputed)
    (kept : first.KeepsRecords store) (accepted : ∀ turn ∈ turns, turn.Accepted)
    (found : store.conflicts.get? conflict.name = some conflict) (set : conflict.scope = scope)
    (untold : ∀ turn ∈ turns, ¬ turn.Tells first conflict.name)
    (retracts : first.Retracts conflict.name (conflict.parent.map Parent.story) turns)
    (taken : inTurn (env.take scope) turns store = .ok (answers, after)) :
    after.conflicts.get? conflict.name = none := by
  obtain ⟨turn, listed, removes⟩ := (Store.retracts_iff untold).mp retracts
  rw [inTurn_untold registered disputed accepted
    (fun other otherListed => mt kept.tells_iff.mp (untold other otherListed)) taken, found,
    Option.filter, if_neg]
  rw [decide_eq_true_eq]
  intro leaves
  exact (Turn.leaves_iff set).mp (leaves turn listed) removes

/-- What is told are conflicts of the records that the turns look for. -/
theorem inTurn_take_names (registered : env.registry = .standard) (disputed : store.Disputed)
    (accepted : ∀ turn ∈ turns, turn.Accepted)
    (taken : inTurn (env.take scope) turns store = .ok (answers, after)) :
    (answers.filterMap fun answer => answer).map ConflictSummary.name =
      turns.filterMap (Turn.tells? store) := by
  induction turns generalizing store answers with
  | nil =>
      obtain ⟨rfl, _⟩ := inTurn_nil_eq_ok.mp taken
      rfl
  | cons turn rest ih =>
      obtain ⟨answer, between, others, once, later, rfl⟩ := inTurn_cons_eq_ok.mp taken
      obtain ⟨turnAccepted, restAccepted⟩ := List.forall_mem_cons.mp accepted
      have named : answer.map ConflictSummary.name = turn.tells? store := by
        cases told : turn.told? store with
        | none =>
            obtain ⟨_, rfl, _⟩ := (take_quiet registered disputed turnAccepted told).mp once
            cases turn with
            | judge bundle mention => rw [Turn.tells?, show mention.divergent? store = none from told]; rfl
            | drop bundle kind => rfl
        | some row =>
            cases turn with
            | drop bundle kind => cases told
            | judge bundle mention =>
                obtain ⟨_, _, next, rfl, notes⟩ :=
                  take_told registered disputed turnAccepted told once
                rw [Turn.tells?, show mention.divergent? store = some row from told]
                exact congrArg some notes.name_eq
      have restNames := ih (take_disputed registered disputed once) restAccepted later
      rw [List.filterMap_congr fun turn _ => (take_keepsRecords once).tells?_eq turn] at restNames
      rw [List.filterMap_cons, List.filterMap_cons, ← named, ← restNames]
      cases answer <;> rfl

end Env

/-! ## Conflicts that are told -/

namespace Env.Notice

variable {env : Env} {submission : Submission} {store judged : Store}
  (notice : env.Notice submission store judged)

theorem next_placed : notice.between.conflicts.get? notice.next.name = some notice.next := by
  rw [notice.notes.name_eq, notice.notes.placed]

/-- What was noticed is pending in the end, perhaps continued, unless a later turn retracts it. -/
theorem unretracted (registered : env.registry = .standard) (disputed : store.Disputed)
    (accepted : ∀ turn ∈ submission.turns, turn.Accepted)
    (stays : ¬ store.Retracts notice.next.name (notice.next.parent.map Parent.story)
      notice.later) :
    ∃ pending, judged.conflicts.get? notice.next.name = some pending ∧
      pending.id = notice.next.id :=
  inTurn_unretracted registered (notice.between_disputed registered disputed)
    notice.between_keepsRecords (notice.accepted_elsewhere accepted).2 notice.next_placed
    notice.notes.scope_eq stays notice.rest

/-- What was noticed is gone in the end if a later turn retracts it and nothing more is told about
the record. -/
theorem retracted (registered : env.registry = .standard) (disputed : store.Disputed)
    (accepted : ∀ turn ∈ submission.turns, turn.Accepted)
    (retracts : store.Retracts notice.next.name (notice.next.parent.map Parent.story)
      notice.later)
    (unsaid : ∀ summary ∈ notice.others.filterMap fun answer => answer,
      summary.name ≠ notice.next.name) :
    judged.conflicts.get? notice.next.name = none := by
  have betweenDisputed := notice.between_disputed registered disputed
  have kept := notice.between_keepsRecords
  have laterAccepted := (notice.accepted_elsewhere accepted).2
  refine inTurn_retracted registered betweenDisputed kept laterAccepted notice.next_placed
    notice.notes.scope_eq ?_ retracts notice.rest
  intro turn listed tells
  have again : notice.next.name ∈ notice.later.filterMap (Turn.tells? notice.between) :=
    List.mem_filterMap.mpr ⟨turn, listed, kept.tells_iff.mpr tells⟩
  rw [← inTurn_take_names registered betweenDisputed laterAccepted notice.rest] at again
  obtain ⟨other, otherListed, same⟩ := List.mem_map.mp again
  exact unsaid other otherListed same

end Env.Notice

/-- Each conflict that a submission is rejected with was noticed by the turn in its place. It is
pending afterwards, unless a later turn retracts it; if that is so and the record is not told of
again, none is pending for the record. In a submission that names each record once all conflicts
that are told are pending. -/
theorem Env.submit_tells {env : Env} (registered : env.registry = .standard) {store : Store}
    (reachable : Reachable .standard store) {submission : Submission}
    {conflicts firsts others : List ConflictSummary} {summary : ConflictSummary}
    (rejected : (env.submit submission store).1 = .error (.conflicting conflicts))
    (split : conflicts = firsts ++ summary :: others) :
    ((submission.mentions.map Mention.name).Nodup →
      ∃ pending, (env.submit submission store).2.conflict? summary.kind summary.entity =
        some pending ∧ pending.id = summary.conflict) ∧
    ∃ earlier turn later, submission.turns = earlier ++ turn :: later ∧
      firsts.map ConflictSummary.name = earlier.filterMap (Turn.tells? store) ∧
      turn.Tells store summary.name ∧ turn.sentWith summary.kind = summary.story ∧
      (¬ store.Retracts summary.name summary.story later →
        ∃ pending, (env.submit submission store).2.conflict? summary.kind summary.entity =
          some pending ∧ pending.id = summary.conflict) ∧
      (store.Retracts summary.name summary.story later →
        (∀ other ∈ others, other.name ≠ summary.name) →
        (env.submit submission store).2.conflict? summary.kind summary.entity = none) := by
  have disputed := (Trail.of_run reachable).disputed
  obtain ⟨_, answers, judges, told⟩ :=
    (submit_eq_conflicting registered).mp (Prod.ext rejected rfl)
  rw [split, eq_comm, List.filterMap_eq_append_iff] at told
  obtain ⟨before, rest, rfl, rfl, restTold⟩ := told
  obtain ⟨silent, answer, after, rfl, silentNone, rfl, rfl⟩ :=
    List.filterMap_eq_cons_iff.mp restTold
  obtain ⟨notice, sameFirsts, rfl, rfl⟩ :=
    judges.exists_notice registered disputed (List.append_assoc before silent _).symm
  have accepted := judges.turns_accepted
  have named := notice.notes.name_eq
  refine ⟨?_, notice.earlier, .judge notice.bundle notice.mention, notice.later, notice.split, ?_,
    ?_, ?_, notice.unretracted registered disputed accepted,
    notice.retracted registered disputed accepted⟩
  · intro once
    refine ⟨notice.next, ?_, rfl⟩
    have pending := notice.pending registered disputed accepted once
    rwa [← named] at pending
  · rw [← inTurn_take_names registered disputed (notice.accepted_elsewhere accepted).1 notice.start,
      sameFirsts, List.filterMap_append, List.filterMap_eq_nil_iff.mpr silentNone, List.append_nil]
  · rw [notice.summary_name]
    exact notice.tells
  · have kind : notice.next.kind = notice.mention.kind := congrArg Prod.fst named
    change (notice.bundle.parentFor notice.next.kind).map Parent.story =
      notice.next.parent.map Parent.story
    rw [notice.notes.parent_eq, kind]

/-- New stories that are sent with a name for the tag, each from who has seen some version of
it. -/
def Submission.tagging (stories : List (EntityId × Nat × String)) : Submission :=
  ⟨"feed", "collector", stories.map fun story =>
    ⟨story.1, none, ⟨.ofList [("title", .text "story")], .empty⟩, [],
      [⟨⟨⟨1⟩⟩, some story.2.1, ⟨.ofList [("key", .text story.2.2)], .empty⟩⟩]⟩⟩

/-- A conflict that is told twice is pending under the identifier that was told first. -/
theorem submit_tells_twice :
    Reachable .standard .withRenamedTag ∧
    ∃ summary other, (Env.submit ⟨.standard, 3, 0⟩
        (.tagging [(⟨⟨2⟩⟩, 1, "other"), (⟨⟨3⟩⟩, 1, "another")]) .withRenamedTag).1 =
          .error (.conflicting [summary, other]) ∧ other.name = summary.name ∧
      ∃ pending, (Env.submit ⟨.standard, 3, 0⟩
          (.tagging [(⟨⟨2⟩⟩, 1, "other"), (⟨⟨3⟩⟩, 1, "another")]) .withRenamedTag).2.conflict?
          summary.kind summary.entity = some pending ∧ pending.id = summary.conflict := by
  have reachable : Reachable .standard .withRenamedTag := reachable_following ⟨.standard, 3, 0⟩ _
  have told : (reported (Env.submit ⟨.standard, 3, 0⟩
        (.tagging [(⟨⟨2⟩⟩, 1, "other"), (⟨⟨3⟩⟩, 1, "another")]) .withRenamedTag).1).map
        (fun summary => (summary.name, summary.story)) =
      [((.attr, ⟨⟨1⟩⟩), some ⟨⟨2⟩⟩), ((.attr, ⟨⟨1⟩⟩), some ⟨⟨3⟩⟩)] := by decide +kernel
  have stays : ∀ later ∈ (Submission.tagging
        [(⟨⟨2⟩⟩, 1, "other"), (⟨⟨3⟩⟩, 1, "another")]).turns.tails,
      ¬ Store.withRenamedTag.Retracts (.attr, ⟨⟨1⟩⟩) (some ⟨⟨2⟩⟩) later := by decide +kernel
  obtain ⟨summary, rest, conflicts, first, second⟩ := List.map_eq_cons_iff.mp told
  obtain ⟨other, none, rfl, otherTold, nil⟩ := List.map_eq_cons_iff.mp second
  obtain rfl := List.map_eq_nil_iff.mp nil
  have rejected := eq_conflicting_of_reported conflicts
  obtain ⟨named, story⟩ := Prod.mk.inj first
  obtain ⟨_, earlier, turn, later, split, _, _, _, pending, _⟩ :=
    Env.submit_tells rfl reachable rejected (List.nil_append [summary, other]).symm
  refine ⟨reachable, summary, other, rejected, ?_, pending ?_⟩
  · exact (congrArg Prod.fst otherTold).trans named.symm
  · rw [named, story]
    refine stays later ((List.mem_tails _ _).mpr ⟨earlier ++ [turn], ?_⟩)
    rw [split, List.append_assoc]
    rfl

/-- If the tag is sent once more as it is stored, the conflict that was told is withdrawn. So it is
not true that all that is told is pending. -/
theorem not_submit_tells_pending :
    ¬ ∀ (env : Env) (store : Store) (submission : Submission) (conflicts : List ConflictSummary),
      env.registry = .standard → Reachable .standard store →
      (env.submit submission store).1 = .error (.conflicting conflicts) →
      ∀ summary ∈ conflicts,
        ∃ pending, (env.submit submission store).2.conflict? summary.kind summary.entity =
          some pending ∧ pending.id = summary.conflict := by
  intro kept
  have reachable : Reachable .standard .withRenamedTag := reachable_following ⟨.standard, 3, 0⟩ _
  have told : (reported (Env.submit ⟨.standard, 3, 0⟩
        (.tagging [(⟨⟨2⟩⟩, 1, "other"), (⟨⟨3⟩⟩, 2, "final")]) .withRenamedTag).1).map
        ConflictSummary.name = [(.attr, ⟨⟨1⟩⟩)] := by decide +kernel
  have gone : (Env.submit ⟨.standard, 3, 0⟩
      (.tagging [(⟨⟨2⟩⟩, 1, "other"), (⟨⟨3⟩⟩, 2, "final")]) .withRenamedTag).2.conflict? .attr
      ⟨⟨1⟩⟩ = none := by decide +kernel
  obtain ⟨summary, rest, conflicts, named, _⟩ := List.map_eq_cons_iff.mp told
  obtain ⟨pending, found, _⟩ := kept _ _ _ _ rfl reachable (eq_conflicting_of_reported conflicts)
    summary List.mem_cons_self
  obtain ⟨kind, entity⟩ := Prod.mk.inj named
  rw [kind, entity, gone] at found
  cases found

end Chronicle
