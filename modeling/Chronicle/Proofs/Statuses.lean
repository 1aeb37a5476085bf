import Chronicle.Proofs.Backstops
import Chronicle.Proofs.Notices
import Chronicle.Proofs.Pushing

/-!
# Statuses of responses

A request is answered with the status of a server error only if an operation fails for a cause that
does not lie in the request. In a store that a run can lead to, a push comes to that in two cases: a
record would get a version that cannot be stored, or a conflict is to be written down with a declared
version that cannot be stored, although it was read from the body (`Turn.Overflows`).
-/

namespace Chronicle

open Descriptor (standard)

/-! ## Answers that fail -/

/-- An answer is a refusal that does not lie in what was asked for. -/
def Fails {α : Type} (answer : Except Refusal α) : Prop :=
  ∃ refusal, answer = .error refusal ∧ ¬ refusal.Ordinary

section Fails

variable {α β σ : Type}

theorem not_fails_ok (value : α) : ¬ Fails (.ok value) := by
  rintro ⟨_, impossible, _⟩
  cases impossible

theorem fails_error {refusal : Refusal} :
    Fails (.error refusal : Except Refusal α) ↔ ¬ refusal.Ordinary := by
  constructor
  · rintro ⟨_, ⟨⟩, uncommon⟩
    exact uncommon
  · exact fun uncommon => ⟨refusal, rfl, uncommon⟩

theorem fails_bind {first : Except Refusal α} {rest : α → Except Refusal β} :
    Fails (first >>= rest) ↔ Fails first ∨ ∃ value, first = .ok value ∧ Fails (rest value) := by
  cases first with
  | error refusal =>
      change Fails (.error refusal) ↔ _
      rw [fails_error, fails_error]
      refine (or_iff_left ?_).symm
      rintro ⟨_, impossible, _⟩
      cases impossible
  | ok value =>
      constructor
      · intro fails
        exact Or.inr ⟨value, rfl, fails⟩
      · rintro (fails | ⟨_, ⟨⟩, fails⟩)
        · exact absurd fails (not_fails_ok value)
        · exact fails

theorem fails_map {first : Except Refusal α} (change : α → β) :
    Fails (first >>= fun value => pure (change value)) ↔ Fails first := by
  rw [fails_bind]
  refine or_iff_left ?_
  rintro ⟨value, _, fails⟩
  exact not_fails_ok _ fails

/-- An orderly answer fails exactly where a version is out of range. -/
theorem Orderly.fails_iff {exhausts : Prop} {answer : Except Refusal α}
    (orderly : Orderly exhausts answer) : Fails answer ↔ exhausts := by
  cases orderly with
  | carried within value => exact iff_of_false (not_fails_ok value) within
  | refused within ordinary => exact iff_of_false (fun fails => fails_error.mp fails ordinary) within
  | exhausted beyond => exact iff_of_true (fails_error.mpr id) beyond

/-! ## Items in turn -/

variable {step : α → σ → Except Refusal (β × σ)} {meets : α → σ → Prop} {items : List α} {state : σ}

/-- Items in turn fail if one of them does, where those before it have led. -/
theorem fails_inTurn :
    Fails (inTurn step items state) ↔
      Meets step (fun item state => Fails (step item state)) items state := by
  induction items generalizing state with
  | nil => exact iff_of_false (not_fails_ok _) id
  | cons item rest ih =>
      simp only [inTurn, fails_bind, Meets, Prod.exists]
      refine or_congr_right (exists_congr fun result => exists_congr fun next =>
        and_congr_right fun _ => ?_)
      rw [← ih]
      have same : Fails (inTurn step rest next >>= fun later => pure (result :: later.1, later.2)) ↔
          Fails (inTurn step rest next) := fails_map _
      rw [fails_bind, Prod.exists] at same
      exact same

theorem Meets.congr {others : α → σ → Prop} (motive : σ → Prop)
    (each : ∀ item ∈ items, ∀ state, motive state → (meets item state ↔ others item state))
    (keeps : ∀ item ∈ items, ∀ state result next, motive state →
      step item state = .ok (result, next) → motive next)
    (kept : motive state) : Meets step meets items state ↔ Meets step others items state := by
  induction items generalizing state with
  | nil => exact Iff.rfl
  | cons item rest ih =>
      refine or_congr (each item List.mem_cons_self state kept) (exists_congr fun result =>
        exists_congr fun next => and_congr_right fun done => ?_)
      exact ih (fun later listed => each later (List.mem_cons_of_mem item listed))
        (fun later listed => keeps later (List.mem_cons_of_mem item listed))
        (keeps item List.mem_cons_self state result next kept done)

theorem meets_append {later : List α} :
    Meets step meets (items ++ later) state ↔ Meets step meets items state ∨
      ∃ results next, inTurn step items state = .ok (results, next) ∧
        Meets step meets later next := by
  induction items generalizing state with
  | nil =>
      constructor
      · intro met
        exact Or.inr ⟨[], state, rfl, met⟩
      · rintro (impossible | ⟨_, _, nothing, met⟩)
        · exact impossible.elim
        · obtain ⟨_, rfl⟩ := inTurn_nil_eq_ok.mp nothing
          exact met
  | cons item rest ih =>
      rw [List.cons_append]
      constructor
      · rintro (here | ⟨result, next, done, met⟩)
        · exact Or.inl (Or.inl here)
        · rcases ih.mp met with early | ⟨results, last, others, late⟩
          · exact Or.inl (Or.inr ⟨result, next, done, early⟩)
          · exact Or.inr ⟨result :: results, last,
              inTurn_cons_eq_ok.mpr ⟨result, next, results, done, others, rfl⟩, late⟩
      · rintro ((here | ⟨result, next, done, early⟩) | ⟨_, last, all, late⟩)
        · exact Or.inl here
        · exact Or.inr ⟨result, next, done, ih.mpr (Or.inl early)⟩
        · obtain ⟨result, next, results, done, others, _⟩ := inTurn_cons_eq_ok.mp all
          exact Or.inr ⟨result, next, done, ih.mpr (Or.inr ⟨results, last, others, late⟩)⟩

theorem meets_map {γ : Type} (change : γ → α) {items : List γ} :
    Meets step meets (items.map change) state ↔
      Meets (fun item => step (change item)) (fun item => meets (change item)) items state := by
  induction items generalizing state with
  | nil => exact Iff.rfl
  | cons item rest ih =>
      exact or_congr_right (exists_congr fun _ => exists_congr fun _ => and_congr_right fun _ => ih)

end Fails

/-! ## Conflicts that cannot be written down -/

/-- A turn comes to a conflict that cannot be written down: its mention diverges, is not held
already, and declares a version that is out of range. -/
def Turn.Overflows (scope : Scope) (store : Store) : Turn → Prop
  | .judge bundle mention => ∃ row version, mention.divergent? store = some row ∧
      row.kind = mention.kind ∧ mention.sent.base = some version ∧ versionLimit ≤ version ∧
      ∀ pending, store.conflicts.get? mention.name = some pending →
        pending.holds scope ((standard mention.kind).digest mention.sent.content)
          (bundle.parentFor mention.kind) = false
  | .drop _ _ => False

namespace Env

variable {env : Env} {store : Store}

theorem noticeConflict_of_beyond (registered : env.registry = .standard)
    (started : ¬ env.now < 0) {record : Record} {scope : Scope} {version : Nat}
    (beyond : versionLimit ≤ version) {incoming : Content} {parent : Option Parent}
    (unheld : ∀ pending, store.conflict? record.kind record.id = some pending →
      pending.holds scope ((standard record.kind).digest incoming) parent = false) :
    env.noticeConflict record scope (some version) incoming parent store =
      .error (.store (.outOfRange .baseVersion version)) := by
  have refused (conflict : Conflict) (base : conflict.base = some version) :
      Store.checkVersions conflict = .error (.outOfRange .baseVersion version) := by
    unfold Store.checkVersions
    rw [base]
    change ((if version < versionLimit then _ else _) >>= _) >>= _ = _
    rw [if_neg (Nat.not_lt.mpr beyond)]
    rfl
  have clock : env.clock = .ok env.now := clock_eq_ok.mpr ⟨rfl, started⟩
  unfold noticeConflict
  rw [descriptor_standard registered, clock]
  cases here : store.conflict? record.kind record.id with
  | some pending =>
      change (if pending.holds scope _ parent = true then _ else _) = _
      rw [if_neg (Bool.eq_false_iff.mp (unheld pending here))]
      dsimp only [Store.refreshConflict]
      rw [refused _ rfl]
      rfl
  | none =>
      dsimp only [bind, Except.bind, Store.insertConflict]
      rw [refused _ rfl]
      rfl

/-- A turn fails exactly if its conflict cannot be written down. -/
theorem take_fails_iff (registered : env.registry = .standard) (started : ¬ env.now < 0)
    (both : store.SoundRows ∧ store.SoundConflicts) (scope : Scope) {turn : Turn}
    (accepted : turn.Accepted) :
    Fails (env.take scope turn store) ↔ turn.Overflows scope store := by
  cases turn with
  | drop bundle kind => exact iff_of_false (not_fails_ok _) id
  | judge bundle mention =>
      have looked {outdated : Option Record} :
          env.stale? store mention.kind mention.sent = .ok outdated ↔ _ :=
        stale?_mention_eq_ok registered both.1 accepted
      change Fails (env.judge scope mention.kind _ mention.sent store) ↔ _
      constructor
      · intro fails
        obtain ⟨version, base, beyond⟩ :
            ∃ version, mention.sent.base = some version ∧ versionLimit ≤ version := by
          by_contra bounded
          refine (judge_orderly registered started both.1 both.2 scope
            (bundle.parentFor_isSome mention.kind) fun version base => ?_).fails_iff.mp fails
          exact Nat.lt_of_not_le fun beyond => bounded ⟨version, base, beyond⟩
        obtain ⟨row, told, kind⟩ :
            ∃ row, mention.divergent? store = some row ∧ row.kind = mention.kind := by
          rcases fails_bind.mp fails with looking | ⟨outdated, given, noticing⟩
          · exact ((env.stale?_orderly registered store mention.kind mention.sent).fails_iff.mp
              looking).elim
          · obtain ⟨fits, rfl⟩ := looked.mp given
            cases told : mention.divergent? store with
            | none =>
                rw [told] at noticing
                exact absurd noticing (not_fails_ok _)
            | some row => exact ⟨row, rfl, fits row (Mention.divergent?_eq_some_iff.mp told).1⟩
        refine ⟨row, version, told, kind, base, beyond, fun pending here => ?_⟩
        refine Bool.eq_false_iff.mpr fun holds => ?_
        have held := take_held registered started both.1 accepted told kind here holds
        change env.judge scope mention.kind _ mention.sent store = _ at held
        rw [held] at fails
        exact not_fails_ok _ fails
      · rintro ⟨row, version, told, kind, base, beyond, unheld⟩
        obtain ⟨live, _⟩ := Mention.divergent?_eq_some_iff.mp told
        have outdated : env.stale? store mention.kind mention.sent =
            .ok (some (row.record mention.sent.id)) := by
          refine looked.mpr ⟨fun other otherLive => ?_, by rw [told]; rfl⟩
          cases live.symm.trans otherLive
          exact kind
        have place : (row.kind, mention.sent.id) = mention.name := Prod.ext kind rfl
        have refused : env.noticeConflict (row.record mention.sent.id) scope (some version)
            mention.sent.content (bundle.parentFor mention.kind) store =
              .error (.store (.outOfRange .baseVersion version)) := by
          refine noticeConflict_of_beyond registered started beyond fun pending here => ?_
          change store.conflicts.get? (row.kind, mention.sent.id) = some pending at here
          rw [place] at here
          rw [show (row.record mention.sent.id).kind = mention.kind from kind]
          exact unheld pending here
        refine fails_bind.mpr (Or.inr ⟨_, outdated, fails_bind.mpr (Or.inl ?_)⟩)
        rw [base, refused]
        exact fails_error.mpr id

/-- A story comes to a conflict that cannot be written down: all its contents are accepted, and one
of its turns does. -/
def StoryOverflows (env : Env) (scope : Scope) (bundle : StoryBundle) (store : Store) : Prop :=
  env.validateStory bundle = .ok () ∧
    Meets (env.take scope) (fun turn store => turn.Overflows scope store) bundle.turns store

/-- A submission does: one of its stories, where those before it have been judged. -/
def SubmissionOverflows (env : Env) (submission : Submission) (store : Store) : Prop :=
  Meets (env.judgeStory submission.scope) (env.StoryOverflows submission.scope) submission.stories
    store

/-- A story fails to be judged if its contents are accepted and one of its turns fails. -/
theorem judgeStory_fails_iff_turns (registered : env.registry = .standard) (scope : Scope)
    (bundle : StoryBundle) :
    Fails (env.judgeStory scope bundle store) ↔
      env.validateStory bundle = .ok () ∧
        Meets (env.take scope) (fun turn store => Fails (env.take scope turn store)) bundle.turns
          store := by
  have valid := (validateStory_orderly registered bundle).fails_iff
  have drop (kind : Kind) (rest : List Turn) (state : Store) :
      Meets (env.take scope) (fun turn store => Fails (env.take scope turn store))
          (.drop bundle kind :: rest) state ↔
        Meets (env.take scope) (fun turn store => Fails (env.take scope turn store)) rest
          (state.withdrawDropped kind scope bundle.id (bundle.memberIds kind)) := by
    constructor
    · rintro (fails | ⟨_, _, ⟨⟩, later⟩)
      · exact absurd fails (not_fails_ok _)
      · exact later
    · intro later
      exact Or.inr ⟨none, _, rfl, later⟩
  have judges (kind : Kind) (sent : List Bundle) (state : Store) :
      Meets (env.take scope) (fun turn store => Fails (env.take scope turn store))
          (sent.map fun sent => Turn.judge bundle ⟨kind, sent⟩) state ↔
        Fails (inTurn (env.judge scope kind (bundle.parentFor kind)) sent state) := by
    rw [meets_map, fails_inTurn]
    rfl
  have taken (kind : Kind) (sent : List Bundle) (state : Store) :
      inTurn (env.take scope) (sent.map fun sent => Turn.judge bundle ⟨kind, sent⟩) state =
        inTurn (env.judge scope kind (bundle.parentFor kind)) sent state := inTurn_map _ _ sent state
  have answers (value : List ConflictSummary × Store) :
      ¬ Fails (pure value : Except Refusal (List ConflictSummary × Store)) := not_fails_ok value
  unfold judgeStory
  rw [fails_bind, valid, false_or, StoryBundle.turns, Meets]
  simp only [drop, meets_append, judges, taken, fails_bind, Prod.exists, answers, and_false,
    exists_false, or_false]
  constructor
  · rintro ⟨_, valid, fails⟩
    exact ⟨valid, fails⟩
  · rintro ⟨valid, fails⟩
    exact ⟨(), valid, fails⟩

/-- A story fails to be judged exactly if a conflict of it cannot be written down. -/
theorem judgeStory_fails_iff (registered : env.registry = .standard) (started : ¬ env.now < 0)
    (both : store.SoundRows ∧ store.SoundConflicts) (scope : Scope) (bundle : StoryBundle) :
    Fails (env.judgeStory scope bundle store) ↔ env.StoryOverflows scope bundle store := by
  rw [judgeStory_fails_iff_turns registered]
  refine and_congr_right fun valid => Meets.congr
    (fun store => store.SoundRows ∧ store.SoundConflicts) (fun turn listed state sound => ?_)
    (fun turn _ state answer next sound taken => ?_) both
  · refine take_fails_iff registered started sound scope ?_
    cases turn with
    | drop _ _ => trivial
    | judge other mention =>
        obtain ⟨rfl, judged⟩ := StoryBundle.judge_mem_turns.mp listed
        exact (validateStory_eq_ok registered).mp valid mention
          (StoryBundle.mem_mentions_of_judged judged)
  · exact Store.sound_along registered sound (take_trail taken)

/-- A submission fails exactly if a conflict of it cannot be written down, or a version of a record
cannot. -/
theorem submit_fails_iff (registered : env.registry = .standard) (started : ¬ env.now < 0)
    (chained : store.Chained) (sound : store.SoundConflicts) (submission : Submission) :
    Fails (env.submit submission store).1 ↔
      env.SubmissionOverflows submission store ∨ env.SubmissionExhausts submission store := by
  have same : Fails (env.submit submission store).1 ↔
      Fails (env.judgeAndApply submission store) := by
    rw [submit_eq]
    cases env.judgeAndApply submission store with
    | error refusal => exact fails_error.trans fails_error.symm
    | ok done =>
        obtain ⟨conflicts | applied, after⟩ := done
        · exact iff_of_false (fun fails => fails_error.mp fails trivial) (not_fails_ok _)
        · exact iff_of_false (not_fails_ok _) (not_fails_ok _)
  have both : store.SoundRows ∧ store.SoundConflicts := ⟨chained.traced.recorded.rows, sound⟩
  have judging : Fails (inTurn (env.judgeStory submission.scope) submission.stories store) ↔
      env.SubmissionOverflows submission store := by
    rw [fails_inTurn]
    exact Meets.congr (fun store => store.SoundRows ∧ store.SoundConflicts)
      (fun bundle _ state sound => judgeStory_fails_iff registered started sound _ bundle)
      (fun _ _ _ _ _ sound judged => Store.sound_along registered sound (judgeStory_trail judged))
      both
  rw [same]
  unfold judgeAndApply
  rw [fails_bind, judging, Prod.exists]
  refine or_congr_right (exists_congr fun summaries => exists_congr fun judged =>
    and_congr_right fun done => ?_)
  have judgedChained : judged.Chained :=
    chained.along registered (.of_inTurn (fun _ _ _ _ => judgeStory_trail) done)
  dsimp only
  cases summaries.flatten with
  | nil =>
      refine (Orderly.map (Orderly.eachInTurn Store.Chained (fun bundle _ state before =>
        applyStory_orderly registered started before _ bundle) ?_ judgedChained) _).fails_iff.trans
        ⟨fun beyond => ⟨rfl, beyond⟩, And.right⟩
      intro bundle _ state applied after before done
      exact before.along registered (applyStory_trail done)
  | cons first rest =>
      refine iff_of_false (not_fails_ok _) ?_
      rintro ⟨impossible, _⟩
      cases impossible

end Env

/-! ## Requests that make no sense -/

/-- If a request is not answered, it makes no sense. -/
def OnlyBad {α : Type} (answer : Except RequestError α) : Prop :=
  ∀ error, answer = .error error → ∃ fault, error = .bad fault

namespace OnlyBad

variable {α β σ : Type}

theorem ok (value : α) : OnlyBad (.ok value) := nofun

theorem bad (fault : RequestFault) : OnlyBad (.error (.bad fault) : Except RequestError α) := by
  rintro _ ⟨⟩
  exact ⟨fault, rfl⟩

theorem ofFault (answer : Except RequestFault α) : OnlyBad (RequestError.ofFault answer) := by
  cases answer with
  | error fault => exact bad fault
  | ok value => exact ok value

theorem bind {first : Except RequestError α} {rest : α → Except RequestError β}
    (head : OnlyBad first) (tail : ∀ value, OnlyBad (rest value)) : OnlyBad (first >>= rest) := by
  cases first with
  | error error =>
      rintro _ ⟨⟩
      exact head error rfl
  | ok value => exact tail value

/-- An operation that is not refused does not refuse the request. -/
theorem ofRefusal {answer : Except Refusal α} (carried : ∃ value, answer = .ok value) :
    OnlyBad (RequestError.ofRefusal answer) := by
  obtain ⟨value, rfl⟩ := carried
  exact ok value

theorem eachInTurn {step : α → σ → Except RequestError (β × σ)}
    (each : ∀ item state, OnlyBad (step item state)) (items : List α) (state : σ) :
    OnlyBad (inTurn step items state) := by
  induction items generalizing state with
  | nil => exact ok _
  | cons item rest ih => exact (each item state).bind fun _ => (ih _).bind fun _ => ok _

end OnlyBad

namespace Env

variable {env : Env} (registered : env.registry = .standard)

include registered

theorem exists_keyedAttributes (store : Store) (owner : EntityId) :
    ∃ keyed, env.keyedAttributes store owner = .ok keyed := by
  have single (id : EntityId) : ∃ keyed, env.keyedAttribute? store id = .ok keyed := by
    unfold keyedAttribute?
    rw [record?_standard registered]
    cases (store.row? id).filter fun row => !row.deleted with
    | none => exact ⟨_, rfl⟩
    | some row => exact ⟨_, rfl⟩
  unfold keyedAttributes
  rw [record?_standard registered]
  cases (store.row? owner).filter fun row => !row.deleted with
  | none => exact ⟨_, rfl⟩
  | some row =>
      obtain ⟨linked, read⟩ := exists_mapM_eq_ok fun id (_ : id ∈ (store.load
        (standard row.kind) owner).members attributeRelation) => single id
      exact ⟨_, bind_eq_ok.mpr ⟨_, rfl, bind_eq_ok.mpr ⟨linked, read, rfl⟩⟩⟩

theorem readLink_onlyBad (json : Json) (state : KeyedAttributes × Store) :
    OnlyBad (env.readLink json state) := by
  obtain ⟨keyed, store⟩ := state
  unfold readLink
  dsimp only
  split
  · exact (OnlyBad.ofFault _).bind fun _ => .ok _
  · refine (OnlyBad.ofFault _).bind fun members =>
      (OnlyBad.ofRefusal ⟨_, descriptor_standard registered .attr⟩).bind fun _ =>
        (OnlyBad.ofFault _).bind fun content => OnlyBad.bind ?_ fun _ =>
          (OnlyBad.ofFault _).bind fun _ => .ok _
    unfold attributeId
    split
    · exact (OnlyBad.ofFault _).bind fun _ => .ok _
    · split
      · exact .ok _
      · exact .ok _

theorem readLinks_onlyBad (owner : EntityId) (json : Option Json) (store : Store) :
    OnlyBad (env.readLinks owner json store) := by
  unfold readLinks
  split
  · exact .ok _
  · split
    · exact .bad _
    · exact (OnlyBad.ofRefusal (exists_keyedAttributes registered store owner)).bind fun _ =>
        (OnlyBad.eachInTurn (readLink_onlyBad registered) _ _).bind fun _ => .ok _

omit registered in
theorem id_onlyBad (what : String) (members : Dict String Json) (store : Store) :
    OnlyBad (Intake.id env what members store) := by
  unfold Intake.id
  split
  · exact .ok _
  · exact .ok _
  · exact (OnlyBad.ofFault _).bind fun _ => .ok _

theorem readItem_onlyBad (json : Json) (store : Store) : OnlyBad (env.readItem json store) :=
  (OnlyBad.ofFault _).bind fun members => (id_onlyBad _ members store).bind fun _ =>
    (OnlyBad.ofRefusal ⟨_, descriptor_standard registered .newsItem⟩).bind fun _ =>
      (OnlyBad.ofFault _).bind fun _ => (readLinks_onlyBad registered _ _ _).bind fun _ =>
        (OnlyBad.ofFault _).bind fun _ => .ok _

theorem readItems_onlyBad (json : Option Json) (store : Store) :
    OnlyBad (env.readItems json store) := by
  unfold readItems
  split
  · exact .ok _
  · split
    · exact .bad _
    · exact .eachInTurn (readItem_onlyBad registered) _ _

theorem readStory_onlyBad (json : Json) (store : Store) : OnlyBad (env.readStory json store) :=
  (OnlyBad.ofFault _).bind fun members => (id_onlyBad _ members store).bind fun _ =>
    (OnlyBad.ofRefusal ⟨_, descriptor_standard registered .story⟩).bind fun _ =>
      (OnlyBad.ofFault _).bind fun _ => (readLinks_onlyBad registered _ _ _).bind fun _ =>
        (readItems_onlyBad registered _ _).bind fun _ => (OnlyBad.ofFault _).bind fun _ => .ok _

/-- A push that cannot be read makes no sense. -/
theorem readPush_onlyBad (producer : String) (body : Json) (store : Store) :
    OnlyBad (env.readPush producer body store) := by
  refine (OnlyBad.ofFault _).bind fun stories => ?_
  split
  · exact .bad _
  · exact (OnlyBad.eachInTurn (readStory_onlyBad registered) _ _).bind fun _ => .ok _

/-- A resolution that cannot be read makes no sense. -/
theorem readResolution_onlyBad (kind : Kind) (body : Json) :
    OnlyBad (env.readResolution kind body) := by
  unfold readResolution
  split
  · exact .bad _
  · exact (OnlyBad.ofFault _).bind fun _ =>
      (OnlyBad.ofRefusal ⟨_, descriptor_standard registered kind⟩).bind fun _ =>
        (OnlyBad.ofFault _).bind fun _ => .ok _

end Env

/-! ## Responses -/

/-- The response is a server error exactly where `fails` is so, and otherwise has one of the statuses
that tell what became of the request. -/
inductive Response.ErrsIff (fails : Prop) (response : Response) : Prop
  | told (within : ¬ fails) (status : response.status ∈ [200, 400, 404, 409]) :
      Response.ErrsIff fails response
  | erred (beyond : fails) (status : response.status = 500) : Response.ErrsIff fails response

theorem Refusal.status_of_ordinary {refusal : Refusal} (ordinary : refusal.Ordinary) :
    refusal.status ∈ [200, 400, 404, 409] := by
  cases refusal <;> first | exact ordinary.elim | simp [status]

theorem Refusal.status_of_uncommon {refusal : Refusal} (uncommon : ¬ refusal.Ordinary) :
    refusal.status = 500 := by
  cases refusal <;> first | exact absurd trivial uncommon | rfl

namespace Response.ErrsIff

/-- What cannot be read is answered with what makes no sense about it. -/
theorem ofBad {fails : Prop} (within : ¬ fails) {error : RequestError}
    (bad : ∃ fault, error = .bad fault) : ErrsIff fails (.of (.error error)) := by
  obtain ⟨fault, rfl⟩ := bad
  exact .told within (by simp [Response.of, RequestError.status])

/-- An operation that fails is answered with a server error, any other is not. -/
theorem ofRefusal {answer : Except Refusal Json} {fails : Prop} (same : Fails answer ↔ fails) :
    ErrsIff fails (.of (RequestError.ofRefusal answer)) := by
  cases answer with
  | ok body => exact .told (same.not.mp (not_fails_ok body)) (List.mem_cons_self)
  | error refusal =>
      by_cases ordinary : refusal.Ordinary
      · exact .told (same.not.mp fun fails => fails_error.mp fails ordinary)
          (Refusal.status_of_ordinary ordinary)
      · exact .erred (same.mp (fails_error.mpr ordinary)) (Refusal.status_of_uncommon ordinary)

end Response.ErrsIff

namespace Env

variable {env : Env} {store : Store}

/-- A push that can be read fails exactly where its submission does. -/
theorem push_errsIff (registered : env.registry = .standard) (started : ¬ env.now < 0)
    (chained : store.Chained) (sound : store.SoundConflicts) (producer : String) (body : Json) :
    Response.ErrsIff
      (∃ submission read, env.readPush producer body store = .ok (submission, read) ∧
        (env.SubmissionOverflows submission read ∨ env.SubmissionExhausts submission read))
      (env.push producer body store).1 := by
  cases taken : env.readPush producer body store with
  | error error =>
      have refused : env.push producer body store = (.of (.error error), store) := by
        unfold push
        rw [taken]
      rw [refused]
      exact .ofBad (fun ⟨_, _, impossible, _⟩ => nomatch impossible)
        (readPush_onlyBad registered producer body store error taken)
  | ok given =>
      obtain ⟨submission, read⟩ := given
      have draws := readPush_drawsAhead taken
      have readChained : read.Chained := chained.along rfl (draws.trail .standard)
      have readSound : read.SoundConflicts := by
        rw [draws.drawsOnly]
        exact sound.of_rows rfl fun id row found => ⟨row, found, rfl⟩
      have fails := submit_fails_iff registered started readChained readSound submission
      have same : Fails (env.submit submission read).1 ↔
          ∃ other last, Except.ok (submission, read) = (.ok (other, last) : Except RequestError _) ∧
            (env.SubmissionOverflows other last ∨ env.SubmissionExhausts other last) := by
        rw [fails]
        constructor
        · exact fun beyond => ⟨submission, read, rfl, beyond⟩
        · rintro ⟨_, _, ⟨⟩, beyond⟩
          exact beyond
      cases answer : (env.submit submission read).1 with
      | error refusal =>
          rw [push_of_refused taken answer]
          rw [answer] at same
          have again : Fails (.error refusal : Except Refusal Json) ↔ _ :=
            fails_error.trans (fails_error.symm.trans same)
          exact .ofRefusal again
      | ok applied =>
          obtain ⟨stories, shown⟩ :=
            submit_presents registered readChained.traced.recorded.rows answer
          rw [push_of_accepted taken answer shown]
          rw [answer] at same
          exact .told (same.not.mp (not_fails_ok applied)) List.mem_cons_self

/-- A resolution that can be read fails exactly where there is a conflict and its record would get a
version that cannot be stored. -/
theorem resolveRequest_errsIff (registered : env.registry = .standard) (started : ¬ env.now < 0)
    (chained : store.Chained) (kind : Kind) (rawId : String) (body : Json) (actor : Actor) :
    Response.ErrsIff
      (∃ id resolution, EntityId.ofPath rawId = .ok id ∧
        env.readResolution kind body = .ok resolution ∧
        (store.conflict? kind id).isSome = true ∧ env.EditExhausts kind id resolution.applyTo store)
      (env.resolveRequest kind rawId body actor store).1 := by
  unfold resolveRequest
  cases path : EntityId.ofPath rawId with
  | error error =>
      refine .ofBad (fun ⟨_, _, impossible, _⟩ => nomatch impossible) ?_
      unfold EntityId.ofPath at path
      split at path
      · cases path
      · cases path
        exact ⟨_, rfl⟩
  | ok id =>
      cases given : env.readResolution kind body with
      | error error =>
          exact .ofBad (fun ⟨_, _, _, impossible, _⟩ => nomatch impossible)
            (readResolution_onlyBad registered kind body error given)
      | ok resolution =>
          have fails := (resolve_orderly registered started chained kind id resolution
            actor).fails_iff
          have same : Fails ((env.resolve kind id resolution actor store).1.map
              fun resolved => resolved.record.toJson) ↔
              Fails (env.resolve kind id resolution actor store).1 := by
            cases (env.resolve kind id resolution actor store).1 with
            | error refusal => exact fails_error.trans fails_error.symm
            | ok resolved => exact iff_of_false (not_fails_ok _) (not_fails_ok _)
          refine .ofRefusal (same.trans (fails.trans ?_))
          constructor
          · exact fun beyond => ⟨id, resolution, rfl, rfl, beyond⟩
          · rintro ⟨_, _, ⟨⟩, ⟨⟩, beyond⟩
            exact beyond

end Env

/-- Whatever is sent to push stories or to resolve a conflict, the response is a server error only
where a version that has to be stored is out of range: the next version of a record, or, of a push,
the version that is declared for a record with a conflict that is not held already. -/
theorem Reachable.requests_answered {store : Store} (reachable : Reachable .standard store)
    {env : Env} (registered : env.registry = .standard) (started : ¬ env.now < 0) :
    (∀ producer body, Response.ErrsIff
      (∃ submission read, env.readPush producer body store = .ok (submission, read) ∧
        (env.SubmissionOverflows submission read ∨ env.SubmissionExhausts submission read))
      (env.push producer body store).1) ∧
    ∀ kind rawId body actor, Response.ErrsIff
      (∃ id resolution, EntityId.ofPath rawId = .ok id ∧
        env.readResolution kind body = .ok resolution ∧
        (store.conflict? kind id).isSome = true ∧ env.EditExhausts kind id resolution.applyTo store)
      (env.resolveRequest kind rawId body actor store).1 :=
  ⟨Env.push_errsIff registered started reachable.chained reachable.sound.2,
    Env.resolveRequest_errsIff registered started reachable.chained⟩

/-- A new title for a story, from who declares to have seen a version that cannot be stored. -/
def Json.overflowing : Json :=
  .array [.object [("id", .text "00000000-0000-0000-0000-000000000002"),
    ("base_version", .int 9223372036854775808), ("title", .text "other")]]

/-- The declared version is read, but its conflict cannot be written down. -/
theorem requests_answered_overflowing :
    Reachable .standard .withFiledItem ∧ ¬ (0 : Int64) < 0 ∧
    ∃ submission read,
      Env.readPush ⟨.standard, 3, 0⟩ "feed" .overflowing .withFiledItem = .ok (submission, read) ∧
      (Env.SubmissionOverflows ⟨.standard, 3, 0⟩ submission read ∨
        Env.SubmissionExhausts ⟨.standard, 3, 0⟩ submission read) := by
  have reachable : Reachable .standard .withFiledItem := reachable_following ⟨.standard, 3, 0⟩ _
  have started : ¬ (0 : Int64) < 0 := by decide
  have erred : (Env.push ⟨.standard, 3, 0⟩ "feed" .overflowing .withFiledItem).1.status = 500 := by
    decide +kernel
  have answered := (@Reachable.requests_answered _ reachable ⟨.standard, 3, 0⟩ rfl started).1 "feed"
    .overflowing
  cases answered with
  | told _ status =>
      rw [erred] at status
      exact absurd status (by decide)
  | erred beyond _ => exact ⟨reachable, started, beyond⟩

/-- So it is not true that a push is a server error only where the next version of a record cannot be
stored. -/
theorem not_requests_answered_within :
    ¬ ∀ (env : Env) (store : Store) (producer : String) (body : Json),
      env.registry = .standard → Reachable .standard store → ¬ env.now < 0 →
      (∀ submission read, env.readPush producer body store = .ok (submission, read) →
        ¬ env.SubmissionExhausts submission read) →
      (env.push producer body store).1.status ∈ [200, 400, 404, 409] := by
  intro answered
  have reachable : Reachable .standard .withFiledItem := reachable_following ⟨.standard, 3, 0⟩ _
  have unjudged : ((Env.readPush ⟨.standard, 3, 0⟩ "feed" .overflowing
      .withFiledItem).toOption.all fun given =>
        !(inTurn (Env.judgeStory ⟨.standard, 3, 0⟩ given.1.scope) given.1.stories given.2).isOk) =
          true := by decide +kernel
  have erred : (Env.push ⟨.standard, 3, 0⟩ "feed" .overflowing .withFiledItem).1.status = 500 := by
    decide +kernel
  have told := answered ⟨.standard, 3, 0⟩ _ "feed" .overflowing rfl reachable (by decide) ?_
  · rw [erred] at told
    exact absurd told (by decide)
  · rintro submission read taken ⟨summaries, judged, done, _⟩
    rw [taken] at unjudged
    change (!(inTurn _ _ _).isOk) = true at unjudged
    rw [done] at unjudged
    cases unjudged

end Chronicle
