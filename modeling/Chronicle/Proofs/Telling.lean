import Chronicle.Proofs.Turns

/-!
# What turns do to pending conflicts

A turn that notices nothing removes the conflicts that it does not leave (`Env.take_quiet`), and
one that notices a conflict puts it in the place of its record, where it continues what was
pending (`Env.take_told`). As long as no turn notices a conflict of a record, the one that is
pending for it stays exactly if all of them leave it (`Env.inTurn_untold`).
-/

namespace Chronicle

open Descriptor (standard)

/-! ## Conflicts that are left -/

/-- The record that a conflict is about. -/
def Conflict.name (conflict : Conflict) : Kind × EntityId := (conflict.kind, conflict.entity)

/-- Whether a turn leaves a conflict pending if it notices none. It leaves what another producer
has set, what is about other records than the one that is judged, and what is about members that
the story is sent with or that came with another story. -/
def Turn.Leaves (scope : Scope) (conflict : Conflict) : Turn → Prop
  | .judge _ mention => mention.name = conflict.name → conflict.scope ≠ scope
  | .drop bundle kind =>
      kind = conflict.kind → conflict.scope = scope →
        conflict.parent.map Parent.story = some bundle.id → conflict.entity ∈ bundle.memberIds kind

instance (scope : Scope) (conflict : Conflict) (turn : Turn) :
    Decidable (turn.Leaves scope conflict) := by
  cases turn <;> unfold Turn.Leaves <;> infer_instance

namespace Store

variable {store : Store}

/-- The store with those of its pending conflicts that a turn leaves. -/
def leftBy (store : Store) (scope : Scope) (turn : Turn) : Store :=
  { store with
    conflicts := store.conflicts.filter fun _ conflict => decide (turn.Leaves scope conflict) }

theorem leftBy_eq_self {scope : Scope} {turn : Turn}
    (all : ∀ key conflict, store.conflicts.get? key = some conflict →
      turn.Leaves scope conflict) : store.leftBy scope turn = store := by
  have same : (store.conflicts.filter fun _ conflict => decide (turn.Leaves scope conflict)) =
      store.conflicts :=
    Dict.filter_eq_self fun key conflict found => decide_eq_true (all key conflict found)
  rw [leftBy, same]

theorem SoundConflicts.name_eq (sound : store.SoundConflicts) {key : Kind × EntityId}
    {conflict : Conflict} (found : store.conflicts.get? key = some conflict) :
    conflict.name = key := by
  obtain ⟨kind, entity⟩ := sound.keyed key conflict found
  exact Prod.ext kind entity

namespace Disputed

/-- Conflicts of one store with one identifier are the same. -/
theorem eq_of_id (disputed : store.Disputed) {key other : Kind × EntityId}
    {first second : Conflict} (found : store.conflicts.get? key = some first)
    (otherFound : store.conflicts.get? other = some second) (same : first.id = second.id) :
    first = second := by
  have here := disputed.apart key other first second found otherFound same
  rw [here, otherFound] at found
  exact (Option.some.inj found).symm

/-- Withdrawing the conflict of a record that is judged removes what that turn does not leave. -/
theorem withdrawConflict_eq (disputed : store.Disputed) (scope : Scope) (bundle : StoryBundle)
    (mention : Mention) :
    store.withdrawConflict mention.kind mention.sent.id scope =
      store.leftBy scope (.judge bundle mention) := by
  unfold withdrawConflict
  cases pendingHere : store.conflict? mention.kind mention.sent.id with
  | none =>
      refine (leftBy_eq_self ?_).symm
      intro key conflict found named
      rw [← disputed.sound.name_eq found, ← named] at found
      exact absurd (found.symm.trans pendingHere) nofun
  | some pending =>
      have own : pending.name = mention.name := disputed.sound.name_eq pendingHere
      have here {key : Kind × EntityId} {conflict : Conflict}
          (found : store.conflicts.get? key = some conflict)
          (named : mention.name = conflict.name) : conflict = pending := by
        rw [← disputed.sound.name_eq found, ← named] at found
        exact Option.some.inj (found.symm.trans pendingHere)
      by_cases set : pending.scope = scope
      · dsimp only
        rw [if_pos set, deleteConflict, leftBy]
        refine congrArg (fun table => { store with conflicts := table }) (Dict.filter_congr ?_)
        intro key conflict found
        rw [← Bool.decide_and, ← decide_not, decide_eq_decide, not_and']
        constructor
        · intro stays named foreign
          cases here found named
          exact stays rfl (congrArg Prod.fst ((disputed.sound.name_eq found).symm.trans own))
        · intro leaves same kind
          cases disputed.eq_of_id found pendingHere same
          exact leaves own.symm set
      · dsimp only
        rw [if_neg set]
        refine (leftBy_eq_self ?_).symm
        intro key conflict found named
        cases here found named
        exact set

/-- The conflicts of a kind that pass a test are listed. -/
theorem mem_conflictsWhere (disputed : store.Disputed) {kind : Kind} {test : Conflict → Bool}
    {conflict : Conflict} :
    conflict ∈ store.conflictsWhere kind test ↔
      store.conflicts.get? (kind, conflict.entity) = some conflict ∧ test conflict = true := by
  rw [conflictsWhere, Dict.mem_values_ofList_map, Dict.mem_values_iff]
  · simp only [Dict.get?_filter, Option.filter_eq_some_iff, Bool.and_eq_true, decide_eq_true_eq]
    constructor
    · rintro ⟨key, found, rfl, passes⟩
      have here : key = (key.1, conflict.entity) :=
        Prod.ext rfl (disputed.sound.keyed key conflict found).2.symm
      rw [← here]
      exact ⟨found, passes⟩
    · rintro ⟨found, passes⟩
      exact ⟨_, found, rfl, passes⟩
  · intro first firstListed second secondListed same
    obtain ⟨key, found⟩ := (Dict.mem_values_iff _).mp firstListed
    obtain ⟨other, otherFound⟩ := (Dict.mem_values_iff _).mp secondListed
    rw [Dict.get?_filter, Option.filter_eq_some_iff] at found otherFound
    exact disputed.eq_of_id found.1 otherFound.1 (congrArg Prod.snd same)

/-- The conflicts that a producer set with a story. -/
theorem mem_memberConflicts (disputed : store.Disputed) {kind : Kind} {scope : Scope}
    {story : EntityId} {conflict : Conflict} :
    conflict ∈ store.memberConflicts kind scope story ↔
      store.conflicts.get? (kind, conflict.entity) = some conflict ∧ conflict.scope = scope ∧
        conflict.parent.map Parent.story = some story := by
  have parent : (conflict.parent.any fun parent => decide (parent.story = story)) = true ↔
      conflict.parent.map Parent.story = some story := by
    cases conflict.parent with
    | none => simp
    | some parent => simp
  by_cases isStory : kind = .story
  · subst isStory
    constructor
    · rintro ⟨⟩
    · rintro ⟨found, _, sentWith⟩
      have parented := (disputed.stands _ conflict found).parented
      rw [(disputed.sound.keyed _ conflict found).1] at parented
      have none : conflict.parent = none := by simpa using parented
      rw [none] at sentWith
      cases sentWith
  · rw [memberConflicts, if_neg isStory, disputed.mem_conflictsWhere, Bool.and_eq_true,
      decide_eq_true_eq, parent]

/-- What is pending is what the listings of all kinds tell. -/
theorem conflicts_eq_iff (disputed : store.Disputed) {other : Store} (otherDisputed : other.Disputed) :
    other.conflicts = store.conflicts ↔
      ∀ kind, other.conflictsOf kind = store.conflictsOf kind := by
  constructor
  · intro same kind
    rw [conflictsOf, conflictsOf, conflictsWhere, conflictsWhere, same]
  · intro same
    refine Dict.ext_get? fun key => Option.ext fun conflict => ?_
    have listed {store : Store} (disputed : store.Disputed) :
        store.conflicts.get? key = some conflict ↔
          conflict ∈ store.conflictsOf key.1 ∧ conflict.entity = key.2 := by
      rw [conflictsOf, disputed.mem_conflictsWhere]
      constructor
      · intro found
        obtain ⟨_, entity⟩ := disputed.sound.keyed key conflict found
        exact ⟨⟨by rw [entity]; exact found, rfl⟩, entity⟩
      · rintro ⟨⟨found, _⟩, entity⟩
        rw [entity] at found
        exact found
    rw [listed disputed, listed otherDisputed, same]

end Disputed

theorem foldl_deleteConflict (store : Store) (kind : Kind) (gone : List Conflict) :
    gone.foldl (fun store conflict => store.deleteConflict kind conflict.id) store =
      { store with
        conflicts := store.conflicts.filter fun key conflict =>
          decide (key.1 = kind → conflict.id ∉ gone.map Conflict.id) } := by
  induction gone generalizing store with
  | nil =>
      rw [Dict.filter_eq_self fun _ _ _ => by simp]
      rfl
  | cons first rest ih =>
      rw [List.foldl_cons, ih, deleteConflict]
      refine congrArg (fun table => { store with conflicts := table }) (Dict.ext_get? fun key => ?_)
      simp only [Dict.get?_filter, Option.filter_filter]
      refine congrArg (fun test => (store.conflicts.get? key).filter test) (funext fun conflict => ?_)
      by_cases here : key.1 = kind <;> simp [here]

/-- Dropping the conflicts of members removes what that turn does not leave. -/
theorem Disputed.withdrawDropped_eq (disputed : store.Disputed) (scope : Scope)
    (bundle : StoryBundle) (kind : Kind) :
    store.withdrawDropped kind scope bundle.id (bundle.memberIds kind) =
      store.leftBy scope (.drop bundle kind) := by
  rw [withdrawDropped, foldl_deleteConflict, leftBy]
  refine congrArg (fun table => { store with conflicts := table }) (Dict.filter_congr ?_)
  intro key conflict found
  obtain ⟨ownKind, _⟩ := disputed.sound.keyed key conflict found
  have gone : conflict.id ∈ ((store.memberConflicts kind scope bundle.id).filter fun conflict =>
        conflict.entity ∉ bundle.memberIds kind).map Conflict.id ↔
      conflict ∈ store.memberConflicts kind scope bundle.id ∧
        conflict.entity ∉ bundle.memberIds kind := by
    rw [List.mem_map]
    constructor
    · rintro ⟨other, listed, same⟩
      obtain ⟨member, unsent⟩ := List.mem_filter.mp listed
      cases disputed.eq_of_id (disputed.mem_memberConflicts.mp member).1 found same
      exact ⟨member, of_decide_eq_true unsent⟩
    · rintro ⟨member, unsent⟩
      exact ⟨conflict, List.mem_filter.mpr ⟨member, decide_eq_true unsent⟩, rfl⟩
  rw [decide_eq_decide, gone, disputed.mem_memberConflicts, ← ownKind]
  constructor
  · intro stays same set sentWith
    have here : key = (kind, conflict.entity) :=
      Prod.ext (ownKind.symm.trans same.symm) (disputed.sound.keyed key conflict found).2.symm
    rw [here] at found
    exact Classical.byContradiction fun unsent => stays same.symm ⟨⟨found, set, sentWith⟩, unsent⟩
  · rintro leaves same ⟨⟨_, set, sentWith⟩, unsent⟩
    exact unsent (leaves same.symm set sentWith)

end Store

/-! ## Turns that notice nothing -/

/-- The record that a turn judges has the kind that was named, if it is live. -/
def Turn.Fits (store : Store) : Turn → Prop
  | .judge _ mention => ∀ row, store.live? mention.sent.id = some row → row.kind = mention.kind
  | .drop _ _ => True

/-- What turns look for is the same as long as the records are. -/
theorem Store.KeepsRecords.told?_eq {first store : Store} (kept : first.KeepsRecords store)
    (turn : Turn) : turn.told? store = turn.told? first := by
  cases turn with
  | judge bundle mention => exact kept.divergent?_eq mention
  | drop bundle kind => rfl

theorem Store.KeepsRecords.tells?_eq {first store : Store} (kept : first.KeepsRecords store)
    (turn : Turn) : turn.tells? store = turn.tells? first := by
  cases turn with
  | judge bundle mention => rw [Turn.tells?, Turn.tells?, kept.divergent?_eq]
  | drop bundle kind => rfl

theorem Store.KeepsRecords.tells_iff {first store : Store} (kept : first.KeepsRecords store)
    {name : Kind × EntityId} {turn : Turn} : turn.Tells store name ↔ turn.Tells first name := by
  rw [Turn.Tells, Turn.Tells, kept.tells?_eq]

theorem Store.KeepsRecords.fits_iff {first store : Store} (kept : first.KeepsRecords store)
    {turn : Turn} : turn.Fits store ↔ turn.Fits first := by
  cases turn with
  | judge bundle mention => rw [Turn.Fits, Turn.Fits, kept.live?_eq]
  | drop bundle kind => exact Iff.rfl

theorem Store.Disputed.rows {store : Store} (disputed : store.Disputed) : store.SoundRows :=
  disputed.chained.traced.recorded.rows

namespace Env

variable {env : Env} {scope : Scope} {store after : Store} {answer : Option ConflictSummary}

theorem take_keepsRecords {turn : Turn} (taken : env.take scope turn store = .ok (answer, after)) :
    store.KeepsRecords after := by
  cases turn with
  | judge bundle mention =>
      obtain ⟨_, _, rfl⟩ | ⟨_, _, _, _, noticed⟩ := judge_eq_ok taken
      · exact (Store.Sheds.withdrawConflict store _ _ scope).records
      · exact noticeConflict_keepsRecords noticed
  | drop bundle kind =>
      cases taken
      exact (Store.Sheds.withdrawDropped store kind scope bundle.id _).records

theorem take_disputed (registered : env.registry = .standard) (disputed : store.Disputed)
    {turn : Turn} (taken : env.take scope turn store = .ok (answer, after)) : after.Disputed := by
  have trail := take_trail taken
  rw [registered] at trail
  exact disputed.along trail

/-- A turn that notices nothing removes the conflicts that it does not leave. -/
theorem take_quiet (registered : env.registry = .standard) (disputed : store.Disputed)
    {turn : Turn} (accepted : turn.Accepted) (quiet : turn.told? store = none) :
    env.take scope turn store = .ok (answer, after) ↔
      turn.Fits store ∧ answer = none ∧ after = store.leftBy scope turn := by
  cases turn with
  | judge bundle mention =>
      have looked : env.stale? store mention.kind mention.sent = .ok none ↔ _ :=
        stale?_mention_eq_ok registered disputed.rows accepted
      rw [show mention.divergent? store = none from quiet] at looked
      rw [← disputed.withdrawConflict_eq scope bundle mention]
      constructor
      · intro judged
        obtain ⟨outdated, rfl, rfl⟩ | ⟨record, _, outdated, _, _⟩ := judge_eq_ok judged
        · exact ⟨(looked.mp outdated).1, rfl, rfl⟩
        · have none := ((stale?_mention_eq_ok registered disputed.rows accepted).mp outdated).2
          rw [show mention.divergent? store = Option.none from quiet] at none
          cases none
      · rintro ⟨fits, rfl, rfl⟩
        change env.judge scope mention.kind _ mention.sent store = _
        rw [judge, looked.mpr ⟨fits, rfl⟩]
        rfl
  | drop bundle kind =>
      rw [← disputed.withdrawDropped_eq scope bundle kind, take, Except.ok.injEq, Prod.mk.injEq,
        eq_comm, eq_comm (a := store.withdrawDropped _ _ _ _)]
      exact (and_iff_right trivial).symm

/-! ## Turns that notice a conflict -/

end Env

theorem Conflict.holds_iff {conflict : Conflict} {scope : Scope} {digest : Digest}
    {parent : Option Parent} : conflict.holds scope digest parent = true ↔
      conflict.digest = digest ∧ conflict.parent = parent ∧ conflict.scope = scope := by
  rw [holds, Bool.and_eq_true, Bool.and_eq_true, decide_eq_true_eq, decide_eq_true_eq,
    decide_eq_true_eq, and_assoc]

theorem StoryBundle.parentFor_isSome (bundle : StoryBundle) (kind : Kind) :
    (bundle.parentFor kind).isSome = !decide (kind = .story) := by
  cases kind <;> rfl

theorem StoryBundle.parentFor_story {bundle : StoryBundle} {kind : Kind} {parent : Parent}
    (sent : bundle.parentFor kind = some parent) : parent = ⟨bundle.id, bundle.proposed⟩ := by
  cases kind <;> cases sent <;> rfl

/-- What a story sends its members with takes the place of the parent that was kept; a conflict of a
story has none. -/
theorem Conflict.Stands.parentFor_or {conflict : Conflict} {store : Store}
    (stands : conflict.Stands store) (bundle : StoryBundle) :
    (bundle.parentFor conflict.kind).or conflict.parent = bundle.parentFor conflict.kind := by
  have parented := stands.parented
  rw [← bundle.parentFor_isSome] at parented
  cases sentWith : bundle.parentFor conflict.kind with
  | some parent => rfl
  | none =>
      rw [sentWith] at parented
      rw [Option.isNone_iff_eq_none.mp (Option.isSome_eq_false_iff.mp parented)]
      rfl

/-- A conflict is put in the place of its record as it was noticed for a mention: it continues
what was pending there, or tells the row that was stored. -/
structure Store.Notes (store : Store) (now : Int64) (scope : Scope) (bundle : StoryBundle)
    (mention : Mention) (row : EntityRow) (next : Conflict) (after : Store) : Prop where
  name_eq : next.name = mention.name
  holds : next.holds scope ((standard mention.kind).digest mention.sent.content)
    (bundle.parentFor mention.kind) = true
  continues : ∀ pending, store.conflicts.get? mention.name = some pending → next.Continues pending
  begins : store.conflicts.get? mention.name = none →
    next.firstStored = row.content ∧ next.createdAt = now
  table : after.conflicts = store.conflicts.insert mention.name next

namespace Store.Notes

variable {store after : Store} {now : Int64} {scope : Scope} {bundle : StoryBundle}
  {mention : Mention} {row : EntityRow} {next : Conflict}

theorem parent_eq (notes : store.Notes now scope bundle mention row next after) :
    next.parent = bundle.parentFor mention.kind :=
  (Conflict.holds_iff.mp notes.holds).2.1

theorem scope_eq (notes : store.Notes now scope bundle mention row next after) :
    next.scope = scope :=
  (Conflict.holds_iff.mp notes.holds).2.2

theorem placed (notes : store.Notes now scope bundle mention row next after) :
    after.conflicts.get? mention.name = some next := by
  rw [notes.table, Dict.get?_insert_self]

end Store.Notes

namespace Env

variable {env : Env} {scope : Scope} {store after : Store} {answer : Option ConflictSummary}
  {bundle : StoryBundle} {mention : Mention} {row : EntityRow}

/-- A turn whose mention diverges notices a conflict with the row that is stored. -/
theorem take_notices (registered : env.registry = .standard) (rows : store.SoundRows)
    (accepted : (standard mention.kind).check mention.sent.content = .ok ())
    (told : mention.divergent? store = some row)
    (taken : env.take scope (.judge bundle mention) store = .ok (answer, after)) :
    row.kind = mention.kind ∧ ∃ summary, answer = some summary ∧
      env.noticeConflict (row.record mention.sent.id) scope mention.sent.base mention.sent.content
        (bundle.parentFor mention.kind) store = .ok (summary, after) := by
  obtain ⟨live, _⟩ := Mention.divergent?_eq_some_iff.mp told
  obtain ⟨outdated, _⟩ | ⟨record, summary, outdated, rfl, noticed⟩ := judge_eq_ok taken
  · have none := ((stale?_mention_eq_ok registered rows accepted).mp outdated).2
    rw [told] at none
    cases none
  obtain ⟨fits, found⟩ := (stale?_mention_eq_ok registered rows accepted).mp outdated
  rw [told, Option.map_some, Option.some.injEq] at found
  subst found
  exact ⟨fits row live, summary, rfl, noticed⟩

/-- A turn whose mention diverges notices the conflict, and tells what is noticed. -/
theorem take_told (registered : env.registry = .standard) (disputed : store.Disputed)
    (accepted : (standard mention.kind).check mention.sent.content = .ok ())
    (told : mention.divergent? store = some row)
    (taken : env.take scope (.judge bundle mention) store = .ok (answer, after)) :
    row.kind = mention.kind ∧ ¬ env.now < 0 ∧
      ∃ next, answer = some (next.summary (row.record mention.sent.id)) ∧
        store.Notes env.now scope bundle mention row next after := by
  obtain ⟨kind, summary, rfl, noticed⟩ := take_notices registered disputed.rows accepted told taken
  obtain ⟨_, sent⟩ := mention
  cases kind
  obtain ⟨_, now, known, clock, noticed⟩ := noticeConflict_eq_ok noticed
  cases (descriptor_standard registered row.kind).symm.trans known
  obtain ⟨rfl, started⟩ := clock_eq_ok.mp clock
  refine ⟨rfl, started, ?_⟩
  obtain ⟨pending, here, holds, rfl, rfl⟩ | ⟨pending, _, here, rfl, refreshed, rfl⟩ |
    ⟨_, absent, rfl, inserted, rfl⟩ := noticed
  · change after.conflicts.get? (row.kind, sent.id) = some pending at here
    refine ⟨pending, rfl, disputed.sound.name_eq here, holds, ?_, ?_,
      (Dict.insert_eq_self here).symm⟩
    · intro other otherHere
      cases here.symm.trans otherHere
      exact .refl pending
    · intro absent
      cases here.symm.trans absent
  · change store.conflicts.get? (row.kind, sent.id) = some pending at here
    have named : pending.name = (row.kind, sent.id) := disputed.sound.name_eq here
    obtain ⟨_, _, stored, kept, rfl⟩ := Store.refreshConflict_eq_ok.mp refreshed
    cases disputed.eq_of_conflictWithId? here kept
    have parent := (disputed.stands _ pending here).parentFor_or bundle
    rw [(disputed.sound.keyed _ pending here).1] at parent
    refine ⟨_, rfl, named, Conflict.holds_iff.mpr ⟨rfl, rfl, rfl⟩, ?_, ?_, ?_⟩
    · intro other otherHere
      cases here.symm.trans otherHere
      exact ⟨rfl, rfl, rfl, rfl, rfl⟩
    · intro absent
      cases here.symm.trans absent
    · have place : (pending.kind, pending.entity) = (row.kind, sent.id) := named
      dsimp only [Store.setConflict]
      rw [parent, place]
      rfl
  · change store.conflicts.get? (row.kind, sent.id) = none at absent
    obtain ⟨_, _, _, _, rfl⟩ := Store.insertConflict_eq_ok.mp inserted
    refine ⟨_, rfl, rfl, Conflict.holds_iff.mpr ⟨rfl, rfl, rfl⟩, ?_, fun _ => ⟨rfl, rfl⟩, rfl⟩
    intro other otherHere
    cases absent.symm.trans otherHere

/-- A turn that notices a conflict that is held already tells it, and changes nothing. -/
theorem take_held (registered : env.registry = .standard) (started : ¬ env.now < 0)
    (sound : store.SoundRows)
    (accepted : (standard mention.kind).check mention.sent.content = .ok ())
    (told : mention.divergent? store = some row) (kind : row.kind = mention.kind)
    {pending : Conflict} (here : store.conflicts.get? mention.name = some pending)
    (holds : pending.holds scope ((standard mention.kind).digest mention.sent.content)
      (bundle.parentFor mention.kind) = true) :
    env.take scope (.judge bundle mention) store =
      .ok (some (pending.summary (row.record mention.sent.id)), store) := by
  obtain ⟨live, _⟩ := Mention.divergent?_eq_some_iff.mp told
  have outdated : env.stale? store mention.kind mention.sent =
      .ok (some (row.record mention.sent.id)) :=
    (stale?_mention_eq_ok registered sound accepted).mpr ⟨?_, by rw [told]; rfl⟩
  · have found : store.conflict? (row.record mention.sent.id).kind
        (row.record mention.sent.id).id = some pending := by
      rw [← here, ← show (row.kind, mention.sent.id) = mention.name from Prod.ext kind rfl]
      rfl
    have noticed : env.noticeConflict (row.record mention.sent.id) scope mention.sent.base
        mention.sent.content (bundle.parentFor mention.kind) store =
          .ok (pending.summary (row.record mention.sent.id), store) := by
      unfold noticeConflict
      simp only [bind_eq_ok]
      refine ⟨_, descriptor_standard registered row.kind, _, clock_eq_ok.mpr ⟨rfl, started⟩, ?_⟩
      rw [found]
      dsimp only
      rw [if_pos (by rw [kind, holds])]
      rfl
    change env.judge scope mention.kind _ mention.sent store = _
    rw [judge, outdated]
    exact bind_eq_ok.mpr ⟨_, rfl, bind_eq_ok.mpr ⟨_, noticed, rfl⟩⟩
  · intro other otherLive
    cases live.symm.trans otherLive
    exact kind

/-! ## Runs of turns -/

/-- As long as a turn notices no conflict of a record, the one that is pending stays if it is
left. -/
theorem take_untold (registered : env.registry = .standard) (disputed : store.Disputed)
    {turn : Turn} (accepted : turn.Accepted) {key : Kind × EntityId}
    (untold : ¬ turn.Tells store key)
    (taken : env.take scope turn store = .ok (answer, after)) :
    after.conflicts.get? key =
      (store.conflicts.get? key).filter fun conflict => decide (turn.Leaves scope conflict) := by
  cases told : turn.told? store with
  | none =>
      obtain ⟨_, _, rfl⟩ := (take_quiet registered disputed accepted told).mp taken
      exact Dict.get?_filter _ _ key
  | some row =>
      cases turn with
      | drop bundle kind => cases told
      | judge bundle mention =>
          obtain ⟨_, _, next, _, notes⟩ := take_told registered disputed accepted told taken
          have other : key ≠ mention.name := by
            rintro rfl
            exact untold (Turn.tells_iff.mpr ⟨bundle, mention, row, rfl, told, rfl⟩)
          rw [notes.table, Dict.get?_insert_of_ne _ other]
          cases found : store.conflicts.get? key with
          | none => rfl
          | some conflict =>
              have leaves : (Turn.judge bundle mention).Leaves scope conflict := by
                intro named
                exact absurd ((disputed.sound.name_eq found).symm.trans named.symm) other
              rw [Option.filter, if_pos (decide_eq_true leaves)]

variable {turns : List Turn} {answers : List (Option ConflictSummary)}

theorem inTurn_take_keepsRecords
    (taken : inTurn (env.take scope) turns store = .ok (answers, after)) :
    store.KeepsRecords after :=
  inTurn_keeps (motive := store.KeepsRecords)
    (fun _ _ _ _ _ kept once => kept.trans (take_keepsRecords once)) (.refl store) taken

theorem inTurn_take_disputed (registered : env.registry = .standard) (disputed : store.Disputed)
    (taken : inTurn (env.take scope) turns store = .ok (answers, after)) : after.Disputed :=
  inTurn_keeps (motive := Store.Disputed)
    (fun _ _ _ _ _ disputed once => take_disputed registered disputed once) disputed taken

/-- As long as no turn notices a conflict of a record, the one that is pending stays if all of
them leave it. -/
theorem inTurn_untold (registered : env.registry = .standard) (disputed : store.Disputed)
    (accepted : ∀ turn ∈ turns, turn.Accepted) {key : Kind × EntityId}
    (untold : ∀ turn ∈ turns, ¬ turn.Tells store key)
    (taken : inTurn (env.take scope) turns store = .ok (answers, after)) :
    after.conflicts.get? key =
      (store.conflicts.get? key).filter fun conflict =>
        decide (∀ turn ∈ turns, turn.Leaves scope conflict) := by
  induction turns generalizing store answers with
  | nil =>
      obtain ⟨_, rfl⟩ := inTurn_nil_eq_ok.mp taken
      cases after.conflicts.get? key <;> simp [Option.filter]
  | cons turn rest ih =>
      obtain ⟨_, between, _, once, later, _⟩ := inTurn_cons_eq_ok.mp taken
      obtain ⟨turnAccepted, restAccepted⟩ := List.forall_mem_cons.mp accepted
      obtain ⟨turnUntold, restUntold⟩ := List.forall_mem_cons.mp untold
      have kept := take_keepsRecords once
      rw [ih (take_disputed registered disputed once) restAccepted
        (fun other listed => mt kept.tells_iff.mp (restUntold other listed)) later,
        take_untold registered disputed turnAccepted turnUntold once, Option.filter_filter]
      refine congrArg (fun test => (store.conflicts.get? key).filter test) (funext fun conflict => ?_)
      simp only [List.forall_mem_cons, Bool.decide_and]

end Env

end Chronicle
