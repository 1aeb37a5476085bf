import Chronicle.Proofs.Commit
import Chronicle.Submission

/-!
# Divergent mentions

A submission mentions records. A mention diverges from the store if its record is live, the
producer has not seen the stored version, and what was sent counts as something else than what
is stored. This is what is looked for before a submission is applied (`Env.stale?_mention_eq_ok`).
-/

namespace Chronicle

open Descriptor (standard)

/-! ## Mentions -/

/-- A record that a submission names, as it was sent. -/
structure Mention where
  kind : Kind
  sent : Bundle
  deriving DecidableEq

/-- The story itself, with the submitted items. -/
def StoryBundle.sent (bundle : StoryBundle) : Bundle := ⟨bundle.id, bundle.base, bundle.proposed⟩

/-- A story, then its items, then its attributes. -/
def StoryBundle.mentions (bundle : StoryBundle) : List Mention :=
  ⟨.story, bundle.sent⟩ :: (bundle.items.map (Mention.mk .newsItem) ++
    bundle.attributes.map (Mention.mk .attr))

theorem StoryBundle.item_mem_mentions {bundle : StoryBundle} {sent : Bundle}
    (listed : sent ∈ bundle.items) : Mention.mk .newsItem sent ∈ bundle.mentions :=
  List.mem_cons_of_mem _ (List.mem_append_left _ (List.mem_map.mpr ⟨sent, listed, rfl⟩))

theorem StoryBundle.attr_mem_mentions {bundle : StoryBundle} {sent : Bundle}
    (listed : sent ∈ bundle.attributes) : Mention.mk .attr sent ∈ bundle.mentions :=
  List.mem_cons_of_mem _ (List.mem_append_right _ (List.mem_map.mpr ⟨sent, listed, rfl⟩))

/-- All records that a submission names, story by story. -/
def Submission.mentions (submission : Submission) : List Mention :=
  submission.stories.flatMap StoryBundle.mentions

/-! ## Divergence -/

/-- The row of a record that is live. -/
def Store.live? (store : Store) (id : EntityId) : Option EntityRow :=
  (store.row? id).filter fun row => !row.deleted

/-- The stored row that a mention would overwrite with something else, without having seen it. -/
def Mention.divergent? (store : Store) (mention : Mention) : Option EntityRow :=
  (store.live? mention.sent.id).filter fun row =>
    decide (mention.sent.base ≠ some row.version) &&
      decide ((standard mention.kind).normal row.content ≠
        (standard mention.kind).normal mention.sent.content)

theorem Store.live?_eq_some_iff {store : Store} {id : EntityId} {row : EntityRow} :
    store.live? id = some row ↔ store.row? id = some row ∧ row.deleted = false := by
  rw [live?, Option.filter_eq_some_iff, Bool.not_eq_true']

theorem Mention.divergent?_eq_some_iff {store : Store} {mention : Mention} {row : EntityRow} :
    mention.divergent? store = some row ↔ store.live? mention.sent.id = some row ∧
      mention.sent.base ≠ some row.version ∧
      (standard mention.kind).normal row.content ≠
        (standard mention.kind).normal mention.sent.content := by
  rw [divergent?, Option.filter_eq_some_iff, Bool.and_eq_true, decide_eq_true_eq, decide_eq_true_eq]

/-- The record that a row is read as. -/
def EntityRow.record (row : EntityRow) (id : EntityId) : Record :=
  ⟨id, row.kind, row.version, row.content⟩

namespace Env

variable {env : Env} {store : Store}

theorem record?_of_sound (registered : env.registry = .standard) (sound : store.SoundRows)
    (id : EntityId) :
    env.record? store id = .ok ((store.live? id).map fun row => row.record id) := by
  rw [record?_standard registered, Store.live?]
  cases found : store.row? id with
  | none => rfl
  | some row =>
      have loaded := Store.load_of_sound sound found
      cases live : row.deleted with
      | true => simp [Option.filter, live]
      | false => simp [Option.filter, live, EntityRow.record, loaded]

/-- A live record of a kind is read as its row. -/
theorem live_eq_ok (registered : env.registry = .standard) (sound : store.SoundRows)
    {kind : Kind} {id : EntityId} {record : Record} :
    env.live store kind id = .ok record ↔
      ∃ row, store.row? id = some row ∧ row.deleted = false ∧ row.kind = kind ∧
        record = row.record id := by
  unfold Env.live
  rw [record?_of_sound registered sound]
  cases found : store.row? id with
  | none => simp
  | some row =>
      have live : row.deleted = false → store.live? id = some row := fun live =>
        Store.live?_eq_some_iff.mpr ⟨found, live⟩
      simp only [Option.some.injEq, exists_eq_left']
      constructor
      · intro given
        split at given
        · cases given
        · rename_i notDeleted
          have isLive := Bool.eq_false_iff.mpr notDeleted
          split at given
          · cases given
          · rename_i sameKind
            rw [live isLive] at given
            exact ⟨isLive, not_not.mp sameKind, (Except.ok.inj given).symm⟩
      · rintro ⟨isLive, rfl, rfl⟩
        rw [if_neg (by simp [isLive]), if_neg (not_not_intro rfl), live isLive]
        rfl

/-- A record is looked at if it has the kind that was named, or is not live. What is found is
what has not been seen and would be changed. -/
theorem stale?_eq_ok (registered : env.registry = .standard) (sound : store.SoundRows)
    {kind : Kind} {sent : Bundle} {outdated : Option Record} :
    env.stale? store kind sent = .ok outdated ↔
      (∀ row, store.live? sent.id = some row → row.kind = kind) ∧
        outdated = ((store.live? sent.id).filter fun row =>
          decide (sent.base ≠ some row.version) &&
            ((standard kind).compare (some row.content) (some sent.content)).isMaterial).map
          fun row => row.record sent.id := by
  unfold stale?
  rw [record?_of_sound registered sound]
  cases store.live? sent.id with
  | none =>
      constructor
      · intro given
        exact ⟨nofun, (Except.ok.inj given).symm⟩
      · rintro ⟨_, rfl⟩
        rfl
  | some row =>
      change (if row.kind ≠ kind then _ else _) = _ ↔ _
      by_cases fits : row.kind = kind
      · rw [if_neg (not_not_intro fits), descriptor_standard registered]
        have looked : (if sent.base = some row.version then .ok none else .ok
              (if ((standard kind).compare (some row.content) (some sent.content)).isMaterial
                then some (row.record sent.id) else none) : Except Refusal (Option Record)) =
            .ok (((some row).filter fun row => decide (sent.base ≠ some row.version) &&
              ((standard kind).compare (some row.content) (some sent.content)).isMaterial).map
              fun row => row.record sent.id) := by
          by_cases seen : sent.base = some row.version
          · simp [Option.filter, seen]
          · cases material : ((standard kind).compare (some row.content)
                (some sent.content)).isMaterial with
            | false => simp [Option.filter, seen, material]
            | true => simp [Option.filter, seen, material]
        refine Iff.trans (Eq.congr_left looked) ?_
        constructor
        · intro given
          exact ⟨fun other same => Option.some.inj same ▸ fits, (Except.ok.inj given).symm⟩
        · rintro ⟨_, rfl⟩
          rfl
      · rw [if_pos fits]
        constructor
        · intro given
          cases given
        · rintro ⟨all, _⟩
          exact absurd (all row rfl) fits

/-- Of a mention that is acceptable, what is found is what diverges. -/
theorem stale?_mention_eq_ok (registered : env.registry = .standard) (sound : store.SoundRows)
    {mention : Mention} (accepted : (standard mention.kind).check mention.sent.content = .ok ())
    {outdated : Option Record} :
    env.stale? store mention.kind mention.sent = .ok outdated ↔
      (∀ row, store.live? mention.sent.id = some row → row.kind = mention.kind) ∧
        outdated = (mention.divergent? store).map fun row => row.record mention.sent.id := by
  rw [stale?_eq_ok registered sound]
  refine and_congr_right ?_
  intro fits
  have counts : ((store.live? mention.sent.id).filter fun row =>
        decide (mention.sent.base ≠ some row.version) && ((standard mention.kind).compare
          (some row.content) (some mention.sent.content)).isMaterial) =
      mention.divergent? store := by
    unfold Mention.divergent?
    cases live : store.live? mention.sent.id with
    | none => rfl
    | some row =>
        obtain ⟨found, _⟩ := Store.live?_eq_some_iff.mp live
        have rowAccepted := (sound mention.sent.id row found).accepted
        rw [fits row live] at rowAccepted
        rw [Option.filter, Option.filter,
          Descriptor.standard_isMaterial rowAccepted accepted]
  rw [counts]

end Env

end Chronicle
