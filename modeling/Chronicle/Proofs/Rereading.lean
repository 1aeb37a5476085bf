import Chronicle.Proofs.Drawing
import Chronicle.Proofs.Filling
import Chronicle.Proofs.Indifference
import Chronicle.Proofs.Pushing

/-!
# Reading a push again

Reading a push looks at the records of the store alone. So a body that is read again, from a store
with the same records and with whatever new identifiers, is read the same way, but that identifiers
are drawn anew for the attributes that have none (`Env.readPush_rereads`); if none had to be drawn,
the same is read.
-/

namespace Chronicle

open RequestError (ofFault ofRefusal)

/-! ## What a body names -/

namespace Json

/-- The stories of a body, if it has a list of them. -/
def stories (body : Json) : List Json := (Env.storiesOf body).toOption.getD []

/-- Each story and each item of a body has an identifier. -/
def Identified (body : Json) : Prop :=
  ∀ story ∈ body.stories, story.id?.isSome ∧ ∀ item ∈ story.listed itemRelation, item.id?.isSome

instance (body : Json) : Decidable body.Identified := by
  unfold Identified
  infer_instance

end Json

/-! ## The same records -/

namespace Store

/-- Two identifiers are the same, or neither is that of a record. -/
def SameRecord (store : Store) (first again : EntityId) : Prop :=
  again = first ∨ store.row? first = none ∧ store.row? again = none

theorem SameRecord.refl (store : Store) (id : EntityId) : store.SameRecord id id := Or.inl rfl

/-- What has been read again corresponds to what was read first, and is the same if no identifier
had to be drawn for that, so that as many as at its `start` have been handed out. -/
structure Rereads {α : Type} (base : Store) (start : Nat) (Corresponds : α → α → Prop)
    (first again : α × Store) : Prop where
  kept : base.KeepsRecords first.2
  keptAgain : base.KeepsRecords again.2
  issued : start ≤ first.2.supply.issued.length
  corresponds : Corresponds first.1 again.1
  steady : first.2.supply.issued.length = start → again.1 = first.1

namespace Rereads

variable {α β : Type} {base store other after otherAfter : Store} {start : Nat}
  {Corresponds : α → α → Prop} {Matches : β → β → Prop} {value again : α} {next nextAgain : β}

/-- What does not look at the store is the same. -/
theorem of_kept (kept : base.KeepsRecords store) (keptAgain : base.KeepsRecords other)
    (reflexive : Corresponds value value) :
    base.Rereads store.supply.issued.length Corresponds (value, store) (value, other) :=
  ⟨kept, keptAgain, Nat.le_refl _, reflexive, fun _ => rfl⟩

theorem map (rereads : base.Rereads start Corresponds (value, after) (again, otherAfter))
    (change : α → β) (carried : Corresponds value again → Matches (change value) (change again)) :
    base.Rereads start Matches (change value, after) (change again, otherAfter) :=
  ⟨rereads.kept, rereads.keptAgain, rereads.issued, carried rereads.corresponds,
    fun still => congrArg change (rereads.steady still)⟩

/-- One thing is read after another. -/
theorem both (earlier : base.Rereads start Corresponds (value, store) (again, other))
    (later : base.Rereads store.supply.issued.length Matches (next, after) (nextAgain, otherAfter)) :
    base.Rereads start
      (fun first second => Corresponds first.1 second.1 ∧ Matches first.2 second.2)
      ((value, next), after) ((again, nextAgain), otherAfter) := by
  have early := earlier.issued
  have late := later.issued
  dsimp only at early late
  refine ⟨later.kept, later.keptAgain, Nat.le_trans early late,
    ⟨earlier.corresponds, later.corresponds⟩, fun still => ?_⟩
  dsimp only at still
  exact Prod.ext (earlier.steady (by dsimp only; omega)) (later.steady (by dsimp only; omega))

end Rereads

end Store

/-- Two links are to the same attribute, or both to new ones, and what is submitted with them
too. -/
def Store.SameLink (base : Store) (first again : EntityId × Option Bundle) : Prop :=
  base.SameRecord first.1 again.1 ∧
    Option.Rel base.SameRecord (first.2.map Bundle.id) (again.2.map Bundle.id)

/-- Two stories are the same but for new attributes. -/
structure StoryBundle.Redrawn (base : Store) (first again : StoryBundle) : Prop where
  id_eq : again.id = first.id
  members : ∀ kind, List.Forall₂ base.SameRecord (first.memberIds kind) (again.memberIds kind)

/-- Two submissions are the same but for new attributes. -/
structure Submission.Redrawn (base : Store) (first again : Submission) : Prop where
  scope_eq : again.scope = first.scope
  stories : List.Forall₂ (StoryBundle.Redrawn base) first.stories again.stories

/-- What is read for all items in turn corresponds if it does for each. -/
theorem inTurn_rereads {ε α β : Type} {base : Store}
    {step again : α → Store → Except ε (β × Store)} {Corresponds : β → β → Prop} {items : List α}
    (each : ∀ item ∈ items, ∀ store other, base.KeepsRecords store → base.KeepsRecords other →
      Alike Eq (base.Rereads store.supply.issued.length Corresponds) (step item store)
        (again item other))
    {store other : Store} (kept : base.KeepsRecords store) (keptAgain : base.KeepsRecords other) :
    Alike Eq (base.Rereads store.supply.issued.length (List.Forall₂ Corresponds))
      (inTurn step items store) (inTurn again items other) := by
  induction items generalizing store other with
  | nil => exact .carried (.of_kept kept keptAgain .nil)
  | cons item rest ih =>
      refine (each item List.mem_cons_self store other kept keptAgain).bind ?_
      rintro ⟨result, next⟩ ⟨otherResult, otherNext⟩ once
      refine (ih (fun later listed => each later (List.mem_cons_of_mem item listed))
        once.kept once.keptAgain).bind ?_
      rintro ⟨results, last⟩ ⟨otherResults, otherLast⟩ later
      exact .carried ((once.both later).map (fun both => both.1 :: both.2)
        fun both => .cons both.1 both.2)

namespace Env

variable {env : Env} {base store other : Store}

theorem keyedAttributes_eq (kept : base.KeepsRecords store) (owner : EntityId) :
    env.keyedAttributes store owner = env.keyedAttributes base owner := by
  rw [kept]
  rfl

/-- What has been read of links again, with the linked attributes that are left. -/
def RereadsKeyed {α : Type} (base : Store) (start : Nat) (Corresponds : α → α → Prop)
    (first again : α × KeyedAttributes × Store) : Prop :=
  base.Rereads start (fun first again => Corresponds first.1 again.1 ∧ again.2 = first.2)
    ((first.1, first.2.1), first.2.2) ((again.1, again.2.1), again.2.2)

section Kept

variable (generator : Generator) (kept : base.KeepsRecords store)
  (keptAgain : base.KeepsRecords other)

include kept keptAgain

/-- The new identifiers that are drawn differ perhaps, but neither is in use. -/
theorem newEntityId_rereads (spare : base.entities.size < 2 ^ 128) (generator again : Generator) :
    base.Rereads store.supply.issued.length base.SameRecord (store.newEntityId generator)
      (other.newEntityId again) := by
  have unused {drawn : Store} (kept : base.KeepsRecords drawn) (generator : Generator) :
      base.row? (drawn.newEntityId generator).1 = none := by
    have same : drawn.entities = base.entities := by rw [kept]
    rw [← kept.row?_eq]
    exact Store.row?_newEntityId (by rw [same]; exact spare) generator
  have more : store.supply.issued.length < (store.newEntityId generator).2.supply.issued.length :=
    Nat.lt_succ_self _
  refine ⟨kept.trans (Store.DrawsAhead.newEntityId store generator).drawsOnly.keepsRecords,
    keptAgain.trans (Store.DrawsAhead.newEntityId other again).drawsOnly.keepsRecords,
    Nat.le_of_lt more, Or.inr ⟨unused kept generator, unused keptAgain again⟩, fun still => ?_⟩
  exact absurd still (Nat.ne_of_gt more)

/-- An identifier that is sent is read as it is. -/
theorem id_rereads {members : Dict String Json}
    (given : ((members.get? "id").filter fun id => !id.isNull).isSome) (what : String) :
    Alike Eq (base.Rereads store.supply.issued.length Eq) (Intake.id env what members store)
      (Intake.id (env.withGenerator generator) what members other) := by
  unfold Intake.id
  split
  · rename_i absent
    rw [absent] at given
    cases given
  · rename_i isNull
    rw [isNull] at given
    cases given
  · exact .after fun id => .carried (.of_kept kept keptAgain rfl)

/-- An attribute gets the identifier that is sent or that is linked already, or a new one. -/
theorem attributeId_rereads (spare : base.entities.size < 2 ^ 128) (members : Dict String Json)
    (content : Content) (keyed : KeyedAttributes) :
    Alike Eq (base.Rereads store.supply.issued.length fun first again =>
        base.SameRecord first.1 again.1 ∧ again.2 = first.2)
      (env.attributeId members content keyed store)
      ((env.withGenerator generator).attributeId members content keyed other) := by
  unfold attributeId
  split
  · exact .after fun id => .carried (.of_kept kept keptAgain ⟨.refl base id, rfl⟩)
  · split
    · exact .carried (.of_kept kept keptAgain ⟨.refl base _, rfl⟩)
    · have drawn := newEntityId_rereads kept keptAgain spare env.generator generator
      exact .carried (drawn.map (fun id => (id, keyed)) fun same => ⟨same, rfl⟩)

/-- A link is read again with the same linked attributes left for the others. -/
theorem readLink_rereads (spare : base.entities.size < 2 ^ 128) (json : Json)
    (keyed : KeyedAttributes) :
    Alike Eq (RereadsKeyed base store.supply.issued.length base.SameLink)
      (env.readLink json (keyed, store))
      ((env.withGenerator generator).readLink json (keyed, other)) := by
  unfold readLink
  dsimp only
  split
  · exact .after fun id => .carried (.of_kept kept keptAgain ⟨⟨.refl base id, .none⟩, rfl⟩)
  · refine .after fun members => .after fun descriptor => .after fun content => ?_
    refine (attributeId_rereads generator kept keptAgain spare members content keyed).bind ?_
    rintro ⟨⟨id, left⟩, after⟩ ⟨⟨otherId, otherLeft⟩, otherAfter⟩ named
    refine .after fun base => .carried ?_
    exact named.map
      (fun found => (((found.1, some ⟨found.1, base, content⟩) : EntityId × Option Bundle), found.2))
      fun same => ⟨⟨same.1, .some same.1⟩, same.2⟩

theorem readLinkEntries_rereads (spare : base.entities.size < 2 ^ 128) (entries : List Json)
    (keyed : KeyedAttributes) :
    Alike Eq (RereadsKeyed base store.supply.issued.length (List.Forall₂ base.SameLink))
      (inTurn env.readLink entries (keyed, store))
      (inTurn (env.withGenerator generator).readLink entries (keyed, other)) := by
  induction entries generalizing keyed store other with
  | nil => exact .carried (.of_kept kept keptAgain ⟨.nil, rfl⟩)
  | cons entry rest ih =>
      refine (readLink_rereads generator kept keptAgain spare entry keyed).bind ?_
      rintro ⟨link, left, next⟩ ⟨otherLink, otherLeft, otherNext⟩ once
      obtain rfl : otherLeft = left := once.corresponds.2
      refine (ih once.kept once.keptAgain otherLeft).bind ?_
      rintro ⟨links, last, after⟩ ⟨otherLinks, otherLast, otherAfter⟩ later
      exact .carried ((once.both later).map (fun both => (both.1.1 :: both.2.1, both.2.2))
        fun both => ⟨.cons both.1.1 both.2.1, both.2.2⟩)

/-- The attributes of a record are read again as the same ones, but for those that are new. -/
theorem readLinks_rereads (spare : base.entities.size < 2 ^ 128) (owner : EntityId)
    (json : Option Json) :
    Alike Eq (base.Rereads store.supply.issued.length fun first again =>
        List.Forall₂ base.SameRecord (first.2.map Bundle.id) (again.2.map Bundle.id))
      (env.readLinks owner json store)
      ((env.withGenerator generator).readLinks owner json other) := by
  unfold readLinks
  split
  · exact .carried (.of_kept kept keptAgain .nil)
  · split
    · exact .refused rfl
    · rename_i entries _
      rw [keyedAttributes_eq kept, keyedAttributes_eq keptAgain]
      refine .after fun keyed => ?_
      refine (readLinkEntries_rereads generator kept keptAgain spare entries keyed).bind ?_
      rintro ⟨links, left, after⟩ ⟨otherLinks, otherLeft, otherAfter⟩ read
      refine .carried (read.map (fun links => (links.1.map Prod.fst, links.1.filterMap Prod.snd)) ?_)
      rintro ⟨same, _⟩
      dsimp only
      rw [List.map_filterMap, List.map_filterMap]
      exact List.rel_filterMap (fun _ _ link => link.2) same

/-- An item that has an identifier is read again as the same one. -/
theorem readItem_rereads (spare : base.entities.size < 2 ^ 128) {json : Json}
    (given : json.id?.isSome) :
    Alike Eq (base.Rereads store.supply.issued.length fun first again =>
        again.1.id = first.1.id ∧
          List.Forall₂ base.SameRecord (first.2.map Bundle.id) (again.2.map Bundle.id))
      (env.readItem json store) ((env.withGenerator generator).readItem json other) := by
  unfold readItem readObject
  rw [Json.id?] at given
  cases object : json.object? with
  | none => exact .refused rfl
  | some members =>
      rw [object] at given
      refine (id_rereads generator kept keptAgain given "news item id").bind ?_
      rintro ⟨id, named⟩ ⟨otherId, otherNamed⟩ first
      obtain rfl : id = otherId := first.corresponds
      refine .after fun descriptor => .after fun content => ?_
      refine (readLinks_rereads generator first.kept first.keptAgain spare id _).bind ?_
      rintro ⟨links, after⟩ ⟨otherLinks, otherAfter⟩ linked
      refine .after fun base => .carried ?_
      exact (first.both linked).map (fun both =>
        ((⟨both.1, base, content.setMembers attributeRelation both.2.1⟩ : Bundle), both.2.2))
        fun both => ⟨both.1.symm, both.2⟩

/-- The items of a story are read again as the same ones. -/
theorem readItems_rereads (spare : base.entities.size < 2 ^ 128) {json : Option Json}
    (given : ∀ item ∈ (json.bind Json.array?).getD [], item.id?.isSome) :
    Alike Eq (base.Rereads store.supply.issued.length (List.Forall₂ fun first again =>
        again.1.id = first.1.id ∧
          List.Forall₂ base.SameRecord (first.2.map Bundle.id) (again.2.map Bundle.id)))
      (env.readItems json store) ((env.withGenerator generator).readItems json other) := by
  unfold readItems
  split
  · exact .carried (.of_kept kept keptAgain .nil)
  · split
    · exact .refused rfl
    · rename_i items listed
      rw [Option.bind_some, listed] at given
      refine inTurn_rereads (fun item isItem store other kept keptAgain => ?_) kept keptAgain
      exact readItem_rereads generator kept keptAgain spare (given item isItem)

/-- A story that has an identifier, as its items have, is read again as the same one, but for new
attributes. -/
theorem readStory_rereads (spare : base.entities.size < 2 ^ 128) {json : Json}
    (given : json.id?.isSome) (items : ∀ item ∈ json.listed itemRelation, item.id?.isSome) :
    Alike Eq (base.Rereads store.supply.issued.length (StoryBundle.Redrawn base))
      (env.readStory json store) ((env.withGenerator generator).readStory json other) := by
  unfold readStory readObject
  rw [Json.id?] at given
  rw [Json.listed] at items
  cases object : json.object? with
  | none => exact .refused rfl
  | some members =>
      rw [object] at given items
      refine (id_rereads generator kept keptAgain given "story id").bind ?_
      rintro ⟨id, named⟩ ⟨otherId, otherNamed⟩ first
      obtain rfl : id = otherId := first.corresponds
      refine .after fun descriptor => .after fun content => ?_
      refine (readLinks_rereads generator first.kept first.keptAgain spare id _).bind ?_
      rintro ⟨links, linkStore⟩ ⟨otherLinks, otherLinkStore⟩ linked
      refine (readItems_rereads generator linked.kept linked.keptAgain spare items).bind ?_
      rintro ⟨items, after⟩ ⟨otherItems, otherAfter⟩ read
      refine .after fun base => .carried ?_
      refine ((first.both linked).both read).map (fun both =>
        ({ id := both.1.1
           base := base
           content := content.setMembers attributeRelation both.1.2.1
           items := both.2.map Prod.fst
           attributes := both.1.2.2 ++ both.2.flatMap Prod.snd } : StoryBundle)) ?_
      rintro ⟨⟨same, sameLinks⟩, sameItems⟩
      refine ⟨same.symm, fun kind => ?_⟩
      cases kind with
      | story => exact .nil
      | newsItem =>
          simp only [StoryBundle.memberIds, List.map_map]
          refine List.rel_map ?_ sameItems
          exact fun _ _ item => Or.inl item.1
      | attr =>
          simp only [StoryBundle.memberIds, List.map_append, List.map_flatMap]
          exact List.rel_append sameLinks (List.rel_flatMap sameItems fun _ _ item => item.2)

/-- A push that is read again, from a store with the same records, reads the same submission but for
new attributes, or the same one if no identifier had to be drawn for the first. -/
theorem readPush_rereads (spare : base.entities.size < 2 ^ 128) {body : Json}
    (identified : body.Identified) (producer : String) :
    Alike Eq (base.Rereads store.supply.issued.length (Submission.Redrawn base))
      (env.readPush producer body store)
      ((env.withGenerator generator).readPush producer body other) := by
  unfold readPush
  cases listed : storiesOf body with
  | error fault => exact .refused rfl
  | ok stories =>
      rw [Json.Identified, Json.stories, listed] at identified
      change Alike Eq _ (if producer = "" then _ else _) (if producer = "" then _ else _)
      split
      · exact .refused rfl
      · have each : ∀ story ∈ stories, ∀ store other, base.KeepsRecords store →
            base.KeepsRecords other → Alike Eq
              (base.Rereads store.supply.issued.length (StoryBundle.Redrawn base))
              (env.readStory story store) ((env.withGenerator generator).readStory story other) := by
          intro story isStory store other kept keptAgain
          obtain ⟨given, items⟩ := identified story isStory
          exact readStory_rereads generator kept keptAgain spare given items
        refine (inTurn_rereads each kept keptAgain).bind ?_
        rintro ⟨bundles, after⟩ ⟨otherBundles, otherAfter⟩ read
        exact .carried (read.map (fun bundles => Submission.mk producer ("worker:" ++ producer)
          bundles) fun same => ⟨rfl, same⟩)

end Kept

/-- How a push is read depends on the registry and the new identifiers alone. -/
theorem readPush_congr {later : Env} (same : later.registry = env.registry) {producer : String}
    {body : Json} : later.readPush producer body store =
      (env.withGenerator later.generator).readPush producer body store := by
  cases env
  cases later
  cases same
  rfl

end Env

end Chronicle
