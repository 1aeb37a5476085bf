import Chronicle.Proofs.Rereading

/-!
# Bodies that give no identifiers

Each record of a body that gives no identifiers gets a new one, so all of them are drawn, one after
another. Once each record links the attributes that were sent for it, the body is read as the same
submission if the identifiers of its stories and items are filled in: each attribute takes the first
one with its key that is left, which is the one that was drawn for it (`Env.readPush_bare`).
-/

namespace Chronicle

open Descriptor (standard)
open RequestError (ofFault ofRefusal)

/-! ## What a body does not name -/

namespace Json

/-- An object gives no identifier, neither to itself nor to its attributes, which are all there. -/
def Bare (json : Json) : Prop :=
  json.id? = none ∧
    ∀ entry ∈ json.listed attributeRelation, entry.text? = none ∧ entry.id? = none

instance (json : Json) : Decidable json.Bare := by
  unfold Bare
  infer_instance

/-- A body gives no identifiers. -/
def Anonymous (body : Json) : Prop :=
  ∀ story ∈ body.stories, story.Bare ∧ ∀ item ∈ story.listed itemRelation, item.Bare

instance (body : Json) : Decidable body.Anonymous := by
  unfold Anonymous
  infer_instance

end Json

/-- The key of an attribute that is submitted. -/
def Bundle.key? (bundle : Bundle) : Option String := (bundle.content.value "key").text?

/-- Attributes with their keys. -/
def Bundle.keyed (bundles : List Bundle) : KeyedAttributes :=
  bundles.filterMap fun bundle => bundle.key?.map fun key => (key, bundle.id)

/-- An owner links these attributes, and all of them have keys. -/
structure Env.Links (env : Env) (store : Store) (owner : EntityId) (attributes : List Bundle) :
    Prop where
  keys : ∀ bundle ∈ attributes, bundle.key?.isSome
  linked : env.keyedAttributes store owner = .ok (Bundle.keyed attributes)

theorem ofFault_eq_ok {α : Type} {answer : Except RequestFault α} {result : α} :
    ofFault answer = .ok result ↔ answer = .ok result :=
  mapError_eq_ok

theorem ofRefusal_eq_ok {α : Type} {answer : Except Refusal α} {result : α} :
    ofRefusal answer = .ok result ↔ answer = .ok result :=
  mapError_eq_ok

theorem readObject_eq_ok {what : String} {json : Json} {members : Dict String Json} :
    readObject what json = .ok members ↔ json.object? = some members := by
  unfold readObject
  cases json.object? <;> simp

/-- Who gives no identifier gets a new one. -/
theorem Intake.id_of_none {members : Dict String Json}
    (none : (members.get? "id").filter (fun id => !id.isNull) = none) (env : Env) (what : String)
    (store : Store) : Intake.id env what members store = .ok (store.newEntityId env.generator) := by
  unfold Intake.id
  split
  · rfl
  · rfl
  · rename_i given notNull found
    rw [found, Option.filter_eq_none_iff] at none
    cases given with
    | null => exact absurd rfl notNull
    | _ => exact absurd rfl (none _ rfl)

namespace Env

variable {env : Env} {store after : Store}

/-! ## Links -/

/-- An attribute that is sent without an identifier, for an owner that has no attributes, is a new
one. Once it is linked with its key, the same is read as this one. -/
theorem readLink_bare {entry : Json} (noText : entry.text? = none) (noId : entry.id? = none)
    {link : EntityId × Option Bundle} {left : KeyedAttributes}
    (taken : env.readLink entry ([], store) = .ok (link, left, after)) :
    ∃ bundle, link = (bundle.id, some bundle) ∧ left = [] ∧
      store.newEntityId env.generator = (bundle.id, after) ∧
      ∀ key, bundle.key? = some key → ∀ generator rest other,
        (env.withGenerator generator).readLink entry ((key, bundle.id) :: rest, other) =
          .ok (link, rest, other) := by
  have notText : ¬ entry.text?.isSome = true := by
    rw [noText]
    exact Bool.false_ne_true
  unfold readLink at taken ⊢
  dsimp only at taken ⊢
  rw [if_neg notText] at taken
  simp only [bind_eq_ok, ofFault_eq_ok, ofRefusal_eq_ok, readObject_eq_ok, pure_eq_ok, Prod.exists,
    Prod.mk.injEq] at taken
  obtain ⟨members, object, descriptor, known, content, read, id, keyed, next, named, base, seen,
    rfl, rfl, rfl⟩ := taken
  rw [Json.id?, object, Option.bind_some] at noId
  have drawn : env.attributeId members content [] store =
      .ok (((store.newEntityId env.generator).1, []), (store.newEntityId env.generator).2) := by
    unfold attributeId
    rw [noId]
    cases (content.value "key").text? <;> rfl
  obtain ⟨⟨rfl, rfl⟩, rfl⟩ : ((store.newEntityId env.generator).1 = id ∧ [] = keyed) ∧
      (store.newEntityId env.generator).2 = next := by
    simpa using drawn.symm.trans named
  refine ⟨⟨(store.newEntityId env.generator).1, base, content⟩, rfl, rfl, rfl,
    fun key keyed generator rest other => ?_⟩
  have linked : (env.withGenerator generator).attributeId members content
      ((key, (store.newEntityId env.generator).1) :: rest) other =
      .ok (((store.newEntityId env.generator).1, rest), other) := by
    have found : (content.value "key").text? = some key := keyed
    unfold attributeId
    rw [noId, found, Option.bind_some, KeyedAttributes.take?, if_pos rfl]
    rfl
  rw [if_neg notText]
  simp only [bind_eq_ok, ofFault_eq_ok, ofRefusal_eq_ok, readObject_eq_ok, pure_eq_ok, Prod.exists,
    Prod.mk.injEq]
  exact ⟨members, object, descriptor, known, content, read, _, _, _, linked, base, seen,
    ⟨rfl, rfl⟩, rfl, rfl⟩

/-- The attributes of an owner that has none yet are all new. Once they are linked, the same ones are
read. -/
theorem readLinkEntries_bare {entries : List Json}
    (bare : ∀ entry ∈ entries, entry.text? = none ∧ entry.id? = none)
    {links : List (EntityId × Option Bundle)} {left : KeyedAttributes}
    (taken : inTurn env.readLink entries ([], store) = .ok (links, left, after)) :
    ∃ bundles : List Bundle, links = bundles.map (fun bundle => (bundle.id, some bundle)) ∧
      store.Draws env.generator (bundles.map Bundle.id) after ∧
      ((∀ bundle ∈ bundles, bundle.key?.isSome) → ∀ generator other,
        inTurn (env.withGenerator generator).readLink entries (Bundle.keyed bundles, other) =
          .ok (links, [], other)) := by
  induction entries generalizing store links with
  | nil =>
      obtain ⟨rfl, same⟩ := inTurn_nil_eq_ok.mp taken
      cases same
      exact ⟨[], rfl, .none _, fun _ _ _ => rfl⟩
  | cons entry rest ih =>
      obtain ⟨⟨noText, noId⟩, restBare⟩ := List.forall_mem_cons.mp bare
      obtain ⟨link, ⟨between, next⟩, others, once, later, rfl⟩ := inTurn_cons_eq_ok.mp taken
      obtain ⟨bundle, rfl, rfl, drawn, again⟩ := readLink_bare noText noId once
      obtain ⟨bundles, rfl, draws, restAgain⟩ := ih restBare later
      refine ⟨bundle :: bundles, rfl, ?_, fun keyed generator other => ?_⟩
      · have first : bundle.id = (store.newEntityId env.generator).1 ∧
            next = (store.newEntityId env.generator).2 := by
          rw [drawn]
          exact ⟨rfl, rfl⟩
        rw [List.map_cons, first.1]
        rw [first.2] at draws
        exact .next draws
      · obtain ⟨hasKey, restKeyed⟩ := List.forall_mem_cons.mp keyed
        obtain ⟨key, named⟩ := Option.isSome_iff_exists.mp hasKey
        rw [Bundle.keyed, List.filterMap_cons, named]
        exact inTurn_cons_eq_ok.mpr ⟨_, _, _, again key named generator _ other,
          restAgain restKeyed generator other, rfl⟩

/-- The attributes of a record, if it has none yet. -/
theorem readLinks_bare {owner : EntityId} {json : Option Json}
    (bare : ∀ entry ∈ (json.bind Json.array?).getD [], entry.text? = none ∧ entry.id? = none)
    (unlinked : env.keyedAttributes store owner = .ok []) {links : List EntityId}
    {attributes : List Bundle}
    (taken : env.readLinks owner json store = .ok ((links, attributes), after)) :
    links = attributes.map Bundle.id ∧ store.Draws env.generator links after ∧
      ∀ generator other, env.Links other owner attributes →
        (env.withGenerator generator).readLinks owner json other =
          .ok ((links, attributes), other) := by
  unfold readLinks at taken ⊢
  split at taken
  · cases taken
    exact ⟨rfl, .none store, fun _ _ _ => rfl⟩
  · rename_i given
    split at taken
    · cases taken
    · rename_i entries listed
      rw [Option.bind_some, listed] at bare
      simp only [bind_eq_ok, ofRefusal_eq_ok, pure_eq_ok, Prod.exists, Prod.mk.injEq] at taken ⊢
      obtain ⟨keyed, known, all, left, last, read, ⟨rfl, rfl⟩, rfl⟩ := taken
      cases unlinked.symm.trans known
      obtain ⟨bundles, rfl, draws, again⟩ := readLinkEntries_bare bare read
      have ids : (bundles.map fun bundle => (bundle.id, some bundle)).map Prod.fst =
          bundles.map Bundle.id := by
        rw [List.map_map]
        rfl
      have sent : (bundles.map fun bundle => (bundle.id, some bundle)).filterMap Prod.snd =
          bundles := by
        rw [List.filterMap_map]
        exact List.filterMap_some
      rw [ids, sent]
      refine ⟨rfl, draws, fun generator other links => ?_⟩
      exact ⟨_, links.linked, _, _, _, again links.keys generator other, ⟨ids, sent⟩, rfl⟩

theorem keyedAttributes_of_none {owner : EntityId} (absent : store.row? owner = none) :
    env.keyedAttributes store owner = .ok [] := by
  unfold keyedAttributes record?
  rw [absent]
  rfl

variable (env) in
/-- Who gives no identifier gets a new one, which links no attributes yet. -/
theorem id_bare (spare : store.entities.size < 2 ^ 128) {members : Dict String Json}
    (noId : (members.get? "id").filter (fun id => !id.isNull) = none) {what : String} {id : EntityId}
    {named : Store} (given : Intake.id env what members store = .ok (id, named)) :
    (∀ ids after, named.Draws env.generator ids after →
        store.Draws env.generator (id :: ids) after) ∧
      env.keyedAttributes named id = .ok [] := by
  rw [Intake.id_of_none noId] at given
  obtain ⟨rfl, rfl⟩ := Prod.mk.inj (Except.ok.inj given)
  exact ⟨fun ids after rest => .next rest, 
    keyedAttributes_of_none (Store.row?_newEntityId spare env.generator)⟩

/-! ## Items -/

theorem readItem_eq_ok (registered : env.registry = .standard) {json : Json} {item : Bundle}
    {attributes : List Bundle} :
    env.readItem json store = .ok ((item, attributes), after) ↔
      ∃ members named content links, json.object? = some members ∧
        Intake.id env "news item id" members store = .ok (item.id, named) ∧
        (standard .newsItem).readContent [attributeRelation] members .empty = .ok content ∧
        env.readLinks item.id (members.get? attributeRelation) named =
          .ok ((links, attributes), after) ∧
        readVersion (members.get? "base_version") = .ok item.base ∧
        content.setMembers attributeRelation links = item.content := by
  unfold readItem
  rw [descriptor_standard registered]
  simp only [bind_eq_ok, ofFault_eq_ok, ofRefusal_eq_ok, readObject_eq_ok, pure_eq_ok, Prod.exists,
    Prod.mk.injEq, Except.ok.injEq, exists_eq_left']
  constructor
  · rintro ⟨members, object, id, named, given, content, read, links, sent, next, linked, base, seen,
      ⟨rfl, rfl⟩, rfl⟩
    exact ⟨members, named, content, links, object, given, read, linked, seen, rfl⟩
  · rintro ⟨members, named, content, links, object, given, read, linked, seen, same⟩
    exact ⟨members, object, item.id, named, given, content, read, links, attributes, after, linked,
      item.base, seen, ⟨by rw [same], rfl⟩, rfl⟩

/-- An item that gives no identifiers is drawn with its attributes. Once these are linked, the same is
read if its identifier is filled in. -/
theorem readItem_bare (registered : env.registry = .standard)
    (spare : store.entities.size < 2 ^ 128) {json : Json} (bare : json.Bare) {item : Bundle}
    {attributes : List Bundle}
    (taken : env.readItem json store = .ok ((item, attributes), after)) :
    store.Draws env.generator (item.id :: attributes.map Bundle.id) after ∧
      item.content.members attributeRelation = attributes.map Bundle.id ∧
      ∀ generator other, env.Links other item.id attributes →
        ∀ shown : Json, shown.id? = some item.id.toJson →
          (env.withGenerator generator).readItem (json.identifiedBy shown) other =
            .ok ((item, attributes), other) := by
  obtain ⟨members, named, content, links, object, given, read, linked, seen, same⟩ :=
    (readItem_eq_ok registered).mp taken
  obtain ⟨noId, entries⟩ := bare
  rw [Json.id?, object, Option.bind_some] at noId
  rw [Json.listed, object, Option.bind_some] at entries
  obtain ⟨drawn, unlinked⟩ := id_bare env spare noId given
  obtain ⟨rfl, draws, again⟩ := readLinks_bare entries unlinked linked
  refine ⟨drawn _ _ draws, ?_, fun generator other links shown filled => ?_⟩
  · rw [← same, Content.members_setMembers_self]
  · have registeredAgain : (env.withGenerator generator).registry = .standard := registered
    have filledId := Intake.id_insert (env.withGenerator generator) "news item id" members item.id other
    refine (readItem_eq_ok registeredAgain).mpr ⟨_, other, content, _,
      Json.object?_identifiedBy object filled, filledId, ?_, ?_, ?_, same⟩
    · rw [Descriptor.readContent_insert (Or.inl (by decide)), read]
    · rw [Dict.get?_insert_of_ne _ (by decide)]
      exact again generator other links
    · rw [Dict.get?_insert_of_ne _ (by decide), seen]

theorem readItemEntries_bare (registered : env.registry = .standard) {entries : List Json}
    (bare : ∀ entry ∈ entries, entry.Bare) (spare : store.entities.size < 2 ^ 128)
    {items : List (Bundle × List Bundle)}
    (taken : inTurn env.readItem entries store = .ok (items, after)) :
    store.Draws env.generator (items.flatMap fun item => item.1.id :: item.2.map Bundle.id) after ∧
      (∀ item ∈ items, item.1.content.members attributeRelation = item.2.map Bundle.id) ∧
      ∀ generator other, (∀ item ∈ items, env.Links other item.1.id item.2) →
        ∀ shown : List Json, shown.map Json.id? = items.map (fun item => some item.1.id.toJson) →
          inTurn (env.withGenerator generator).readItem
            (List.zipWith Json.identifiedBy entries shown) other = .ok (items, other) := by
  induction entries generalizing store items with
  | nil =>
      obtain ⟨rfl, rfl⟩ := inTurn_nil_eq_ok.mp taken
      exact ⟨.none _, nofun, fun _ other _ shown _ => rfl⟩
  | cons entry rest ih =>
      obtain ⟨entryBare, restBare⟩ := List.forall_mem_cons.mp bare
      obtain ⟨⟨item, attributes⟩, between, others, once, later, rfl⟩ := inTurn_cons_eq_ok.mp taken
      obtain ⟨draws, linked, again⟩ := readItem_bare registered spare entryBare once
      have size : between.entities.size < 2 ^ 128 := by
        rw [draws.drawsOnly]
        exact spare
      obtain ⟨restDraws, restLinked, restAgain⟩ := ih restBare size later
      refine ⟨draws.append restDraws, List.forall_mem_cons.mpr ⟨linked, restLinked⟩, ?_⟩
      intro generator other links shown same
      obtain ⟨itemLinks, restLinks⟩ := List.forall_mem_cons.mp links
      obtain ⟨first, lasts, rfl, given, restGiven⟩ := List.map_eq_cons_iff.mp same
      exact inTurn_cons_eq_ok.mpr ⟨_, _, _, again generator other itemLinks first given,
        restAgain generator other restLinks lasts restGiven, rfl⟩

/-! ## Stories -/

theorem readStory_eq_ok (registered : env.registry = .standard) {json : Json}
    {bundle : StoryBundle} :
    env.readStory json store = .ok (bundle, after) ↔
      ∃ members named content links own between items, json.object? = some members ∧
        Intake.id env "story id" members store = .ok (bundle.id, named) ∧
        (standard .story).readContent [itemRelation, attributeRelation] members .empty = .ok content ∧
        env.readLinks bundle.id (members.get? attributeRelation) named = .ok ((links, own), between) ∧
        env.readItems (members.get? itemRelation) between = .ok (items, after) ∧
        readVersion (members.get? "base_version") = .ok bundle.base ∧
        content.setMembers attributeRelation links = bundle.content ∧
        items.map Prod.fst = bundle.items ∧ own ++ items.flatMap Prod.snd = bundle.attributes := by
  unfold readStory
  rw [descriptor_standard registered]
  simp only [bind_eq_ok, ofFault_eq_ok, ofRefusal_eq_ok, readObject_eq_ok, pure_eq_ok, Prod.exists,
    Prod.mk.injEq, Except.ok.injEq, exists_eq_left']
  constructor
  · rintro ⟨members, object, id, named, given, content, read, links, own, between, linked, items, last,
      listed, base, seen, rfl, rfl⟩
    exact ⟨members, named, content, links, own, between, items, object, given, read, linked, listed,
      seen, rfl, rfl, rfl⟩
  · rintro ⟨members, named, content, links, own, between, items, object, given, read, linked, listed,
      seen, same, sameItems, sameAttributes⟩
    refine ⟨members, object, bundle.id, named, given, content, read, links, own, between, linked, items,
      after, listed, bundle.base, seen, ?_, rfl⟩
    rw [same, sameItems, sameAttributes]

end Env

/-- A story with the attributes that were sent for each of its parts. -/
structure StoryBundle.Parts (bundle : StoryBundle) where
  own : List Bundle
  items : List (Bundle × List Bundle)
  items_eq : items.map Prod.fst = bundle.items
  attributes_eq : own ++ items.flatMap Prod.snd = bundle.attributes
  linked : bundle.content.members attributeRelation = own.map Bundle.id
  itemsLinked : ∀ item ∈ items, item.1.content.members attributeRelation = item.2.map Bundle.id

namespace StoryBundle.Parts

variable {bundle : StoryBundle} (parts : bundle.Parts)

/-- The identifiers of a story and its parts, as they are read. -/
def ids : List EntityId :=
  bundle.id :: (parts.own.map Bundle.id ++
    parts.items.flatMap fun item => item.1.id :: item.2.map Bundle.id)

/-- These are the identifiers of all that the story mentions. -/
theorem ids_perm : parts.ids.Perm (bundle.mentions.map fun mention => mention.sent.id) := by
  have mentioned : (bundle.mentions.map fun mention => mention.sent.id) =
      bundle.id :: ((parts.items.map fun item => item.1.id) ++ (parts.own.map Bundle.id ++
        parts.items.flatMap fun item => item.2.map Bundle.id)) := by
    rw [StoryBundle.mentions, ← parts.items_eq, ← parts.attributes_eq]
    simp only [List.map_cons, List.map_append, List.map_map, List.map_flatMap]
    rfl
  rw [mentioned, ids]
  refine .cons _ ?_
  refine (List.Perm.append_left _ (List.map_append_flatMap_perm parts.items (fun item => item.1.id)
    fun item => item.2.map Bundle.id).symm).trans ?_
  rw [← List.append_assoc, ← List.append_assoc]
  exact List.perm_append_comm.append_right _

/-- Each part of a story links its attributes. -/
structure Linked (env : Env) (store : Store) : Prop where
  own : env.Links store bundle.id parts.own
  items : ∀ item ∈ parts.items, env.Links store item.1.id item.2

end StoryBundle.Parts

/-- A story is shown with its own identifier and with those of its items. -/
structure StoryBundle.ShownAs (bundle : StoryBundle) (shown : Json) : Prop where
  id : shown.id? = some bundle.id.toJson
  items : (shown.listed itemRelation).map Json.id? =
    bundle.items.map fun item => some item.id.toJson

namespace Env

variable {env : Env} {store after : Store}

theorem readItems_eq_ok {json : Option Json} {items : List (Bundle × List Bundle)} :
    env.readItems json store = .ok (items, after) ↔
      (json = none ∧ items = [] ∧ after = store) ∨
        ∃ entries, json.bind Json.array? = some entries ∧
          inTurn env.readItem entries store = .ok (items, after) := by
  unfold readItems
  cases json with
  | none => simp [eq_comm]
  | some given =>
      rw [Option.bind_some]
      cases listed : given.array? <;> simp [listed]

/-- A story whose identifier is filled in is read from its other members. -/
theorem readStory_identifiedBy (registered : env.registry = .standard) {json shown : Json}
    {members : Dict String Json} (object : json.object? = some members) {bundle : StoryBundle}
    (given : shown.id? = some bundle.id.toJson) {content : Content} {own : List Bundle}
    {items : List (Bundle × List Bundle)}
    (read : (standard .story).readContent [itemRelation, attributeRelation] members .empty =
      .ok content)
    (linked : env.readLinks bundle.id (members.get? attributeRelation) store =
      .ok ((own.map Bundle.id, own), store))
    (listed : env.readItems (members.get? itemRelation) store = .ok (items, store))
    (seen : readVersion (members.get? "base_version") = .ok bundle.base)
    (same : content.setMembers attributeRelation (own.map Bundle.id) = bundle.content)
    (sameItems : items.map Prod.fst = bundle.items)
    (sameAttributes : own ++ items.flatMap Prod.snd = bundle.attributes) :
    env.readStory (json.identifiedBy shown) store = .ok (bundle, store) := by
  refine (readStory_eq_ok registered).mpr ⟨_, store, content, _, own, store, items,
    Json.object?_identifiedBy object given, Intake.id_insert _ _ members bundle.id store, ?_, ?_, ?_, ?_,
    same, sameItems, sameAttributes⟩
  · rw [Descriptor.readContent_insert (Or.inl (by decide)), read]
  · rw [Dict.get?_insert_of_ne _ (by decide), linked]
  · rw [Dict.get?_insert_of_ne _ (by decide), listed]
  · rw [Dict.get?_insert_of_ne _ (by decide), seen]

/-- A story that gives no identifiers is drawn with all its parts. Once their attributes are linked,
the same is read if the identifiers of the story and its items are filled in. -/
theorem readStory_bare (registered : env.registry = .standard)
    (spare : store.entities.size < 2 ^ 128) {json : Json} (bare : json.Bare)
    (itemsBare : ∀ item ∈ json.listed itemRelation, item.Bare) {bundle : StoryBundle}
    (taken : env.readStory json store = .ok (bundle, after)) :
    ∃ parts : bundle.Parts, store.Draws env.generator parts.ids after ∧
      ∀ generator other, parts.Linked env other → ∀ shown, bundle.ShownAs shown →
        (env.withGenerator generator).readStory (json.shownAs shown) other =
          .ok (bundle, other) := by
  obtain ⟨members, named, content, links, own, between, items, object, given, read, linked, listed,
    seen, same, sameItems, sameAttributes⟩ := (readStory_eq_ok registered).mp taken
  obtain ⟨noId, entries⟩ := bare
  rw [Json.id?, object, Option.bind_some] at noId
  rw [Json.listed, object, Option.bind_some] at entries itemsBare
  obtain ⟨drawn, unlinked⟩ := id_bare env spare noId given
  obtain ⟨rfl, ownDraws, ownAgain⟩ := readLinks_bare entries unlinked linked
  have ownLinked : bundle.content.members attributeRelation = own.map Bundle.id := by
    rw [← same, Content.members_setMembers_self]
  rcases readItems_eq_ok.mp listed with ⟨absent, rfl, rfl⟩ | ⟨itemEntries, isList, itemsRead⟩
  · refine ⟨⟨own, [], sameItems, sameAttributes, ownLinked, List.forall_mem_nil _⟩, drawn _ _ ?_, ?_⟩
    · rw [List.flatMap_nil, List.append_nil]
      exact ownDraws
    · intro generator other linked shown shownAs
      have unchanged : json.shownAs shown = json.identifiedBy shown := by
        rw [Json.shownAs, Json.withList, object, Option.bind_some, absent]
        rfl
      rw [unchanged]
      have registeredAgain : (env.withGenerator generator).registry = .standard := registered
      refine readStory_identifiedBy registeredAgain object shownAs.id read
        (ownAgain generator other linked.own) ?_ seen same sameItems sameAttributes
      rw [absent]
      rfl
  · rw [isList, Option.getD_some] at itemsBare
    have size : between.entities.size < 2 ^ 128 := by
      rw [(drawn _ _ ownDraws).drawsOnly]
      exact spare
    obtain ⟨draws, itemsLinked, again⟩ := readItemEntries_bare registered itemsBare size itemsRead
    refine ⟨⟨own, items, sameItems, sameAttributes, ownLinked, itemsLinked⟩,
      drawn _ _ (ownDraws.append draws), ?_⟩
    intro generator other linked shown shownAs
    have changed : (json.withList itemRelation fun items =>
        List.zipWith Json.identifiedBy items (shown.listed itemRelation)).object? =
          some (members.insert itemRelation (.array (List.zipWith Json.identifiedBy itemEntries
            (shown.listed itemRelation)))) := by
      rw [Json.withList, object, Option.bind_some, isList]
      exact Json.object?_withMember object _ _
    have ids : (bundle.items.map fun item => some item.id.toJson) =
        items.map fun item => some item.1.id.toJson := by
      rw [← sameItems, List.map_map]
      rfl
    have registeredAgain : (env.withGenerator generator).registry = .standard := registered
    refine readStory_identifiedBy registeredAgain changed shownAs.id ?_ ?_ ?_ ?_ same sameItems
      sameAttributes
    · rw [Descriptor.readContent_insert (Or.inr (by decide)), read]
    · rw [Dict.get?_insert_of_ne _ (by decide), ownAgain generator other linked.own]
    · rw [Dict.get?_insert_self]
      exact again generator other linked.items _ (shownAs.items.trans ids)
    · rw [Dict.get?_insert_of_ne _ (by decide), seen]

/-! ## Pushes -/

/-- The stories of a body that gives no identifiers are drawn one after another. -/
theorem readStories_bare (registered : env.registry = .standard)
    (spare : store.entities.size < 2 ^ 128) {entries : List Json}
    (bare : ∀ story ∈ entries, story.Bare ∧ ∀ item ∈ story.listed itemRelation, item.Bare)
    {bundles : List StoryBundle} (taken : inTurn env.readStory entries store = .ok (bundles, after)) :
    (∃ ids, store.Draws env.generator ids after ∧
      ids.Perm ((bundles.flatMap StoryBundle.mentions).map fun mention => mention.sent.id)) ∧
    (∀ bundle ∈ bundles, Nonempty bundle.Parts) ∧
    ∀ generator other, (∀ bundle ∈ bundles, ∀ parts : bundle.Parts, parts.Linked env other) →
      ∀ shown, List.Forall₂ StoryBundle.ShownAs bundles shown →
        inTurn (env.withGenerator generator).readStory
          (List.zipWith Json.shownAs entries shown) other = .ok (bundles, other) := by
  induction entries generalizing store bundles with
  | nil =>
      obtain ⟨rfl, rfl⟩ := inTurn_nil_eq_ok.mp taken
      exact ⟨⟨[], .none _, .refl _⟩, nofun, fun _ other _ shown _ => rfl⟩
  | cons entry rest ih =>
      obtain ⟨⟨entryBare, itemsBare⟩, restBare⟩ := List.forall_mem_cons.mp bare
      obtain ⟨bundle, between, others, once, later, rfl⟩ := inTurn_cons_eq_ok.mp taken
      obtain ⟨parts, draws, again⟩ := readStory_bare registered spare entryBare itemsBare once
      have size : between.entities.size < 2 ^ 128 := by
        rw [draws.drawsOnly]
        exact spare
      obtain ⟨⟨ids, restDraws, restIds⟩, restParts, restAgain⟩ := ih size restBare later
      refine ⟨⟨parts.ids ++ ids, draws.append restDraws, ?_⟩,
        List.forall_mem_cons.mpr ⟨⟨parts⟩, restParts⟩,
        fun generator other linked shown shownAs => ?_⟩
      · rw [List.flatMap_cons, List.map_append]
        exact parts.ids_perm.append restIds
      · obtain ⟨storyLinked, restLinked⟩ := List.forall_mem_cons.mp linked
        cases shownAs with
        | cons storyShown restShown =>
            exact inTurn_cons_eq_ok.mpr ⟨bundle, other, others,
              again generator other (storyLinked parts) _ storyShown,
              restAgain generator other restLinked _ restShown, rfl⟩

theorem readPush_eq_ok {producer : String} {body : Json} {submission : Submission} :
    env.readPush producer body store = .ok (submission, after) ↔
      ∃ stories, storiesOf body = .ok stories ∧ producer ≠ "" ∧
        inTurn env.readStory stories store = .ok (submission.stories, after) ∧
        submission = ⟨producer, "worker:" ++ producer, submission.stories⟩ := by
  unfold readPush
  rw [bind_eq_ok]
  refine exists_congr fun stories => ?_
  rw [ofFault_eq_ok]
  refine and_congr_right fun _ => ?_
  by_cases named : producer = ""
  · simp [named]
  · rw [if_neg named]
    simp only [bind_eq_ok, pure_eq_ok, Prod.exists, Prod.mk.injEq]
    constructor
    · rintro ⟨bundles, last, read, rfl, rfl⟩
      exact ⟨named, read, rfl⟩
    · rintro ⟨_, read, same⟩
      exact ⟨_, _, read, same.symm, rfl⟩

theorem storiesOf_object {members : List (String × Json)} {stories : List Json}
    (found : ((Dict.ofList members).get? "stories").bind Json.array? = some stories) :
    storiesOf (.object members) = .ok stories := by
  rw [storiesOf, found]

/-- The stories of a body are those whose identifiers are filled in. -/
theorem storiesOf_filled {body : Json} {stories : List Json} (listed : storiesOf body = .ok stories)
    (response : Json) :
    storiesOf (body.filled response) =
      .ok (List.zipWith Json.shownAs stories (response.listed "stories")) := by
  cases body with
  | array given =>
      cases listed
      rfl
  | object members =>
      rw [storiesOf] at listed
      cases found : ((Dict.ofList members).get? "stories").bind Json.array? with
      | none =>
          rw [found] at listed
          cases listed
      | some given =>
          rw [found] at listed
          cases listed
          have filled : (Json.object members).filled response =
              (Json.object members).withMember "stories"
                (.array (List.zipWith Json.shownAs stories (response.listed "stories"))) := by
            change Json.withList _ _ _ = _
            rw [Json.withList, Json.object?, Option.bind_some, found]
          rw [filled, Json.withMember, Json.object?]
          refine storiesOf_object ?_
          rw [Dict.ofList_entries, Dict.get?_insert_self]
          rfl
  | _ => cases listed

/-- All records of a push that gives no identifiers are drawn. Once their attributes are linked, the
same is read if the identifiers of the stories and items are filled in. -/
theorem readPush_bare (registered : env.registry = .standard)
    (spare : store.entities.size < 2 ^ 128) {producer : String} {body : Json}
    (anonymous : body.Anonymous) {submission : Submission}
    (taken : env.readPush producer body store = .ok (submission, after)) :
    (∃ ids, store.Draws env.generator ids after ∧
      ids.Perm (submission.mentions.map fun mention => mention.sent.id)) ∧
    (∀ bundle ∈ submission.stories, Nonempty bundle.Parts) ∧
    ∀ generator other,
      (∀ bundle ∈ submission.stories, ∀ parts : bundle.Parts, parts.Linked env other) →
      ∀ response, List.Forall₂ StoryBundle.ShownAs submission.stories (response.listed "stories") →
        (env.withGenerator generator).readPush producer (body.filled response) other =
          .ok (submission, other) := by
  obtain ⟨stories, listed, named, read, same⟩ := readPush_eq_ok.mp taken
  rw [Json.Anonymous, Json.stories, listed] at anonymous
  obtain ⟨drawn, parts, again⟩ := readStories_bare registered spare anonymous read
  refine ⟨drawn, parts, fun generator other linked response shown => ?_⟩
  exact readPush_eq_ok.mpr ⟨_, storiesOf_filled listed response, named,
    again generator other linked _ shown, same⟩

end Env

end Chronicle
