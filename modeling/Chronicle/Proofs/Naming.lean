import Chronicle.Proofs.Flat.Reading
import Chronicle.Proofs.Storing
import Mathlib.Data.List.Perm.Basic

/-!
# Attributes that are sent without an identifier

A list of attributes is read entry by entry. An entry that states an identifier has that one. The
others are given the linked attributes with their keys, in sequence, as long as there are any, and
new identifiers after that (`KeyedAttributes.Assigns`). No identifier is given twice. But what is
stated elsewhere in the list is not held back: an identifier that one entry states is given to
another as well, if it comes up in that sequence (`Reachable.readLinks_assigns`).
-/

namespace Chronicle

open Descriptor (standard)
open RequestError (ofFault ofRefusal)

/-! ## What an entry says -/

namespace Json

/-- The identifier that an entry of a list of attributes states: it is the entry, or it is in it. -/
def statedId? (entry : Json) : Option EntityId :=
  (entry.text?.or (entry.id?.bind text?)).bind EntityId.ofText?

/-- The key of an attribute that is sent. -/
def attributeKey? (entry : Json) : Option String :=
  (entry.object?.bind fun members => members.get? "key").bind text?

end Json

/-- The key that is read is the one that is sent. -/
theorem Descriptor.text?_readContent_key {members : Dict String Json} {content : Content}
    (read : attr.readContent [] members .empty = .ok content) :
    (content.value "key").text? = (members.get? "key").bind Json.text? := by
  have reads := readContent_eq_ok_iff.mp read
  have known : attr.field? "key" = some ⟨"key", .text, true⟩ := rfl
  cases found : members.get? "key" with
  | none =>
      rw [reads.value_of_absent found]
      rfl
  | some json =>
      have parsed := reads.value known (by decide) (by decide) found
      rw [Option.bind_some]
      cases json <;>
        simp only [FieldValue.ofJson?, Json.isNull, Json.text?, if_true, Bool.false_eq_true,
          if_false, Option.map_some, Option.map_none, Option.some.injEq, reduceCtorEq] at parsed <;>
        rw [← parsed] <;> rfl

/-! ## Attributes in sequence -/

namespace KeyedAttributes

/-- The attributes with a key, in sequence. No attribute is without. -/
def under (keyed : KeyedAttributes) (key? : Option String) : List EntityId :=
  (keyed.filter fun entry => some entry.1 = key?).map Prod.snd

/-- The first attribute with a key is taken, and the others are left. -/
structure Takes (keyed : KeyedAttributes) (key? : Option String) (id : EntityId)
    (left : KeyedAttributes) : Prop where
  first : keyed.under key? = id :: left.under key?
  others : ∀ other?, other? ≠ key? → left.under other? = keyed.under other?
  perm : (keyed.map Prod.snd).Perm (id :: left.map Prod.snd)

variable {keyed left : KeyedAttributes} {id : EntityId}

theorem under_eq_nil {key : String} (nothing : keyed.take? key = none) :
    keyed.under (some key) = [] := by
  induction keyed with
  | nil => rfl
  | cons entry rest ih =>
      obtain ⟨other, own⟩ := entry
      rw [take?] at nothing
      split at nothing
      · cases nothing
      · rename_i different
        rw [under, List.filter_cons_of_neg (by simpa using different)]
        exact ih (Option.map_eq_none_iff.mp nothing)

theorem takes_of_take? {key : String} (taken : keyed.take? key = some (id, left)) :
    keyed.Takes (some key) id left := by
  induction keyed generalizing left with
  | nil => cases taken
  | cons entry rest ih =>
      obtain ⟨other, own⟩ := entry
      rw [take?] at taken
      split at taken
      · rename_i same
        cases taken
        refine ⟨?_, fun other? different => ?_, .refl _⟩
        · rw [under, List.filter_cons_of_pos (by simpa using same)]
          rfl
        · rw [under, under, List.filter_cons_of_neg (by simpa [same] using different.symm)]
      · rename_i apart
        obtain ⟨⟨found, after⟩, once, same⟩ := Option.map_eq_some_iff.mp taken
        cases same
        obtain ⟨first, others, perm⟩ := ih once
        refine ⟨?_, fun other? different => ?_, (perm.cons own).trans (.swap _ _ _)⟩
        · rw [under, under, List.filter_cons_of_neg (by simpa using apart),
            List.filter_cons_of_neg (by simpa using apart)]
          exact first
        · have kept := others other? different
          rw [under, under] at kept ⊢
          by_cases own : some other = other?
          · rw [List.filter_cons_of_pos (by simpa using own),
              List.filter_cons_of_pos (by simpa using own), List.map_cons, List.map_cons, kept]
          · rw [List.filter_cons_of_neg (by simpa using own),
              List.filter_cons_of_neg (by simpa using own), kept]

end KeyedAttributes

/-! ## Entries in turn -/

namespace Json

/-- The entries that state no identifier, with those that they are given. -/
def bareLinks (entries : List Json) (ids : List EntityId) : List (Json × EntityId) :=
  (entries.zip ids).filter fun link => link.1.statedId?.isNone

/-- The identifiers that are given to entries that state none. -/
def assigned (entries : List Json) (ids : List EntityId) : List EntityId :=
  (bareLinks entries ids).map Prod.snd

/-- Those that are given to entries with a key. -/
def assignedUnder (entries : List Json) (ids : List EntityId) (key? : Option String) :
    List EntityId :=
  ((bareLinks entries ids).filter fun link => link.1.attributeKey? = key?).map Prod.snd

/-- How many entries with a key state no identifier. -/
def demand (entries : List Json) (key? : Option String) : Nat :=
  entries.countP fun entry => entry.statedId?.isNone && entry.attributeKey? = key?

variable {entry : Json} {entries : List Json} {id : EntityId} {ids : List EntityId}

theorem bareLinks_stated {own : EntityId} (stated : entry.statedId? = some own) :
    bareLinks (entry :: entries) (id :: ids) = bareLinks entries ids := by
  rw [bareLinks, List.zip_cons_cons, List.filter_cons_of_neg (by simp [stated])]
  rfl

theorem bareLinks_bare (bare : entry.statedId? = none) :
    bareLinks (entry :: entries) (id :: ids) = (entry, id) :: bareLinks entries ids := by
  rw [bareLinks, List.zip_cons_cons, List.filter_cons_of_pos (by simp [bare])]
  rfl

theorem demand_stated {own : EntityId} (stated : entry.statedId? = some own)
    (key? : Option String) : demand (entry :: entries) key? = demand entries key? := by
  rw [demand, List.countP_cons_of_neg (by simp [stated])]
  rfl

theorem demand_bare (bare : entry.statedId? = none) :
    demand (entry :: entries) entry.attributeKey? = demand entries entry.attributeKey? + 1 := by
  rw [demand, List.countP_cons_of_pos (by simp [bare])]
  rfl

theorem demand_bare_of_ne {key? : Option String} (different : key? ≠ entry.attributeKey?) :
    demand (entry :: entries) key? = demand entries key? := by
  rw [demand, List.countP_cons_of_neg (by simp [different.symm])]
  rfl

end Json

namespace Env

open Json

variable {env : Env} {store after : Store}

/-- How an entry comes by its identifier, and what is left of the linked attributes. -/
inductive Given (generator : Generator) (entry : Json) (keyed : KeyedAttributes) (store : Store) :
    EntityId → KeyedAttributes → Store → Prop
  | stated {id : EntityId} (own : entry.statedId? = some id) :
      Given generator entry keyed store id keyed store
  | linked {id : EntityId} {left : KeyedAttributes} (bare : entry.statedId? = none)
      (takes : keyed.Takes entry.attributeKey? id left) :
      Given generator entry keyed store id left store
  | drawn (bare : entry.statedId? = none) (nothing : keyed.under entry.attributeKey? = []) :
      Given generator entry keyed store (store.newEntityId generator).1 keyed
        (store.newEntityId generator).2

theorem readLink_given (registered : env.registry = .standard) {entry : Json}
    {keyed left : KeyedAttributes} {link : EntityId × Option Bundle}
    (taken : env.readLink entry (keyed, store) = .ok (link, left, after)) :
    Given env.generator entry keyed store link.1 left after := by
  unfold readLink at taken
  dsimp only at taken
  rw [descriptor_standard registered] at taken
  split at taken
  · rename_i isText
    simp only [bind_eq_ok, ofFault_eq_ok, EntityId.ofJson_eq_ok, pure_eq_ok, Prod.mk.injEq] at taken
    obtain ⟨id, own, rfl, rfl, rfl⟩ := taken
    refine .stated ?_
    obtain ⟨text, found⟩ := Option.isSome_iff_exists.mp isText
    rw [found] at own
    rw [statedId?, found, Option.some_or, own]
  · rename_i notText
    have noText : entry.text? = none := Option.not_isSome_iff_eq_none.mp notText
    simp only [bind_eq_ok, ofFault_eq_ok, ofRefusal_eq_ok, readObject_eq_ok, pure_eq_ok, Prod.exists,
      Prod.mk.injEq, Except.ok.injEq, exists_eq_left'] at taken
    obtain ⟨members, object, content, read, id, others, next, named, base, seen, rfl, rfl, rfl⟩ := taken
    have stated : entry.statedId? =
        (((members.get? "id").filter fun id => !id.isNull).bind text?).bind EntityId.ofText? := by
      rw [statedId?, noText, Option.none_or, id?, object, Option.bind_some]
    have key : (content.value "key").text? = entry.attributeKey? := by
      rw [attributeKey?, object, Option.bind_some]
      exact Descriptor.text?_readContent_key read
    unfold attributeId at named
    rw [key] at named
    split at named
    · rename_i json given
      simp only [bind_eq_ok, ofFault_eq_ok, EntityId.ofJson_eq_ok, pure_eq_ok, Prod.mk.injEq] at named
      obtain ⟨own, isOwn, ⟨rfl, rfl⟩, rfl⟩ := named
      exact .stated (by rw [stated, given, Option.bind_some, isOwn])
    · rename_i absent
      rw [absent] at stated
      split at named
      · rename_i found takes
        cases named
        obtain ⟨key, isKey, takes⟩ := Option.bind_eq_some_iff.mp takes
        refine .linked stated ?_
        rw [isKey]
        exact KeyedAttributes.takes_of_take? takes
      · rename_i nothing
        cases named
        refine .drawn stated ?_
        cases isKey : entry.attributeKey? with
        | none => simp [KeyedAttributes.under]
        | some key =>
            rw [isKey] at nothing
            exact KeyedAttributes.under_eq_nil nothing

/-- How a list of entries comes by its identifiers: some of the linked attributes are used again, and
other identifiers are drawn. -/
structure Shares (entries : List Json) (keyed left : KeyedAttributes)
    (reused drawn ids : List EntityId) : Prop where
  stated : List.Forall₂ (fun entry id => ∀ own, entry.statedId? = some own → id = own) entries ids
  linked : (keyed.map Prod.snd).Perm (reused ++ left.map Prod.snd)
  assigned : (assigned entries ids).Perm (reused ++ drawn)
  under : ∀ key?, ∃ new, new ⊆ drawn ∧
    assignedUnder entries ids key? = (keyed.under key?).take (demand entries key?) ++ new

/-- What an entry is given comes before what the rest of the list is given. -/
theorem Given.shares {generator : Generator} {entry : Json} {rest : List Json} {keyed between left : KeyedAttributes}
    {next : Store} {id : EntityId} {reused drawn ids : List EntityId}
    (given : Given generator entry keyed store id between next)
    (draws : next.Draws generator drawn after)
    (shares : Shares rest between left reused drawn ids) :
    ∃ reused drawn, store.Draws generator drawn after ∧
      Shares (entry :: rest) keyed left reused drawn (id :: ids) := by
  obtain ⟨stated, linked, assigned, under⟩ := shares
  cases given with
  | stated own =>
      refine ⟨reused, drawn, draws, ?_, linked, ?_, fun key? => ?_⟩
      · exact .cons (fun other same => Option.some.inj (own.symm.trans same)) stated
      · rwa [Json.assigned, bareLinks_stated own]
      · rw [assignedUnder, bareLinks_stated own, demand_stated own]
        exact under key?
  | linked bare takes =>
      refine ⟨id :: reused, drawn, draws, ?_, ?_, ?_, fun key? => ?_⟩
      · exact .cons (fun own same => by rw [bare] at same; cases same) stated
      · exact takes.perm.trans (linked.cons id)
      · rw [Json.assigned, bareLinks_bare bare]
        exact assigned.cons id
      · obtain ⟨new, isDrawn, sequence⟩ := under key?
        refine ⟨new, isDrawn, ?_⟩
        rw [assignedUnder, bareLinks_bare bare]
        by_cases same : key? = entry.attributeKey?
        · subst same
          rw [List.filter_cons_of_pos (by simp), List.map_cons, demand_bare bare, takes.first,
            List.take_succ_cons, List.cons_append, ← sequence]
          rfl
        · rw [List.filter_cons_of_neg (by simpa using Ne.symm same), demand_bare_of_ne same,
            ← takes.others key? same]
          exact sequence
  | drawn bare nothing =>
      refine ⟨reused, _ :: drawn, .next draws, ?_, linked, ?_, fun key? => ?_⟩
      · exact .cons (fun own same => by rw [bare] at same; cases same) stated
      · rw [Json.assigned, bareLinks_bare bare]
        exact (assigned.cons _).trans List.perm_middle.symm
      · obtain ⟨new, isDrawn, sequence⟩ := under key?
        rw [assignedUnder, bareLinks_bare bare]
        by_cases same : key? = entry.attributeKey?
        · subst same
          rw [nothing, List.take_nil, List.nil_append] at sequence
          refine ⟨_ :: new, List.cons_subset_cons _ isDrawn, ?_⟩
          rw [List.filter_cons_of_pos (by simp), List.map_cons, nothing, List.take_nil,
            List.nil_append, ← sequence]
          rfl
        · refine ⟨new, List.subset_cons_of_subset _ isDrawn, ?_⟩
          rw [List.filter_cons_of_neg (by simpa using Ne.symm same), demand_bare_of_ne same]
          exact sequence

theorem readLinkEntries_shares (registered : env.registry = .standard) {entries : List Json}
    {keyed left : KeyedAttributes} {links : List (EntityId × Option Bundle)}
    (taken : inTurn env.readLink entries (keyed, store) = .ok (links, left, after)) :
    ∃ reused drawn, store.Draws env.generator drawn after ∧
      Shares entries keyed left reused drawn (links.map Prod.fst) := by
  induction entries generalizing keyed store links with
  | nil =>
      obtain ⟨rfl, same⟩ := inTurn_nil_eq_ok.mp taken
      cases same
      exact ⟨[], [], .none _, .nil, .refl _, .refl _, fun _ => ⟨[], nofun, by
        simp [assignedUnder, bareLinks, demand]⟩⟩
  | cons entry rest ih =>
      obtain ⟨link, ⟨between, next⟩, others, once, later, rfl⟩ := inTurn_cons_eq_ok.mp taken
      obtain ⟨reused, drawn, draws, shares⟩ := ih later
      exact (readLink_given registered once).shares draws shares

end Env

/-! ## The linked attributes of an owner -/

namespace Store

/-- The key of a live record, if it has one. -/
def key? (store : Store) (id : EntityId) : Option String :=
  (store.live? id).bind fun row => (row.content.value "key").text?

/-- The attributes that a live record links. -/
def linkedBy (store : Store) (owner : EntityId) : List EntityId :=
  ((store.live? owner).map fun row => row.content.members attributeRelation).getD []

/-- Those that have keys, with their keys. -/
def keyedBy (store : Store) (owner : EntityId) : KeyedAttributes :=
  (store.linkedBy owner).filterMap fun id => (store.key? id).map fun key => (key, id)

/-- Those with one key, in sequence. -/
def linkedUnder (store : Store) (owner : EntityId) (key : String) : List EntityId :=
  (store.linkedBy owner).filter fun id => store.key? id = some key

variable {store : Store}

theorem linkedBy_nodup (sound : store.SoundRows) (owner : EntityId) :
    (store.linkedBy owner).Nodup := by
  unfold linkedBy
  cases live : store.live? owner with
  | none => exact List.nodup_nil
  | some row =>
      exact (sound owner row (live?_eq_some_iff.mp live).1).canonical.members_nodup _

theorem keyedBy_nodup (sound : store.SoundRows) (owner : EntityId) :
    ((store.keyedBy owner).map Prod.snd).Nodup := by
  rw [keyedBy, List.map_filterMap]
  refine (linkedBy_nodup sound owner).filterMap fun first second id isFirst isSecond => ?_
  simp only [Option.mem_def, Option.map_map, Option.map_eq_some_iff] at isFirst isSecond
  obtain ⟨_, _, rfl⟩ := isFirst
  obtain ⟨_, _, rfl⟩ := isSecond
  rfl

/-- Attributes that have keys are records. -/
theorem isSome_of_mem_keyedBy {owner id : EntityId}
    (listed : id ∈ (store.keyedBy owner).map Prod.snd) : (store.row? id).isSome := by
  simp only [keyedBy, key?, List.mem_map, List.mem_filterMap, Option.map_eq_some_iff,
    Option.bind_eq_some_iff] at listed
  obtain ⟨_, ⟨_, _, _, ⟨row, live, _⟩, rfl⟩, rfl⟩ := listed
  rw [(live?_eq_some_iff.mp live).1]
  rfl

/-- The linked attributes with a key come up in the sequence of the links. -/
theorem under_keyedBy (store : Store) (owner : EntityId) (key : String) :
    (store.keyedBy owner).under (some key) = store.linkedUnder owner key := by
  unfold keyedBy linkedUnder
  induction store.linkedBy owner with
  | nil => rfl
  | cons id rest ih =>
      unfold KeyedAttributes.under at ih ⊢
      cases known : store.key? id with
      | none =>
          rw [List.filterMap_cons_none (by rw [known]; rfl), List.filter_cons_of_neg (by simp [known])]
          exact ih
      | some other =>
          rw [List.filterMap_cons_some (by rw [known]; rfl)]
          by_cases same : other = key
          · rw [List.filter_cons_of_pos (by simp [same]), List.filter_cons_of_pos (by simp [known, same]),
              List.map_cons, ih]
          · rw [List.filter_cons_of_neg (by simp [same]), List.filter_cons_of_neg (by simp [known, same]),
              ih]

end Store

theorem Env.keyedAttributes_of_sound {env : Env} (registered : env.registry = .standard)
    {store : Store} (sound : store.SoundRows) (owner : EntityId) :
    env.keyedAttributes store owner = .ok (store.keyedBy owner) := by
  have each (id : EntityId) :
      env.keyedAttribute? store id = .ok ((store.key? id).map fun key => (key, id)) := by
    unfold keyedAttribute? Store.key?
    rw [record?_of_sound registered sound]
    cases store.live? id <;> rfl
  unfold keyedAttributes Store.keyedBy Store.linkedBy
  rw [record?_of_sound registered sound]
  cases store.live? owner with
  | none => rfl
  | some row =>
      have read : (row.content.members attributeRelation).mapM (env.keyedAttribute? store) =
          .ok ((row.content.members attributeRelation).map fun id =>
            (store.key? id).map fun key => (key, id)) := by
        rw [mapM_eq_ok_iff, List.forall₂_map_right_iff, List.forall₂_same]
        exact fun id _ => each id
      change ((row.content.members attributeRelation).mapM (env.keyedAttribute? store) >>= _) = _
      rw [read]
      change Except.ok (((row.content.members attributeRelation).map _).filterMap _) = _
      rw [List.filterMap_map]
      rfl

/-- How the entries of a list come by their identifiers, for an owner in a store; `drawn` are new. -/
structure Store.Assigns (store : Store) (owner : EntityId) (entries : List Json)
    (drawn ids : List EntityId) : Prop where
  /-- An entry that states an identifier has this one. -/
  stated : List.Forall₂ (fun entry id => ∀ own, entry.statedId? = some own → id = own) entries ids
  /-- No two entries that state none are given the same. -/
  distinct : (Json.assigned entries ids).Nodup
  /-- Of the entries with a key, the first are given the linked attributes with this key, in
  sequence and as many as there are, and the others new ones. -/
  sequence : ∀ key, ∃ new, new ⊆ drawn ∧ Json.assignedUnder entries ids (some key) =
    (store.linkedUnder owner key).take (Json.demand entries (some key)) ++ new
  /-- New identifiers are those of no records. -/
  unused : ∀ id ∈ drawn, store.row? id = none
  /-- So these are given to entries that state none, whether or not another entry states them. -/
  given : ∀ id, id ∈ Json.assigned entries ids ↔ id ∈ drawn ∨
    ∃ key, id ∈ (store.linkedUnder owner key).take (Json.demand entries (some key))

theorem Env.Shares.assigns {store : Store} {owner : EntityId} {entries : List Json}
    {left : KeyedAttributes} {reused drawn ids : List EntityId}
    (shares : Shares entries (store.keyedBy owner) left reused drawn ids) (sound : store.SoundRows)
    (unused : ∀ id ∈ drawn, store.row? id = none) (drawnOnce : drawn.Nodup) :
    store.Assigns owner entries drawn ids := by
  obtain ⟨stated, linked, assigned, under⟩ := shares
  have keyed := linked.nodup_iff.mp (Store.keyedBy_nodup sound owner)
  have sequence (key : String) : ∃ new, new ⊆ drawn ∧ Json.assignedUnder entries ids (some key) =
      (store.linkedUnder owner key).take (Json.demand entries (some key)) ++ new := by
    rw [← Store.under_keyedBy]
    exact under (some key)
  refine ⟨stated, ?_, sequence, unused, fun id => ⟨fun isAssigned => ?_, ?_⟩⟩
  · refine assigned.nodup_iff.mpr (List.nodup_append.mpr
      ⟨(List.nodup_append.mp keyed).1, drawnOnce, fun id isReused other isDrawn same => ?_⟩)
    have stored := Store.isSome_of_mem_keyedBy
      (linked.mem_iff.mpr (List.mem_append_left (left.map Prod.snd) isReused))
    rw [same, unused other isDrawn] at stored
    cases stored
  · obtain ⟨link, isLink, rfl⟩ := List.mem_map.mp isAssigned
    have listed : link.2 ∈ Json.assignedUnder entries ids link.1.attributeKey? :=
      List.mem_map_of_mem (List.mem_filter.mpr ⟨isLink, decide_eq_true rfl⟩)
    cases isKey : link.1.attributeKey? with
    | none =>
        obtain ⟨new, isDrawn, same⟩ := under none
        rw [isKey, same] at listed
        simp only [KeyedAttributes.under, reduceCtorEq, decide_false, List.filter_false, List.map_nil,
          List.take_nil, List.nil_append] at listed
        exact Or.inl (isDrawn listed)
    | some key =>
        obtain ⟨new, isDrawn, same⟩ := sequence key
        rw [isKey, same] at listed
        rcases List.mem_append.mp listed with isLinked | isNew
        · exact Or.inr ⟨key, isLinked⟩
        · exact Or.inl (isDrawn isNew)
  · rintro (isDrawn | ⟨key, isLinked⟩)
    · exact assigned.mem_iff.mpr (List.mem_append_right reused isDrawn)
    · obtain ⟨new, _, same⟩ := sequence key
      have listed : id ∈ Json.assignedUnder entries ids (some key) := by
        rw [same]
        exact List.mem_append_left new isLinked
      obtain ⟨link, isLink, rfl⟩ := List.mem_map.mp listed
      exact List.mem_map_of_mem (List.mem_filter.mp isLink).1

/-- In every store that a run can lead to, attributes that are sent without an identifier are given
different ones: the first linked ones with their keys, even if another entry states one of these,
and new ones. -/
theorem Reachable.readLinks_assigns {env : Env} (registered : env.registry = .standard)
    {store before after : Store} (reachable : Reachable .standard store)
    (prior : store.DrawsOnly before) {owner : EntityId} {entries : List Json}
    (spare : store.entities.size + entries.length ≤ 2 ^ 128) {ids : List EntityId}
    {bundles : List Bundle}
    (accepted : env.readLinks owner (some (.array entries)) before = .ok ((ids, bundles), after)) :
    ∃ drawn, before.Draws env.generator drawn after ∧ store.Assigns owner entries drawn ids := by
  have sound := (Trail.of_run reachable).disputed.rows
  have kept := prior.keepsRecords
  have linked := (Env.keyedAttributes_eq kept owner).trans
    (Env.keyedAttributes_of_sound registered sound owner)
  unfold Env.readLinks at accepted
  simp only [Json.array?, linked, bind_eq_ok, ofRefusal_eq_ok, pure_eq_ok, Prod.exists,
    Prod.mk.injEq, Except.ok.injEq, exists_eq_left'] at accepted
  obtain ⟨links, left, last, read, ⟨rfl, rfl⟩, rfl⟩ := accepted
  obtain ⟨reused, drawn, draws, shares⟩ := Env.readLinkEntries_shares registered read
  have enough : before.entities.size + drawn.length ≤ 2 ^ 128 := by
    have same : before.entities = store.entities := by rw [prior]
    have count := shares.assigned.length_eq
    have fewer : (Json.assigned entries (links.map Prod.fst)).length ≤ entries.length := by
      rw [Json.assigned, List.length_map]
      refine Nat.le_trans (List.length_filter_le _ _) ?_
      rw [List.length_zip]
      exact Nat.min_le_left _ _
    rw [List.length_append] at count
    rw [same]
    omega
  have unused : ∀ id ∈ drawn, store.row? id = none := fun id isDrawn => by
    rw [← kept.row?_eq]
    exact draws.unused enough id isDrawn
  exact ⟨drawn, draws, shares.assigns sound unused (draws.nodup enough)⟩

/-- A story that links two attributes with one key. -/
def Store.withSharedKey : Store :=
  .following ⟨.standard, 3, 0⟩
    [.commit .attr ⟨⟨1⟩⟩ (some ⟨.ofList [("key", .text "topic")], .empty⟩) ⟨"editor", .direct⟩,
      .commit .attr ⟨⟨4⟩⟩ (some ⟨.ofList [("key", .text "topic")], .empty⟩) ⟨"editor", .direct⟩,
      .commit .story ⟨⟨2⟩⟩ (some ⟨.ofList [("title", .text "rain")],
        .ofList [("attributes", [⟨⟨1⟩⟩, ⟨⟨4⟩⟩])]⟩) ⟨"editor", .direct⟩]

theorem reachable_withSharedKey : Reachable .standard .withSharedKey :=
  reachable_following ⟨.standard, 3, 0⟩ _

/-- The two attributes are sent, of which the second does not state its identifier. -/
def Json.halfStated : List Json :=
  [.ofMembers [("id", EntityId.toJson ⟨⟨1⟩⟩), ("key", .text "topic")],
    .ofMembers [("key", .text "topic")]]

/-- Both are read as the first. -/
theorem readLinks_halfStated : ∃ bundles after,
    Env.readLinks ⟨.standard, 3, 0⟩ ⟨⟨2⟩⟩ (some (.array Json.halfStated)) .withSharedKey =
      .ok (([⟨⟨1⟩⟩, ⟨⟨1⟩⟩], bundles), after) := by
  have read : (Env.readLinks ⟨.standard, 3, 0⟩ ⟨⟨2⟩⟩ (some (.array Json.halfStated))
      .withSharedKey).toOption.map (fun taken => taken.1.1) = some [⟨⟨1⟩⟩, ⟨⟨1⟩⟩] := by
    decide +kernel
  obtain ⟨⟨⟨ids, bundles⟩, after⟩, taken, rfl⟩ := Option.map_eq_some_iff.mp read
  refine ⟨bundles, after, ?_⟩
  cases answer : Env.readLinks _ _ _ _ with
  | error error =>
      rw [answer] at taken
      cases taken
  | ok found =>
      rw [answer] at taken
      exact congrArg Except.ok (Option.some.inj taken)

theorem readLinks_assigns_halfStated :
    ∃ drawn after, Store.withSharedKey.Draws .counting drawn after ∧
      Store.withSharedKey.Assigns ⟨⟨2⟩⟩ Json.halfStated drawn [⟨⟨1⟩⟩, ⟨⟨1⟩⟩] ∧
      Store.withSharedKey.linkedUnder ⟨⟨2⟩⟩ "topic" = [⟨⟨1⟩⟩, ⟨⟨4⟩⟩] := by
  obtain ⟨bundles, after, read⟩ := readLinks_halfStated
  obtain ⟨drawn, draws, assigns⟩ := reachable_withSharedKey.readLinks_assigns rfl (.refl _)
    (by decide +kernel) read
  exact ⟨drawn, after, draws, assigns, by decide +kernel⟩

/-- So an identifier that is given to an entry that states none can be stated by another entry. -/
theorem not_assigned_apart :
    ¬ ∀ (env : Env) (store after : Store) (owner : EntityId) (entries : List Json)
      (ids : List EntityId) (bundles : List Bundle), env.registry = .standard →
      Reachable .standard store →
      env.readLinks owner (some (.array entries)) store = .ok ((ids, bundles), after) →
      (Json.assigned entries ids).Nodup ∧
        ∀ id ∈ Json.assigned entries ids, id ∉ entries.filterMap Json.statedId? := by
  intro apart
  obtain ⟨bundles, after, read⟩ := readLinks_halfStated
  have different := (apart _ _ _ _ _ _ _ rfl reachable_withSharedKey read).2 ⟨⟨1⟩⟩
    (by decide +kernel)
  exact different (by decide +kernel)

end Chronicle
