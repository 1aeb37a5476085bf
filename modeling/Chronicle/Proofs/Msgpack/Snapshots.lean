import Chronicle.Proofs.Content.Difference
import Chronicle.Proofs.Msgpack.Forms

/-!
# Binary forms are read again

Field values, contents and snapshots are read again as they were written, whatever follows their
binary forms, and no such form begins another one (`Msgpack.Restores`). So nothing is lost by writing
down, and values that differ have different bytes: a field of two contents has changed exactly if the
bytes of its values differ (`Msgpack.forms_restored`).
-/

namespace Chronicle

namespace Msgpack

/-- Values that fit are read again from what was written, whatever follows it, and two of them are
told apart by what was written, whatever follows. -/
structure Restores {α β : Type} (write : α → Bytes) (read : Bytes → β) (found : α → β)
    (fits : α → Prop) : Prop where
  reads : ∀ value, fits value → ∀ rest, read (write value ++ rest) = found value
  /-- No form begins another one. -/
  apart : ∀ first second, fits first → fits second → ∀ rest other,
    write first ++ rest = write second ++ other → first = second ∧ rest = other

/-- A reader that takes each value from its form restores the values. -/
theorem Restores.of_takes {α β : Type} {write : α → Bytes} {take : Reader α} {read : Bytes → β}
    {found : α → β} {fits : α → Prop}
    (taken : ∀ value, fits value → Takes take (write value) value)
    (finds : ∀ bytes value rest, take bytes = some (value, rest) → read bytes = found value) :
    Restores write read found fits where
  reads value fitting rest := finds _ value rest (taken value fitting rest)
  apart first second firstFits secondFits rest other same := by
    have both := taken first firstFits rest
    rw [same, taken second secondFits other] at both
    obtain ⟨rfl, rfl⟩ := Prod.mk.inj (Option.some.inj both)
    exact ⟨rfl, rfl⟩

end Msgpack

open Msgpack

/-! ## Parts of a snapshot -/

theorem Kind.takes_tag (kind : Kind) : Takes Kind.read (writeText kind.tag) kind := by
  have found : placeOf? (Kind.all.map Kind.tag) kind.tag = some kind.rank := by
    cases kind <;> decide
  have short : (Bytes.ofText kind.tag).length < 2 ^ 32 := by cases kind <;> decide
  have placed : Kind.all[kind.rank]? = some kind := by cases kind <;> rfl
  intro rest
  simp [Kind.read, takes_plain short found rest, placed, readPlain]

/-- The place of a kind of change among all of them. -/
theorem ChangeKind.exists_place (change : ChangeKind) :
    ∃ place, placeOf? (ChangeKind.all.map ChangeKind.tag) change.tag = some place ∧
      ChangeKind.all[place]? = some change := by
  cases change with
  | noChange => exact ⟨0, by decide, rfl⟩
  | fieldChange => exact ⟨1, by decide, rfl⟩
  | relationChange => exact ⟨2, by decide, rfl⟩
  | created => exact ⟨3, by decide, rfl⟩
  | deleted => exact ⟨4, by decide, rfl⟩

theorem ChangeKind.takes_tag (change : ChangeKind) :
    Takes ChangeKind.read (writeText change.tag) change := by
  have short : (Bytes.ofText change.tag).length < 2 ^ 32 := by cases change <;> decide
  obtain ⟨place, found, placed⟩ := change.exists_place
  intro rest
  simp [ChangeKind.read, takes_plain short found rest, placed, readPlain]

/-- The name of a producer has a length that the binary form can state. -/
def Origin.Sized : Origin → Prop
  | external scope => (Bytes.ofText scope).length < 2 ^ 32
  | _ => True

theorem Origin.takes_write {origin : Origin} (sized : origin.Sized) :
    Takes Origin.read origin.write origin := by
  intro rest
  cases origin with
  | direct =>
      have named : Takes (readVariant ["Local", "External", "Resolution"]) (writeText "Local")
          (0, false) := takes_plain (by decide) (by decide)
      simp [Origin.read, Origin.write, named rest, readPlain]
  | external scope =>
      have found : placeOf? ["Local", "External", "Resolution"] "External" = some 1 := by decide
      simp [Origin.read, Origin.write, takes_variant (by decide) found,
        takes_readData (takes_writeText sized) _ _]
  | resolution conflict =>
      have found : placeOf? ["Local", "External", "Resolution"] "Resolution" = some 2 := by decide
      simp [Origin.read, Origin.write, takes_variant (by decide) found,
        takes_readData conflict.takes_write _ _]

/-- The version of a member is a number of 64 bits. -/
def MemberRef.Sized (member : MemberRef) : Prop := ∀ version ∈ member.version, version < 2 ^ 64

theorem MemberRef.takes_write {member : MemberRef} (sized : member.Sized) :
    Takes MemberRef.read member.write member := by
  have draftTaken : Takes (readRecord 3 ["entity_id", "version"] ⟨none, none⟩ readField)
      member.write ⟨some member.id, some member.version⟩ := by
    refine takes_writeRecord rfl (by decide) ?_
    refine takes_once (by rw [readField]) rfl member.id.takes_write ?_
    refine takes_once (by rw [readField]) rfl (takes_writeOptionalNat sized) ?_
    exact takes_noFields readField 2 _
  intro rest
  simp [MemberRef.read, draftTaken rest]

/-! ## Snapshots -/

namespace Snapshot

/-- All numbers and lengths in a snapshot are such that the binary form can state them. -/
structure Sized (snapshot : Snapshot) : Prop where
  version : snapshot.version < 2 ^ 64
  changedBy : (Bytes.ofText snapshot.changedBy).length < 2 ^ 32
  origin : snapshot.origin.Sized
  fields : snapshot.fields.Sized FieldValue.Sized
  relations : snapshot.relations.Sized fun members =>
    members.length < 2 ^ 32 ∧ ∀ member ∈ members, member.Sized

/-- The fields of a snapshot are read one after another, each into its own place. -/
theorem takes_draft {snapshot : Snapshot} (sized : snapshot.Sized) :
    Takes (readRecord 0 fieldNames {} readField) snapshot.write
      { entity := some snapshot.entity
        kind := some snapshot.kind
        version := some snapshot.version
        changedAt := some snapshot.changedAt
        changedBy := some snapshot.changedBy
        origin := some snapshot.origin
        change := some snapshot.change
        fields := some snapshot.fields
        relations := some snapshot.relations } := by
  obtain ⟨fieldCount, fields⟩ := sized.fields
  obtain ⟨relationCount, relations⟩ := sized.relations
  have fieldsTaken : Takes (readDict FieldValue.read)
      (writeDict FieldValue.write snapshot.fields) snapshot.fields :=
    takes_writeDict fieldCount (fun entry listed => (fields entry listed).1)
      fun entry listed => FieldValue.takes_write (fields entry listed).2
  have relationsTaken : Takes (readDict (readList MemberRef.read))
      (writeDict (writeList MemberRef.write) snapshot.relations) snapshot.relations :=
    takes_writeDict relationCount (fun entry listed => (relations entry listed).1)
      fun entry listed => takes_writeList (relations entry listed).2.1
        fun member isMember => MemberRef.takes_write ((relations entry listed).2.2 member isMember)
  refine takes_writeRecord rfl (by decide) ?_
  -- after each field the draft is brought to a plain record, else it doubles with every field
  refine takes_once (by rw [readField]) rfl snapshot.entity.takes_write ?_
  dsimp only
  refine takes_once (by rw [readField]) rfl snapshot.kind.takes_tag ?_
  dsimp only
  refine takes_once (by rw [readField]) rfl (takes_writeNat sized.version) ?_
  dsimp only
  refine takes_once (by rw [readField]) rfl (takes_writeInt snapshot.changedAt) ?_
  dsimp only
  refine takes_once (by rw [readField]) rfl (takes_writeText sized.changedBy) ?_
  dsimp only
  refine takes_once (by rw [readField]) rfl (Origin.takes_write sized.origin) ?_
  dsimp only
  refine takes_once (by rw [readField]) rfl snapshot.change.takes_tag ?_
  dsimp only
  refine takes_once (by rw [readField]) rfl fieldsTaken ?_
  dsimp only
  refine takes_once (by rw [readField]) rfl relationsTaken ?_
  dsimp only
  exact takes_noFields readField 9 _

theorem takes_write {snapshot : Snapshot} (sized : snapshot.Sized) :
    Takes Snapshot.read snapshot.write snapshot := by
  intro rest
  simp [Snapshot.read, takes_draft sized rest]

end Snapshot

/-! ## All forms -/

theorem Content.value_sized {content : Content} (sized : content.Sized) (name : String) :
    (content.value name).Sized := by
  unfold value
  cases found : content.fields.get? name with
  | none => exact trivial
  | some value =>
      exact (sized.1.2 (name, value) (content.fields.get?_eq_some_iff.mp found)).2

namespace Msgpack

theorem restores_values :
    Restores FieldValue.write FieldValue.ofBytes? some FieldValue.Sized :=
  .of_takes (fun _ sized => FieldValue.takes_write sized) fun bytes value rest taken => by
    rw [FieldValue.ofBytes?, taken, Option.map_some]

theorem restores_contents : Restores Content.write Content.ofBytes .ok Content.Sized :=
  .of_takes (fun _ sized => Content.takes_write sized) fun bytes content rest taken => by
    rw [Content.ofBytes, taken]

theorem restores_snapshots : Restores Snapshot.write Snapshot.ofBytes .ok Snapshot.Sized :=
  .of_takes (fun _ sized => Snapshot.takes_write sized) fun bytes snapshot rest taken => by
    rw [Snapshot.ofBytes, taken]

/-- Two values of such lengths have the same bytes only if they are the same. -/
theorem Restores.write_eq_iff {α β : Type} {write : α → Bytes} {read : Bytes → β} {found : α → β}
    {fits : α → Prop} (restores : Restores write read found fits) {first second : α}
    (firstFits : fits first) (secondFits : fits second) :
    write first = write second ↔ first = second :=
  ⟨fun same => (restores.apart first second firstFits secondFits [] [] (by rw [same])).1,
    congrArg write⟩

end Msgpack

/-- A field has changed exactly if the binary form of its value has. -/
theorem Content.mem_changedFields_iff_write {before after : Content} (beforeSized : before.Sized)
    (afterSized : after.Sized) {name : String} :
    name ∈ before.changedFields after ↔ (before.value name).write ≠ (after.value name).write := by
  rw [Descriptor.mem_changedFields_iff, ne_eq, ne_eq,
    Msgpack.restores_values.write_eq_iff (before.value_sized beforeSized name)
      (after.value_sized afterSized name)]

namespace Msgpack

/-- Everything that is written down is read again as it was, and a field has changed exactly if its
bytes have. -/
theorem forms_restored :
    Restores FieldValue.write FieldValue.ofBytes? some FieldValue.Sized ∧
      Restores Content.write Content.ofBytes .ok Content.Sized ∧
      Restores Snapshot.write Snapshot.ofBytes .ok Snapshot.Sized ∧
      ∀ before after : Content, before.Sized → after.Sized → ∀ name,
        name ∈ before.changedFields after ↔
          (before.value name).write ≠ (after.value name).write := by
  refine ⟨restores_values, restores_contents, restores_snapshots, ?_⟩
  intro before after beforeSized afterSized name
  exact Content.mem_changedFields_iff_write beforeSized afterSized

end Msgpack

namespace Snapshot

/-- A snapshot with the greatest version, at the earliest moment, by a name of 32 letters. Its
doubles are no number and the zero below zero, and it has sixteen members. -/
def utmost : Snapshot where
  entity := ⟨⟨BitVec.allOnes 128⟩⟩
  kind := .newsItem
  version := 2 ^ 64 - 1
  changedAt := -2 ^ 63
  changedBy := "collector-of-the-northern-region"
  origin := .external "feed"
  change := .relationChange
  fields := Dict.ofList [("title", .null), ("link", .text ""), ("share", .float ⟨0x7ff8000000000001⟩),
    ("weight", .float ⟨0x8000000000000000⟩), ("count", .integer (-129)), ("published", .timestamp 256)]
  relations := Dict.ofList [("attributes", List.replicate 15 ⟨⟨⟨7⟩⟩, some 128⟩ ++ [⟨⟨⟨5⟩⟩, none⟩]),
    ("parts", [])]

theorem utmost_sized : utmost.Sized where
  version := by decide
  changedBy := by decide
  origin := by unfold utmost Origin.Sized; decide
  fields := by decide +kernel
  relations := by
    refine ⟨by decide +kernel, ?_⟩
    unfold MemberRef.Sized
    decide +kernel

end Snapshot

open Snapshot in
theorem Msgpack.forms_restored_utmost :
    utmost.Sized ∧ Snapshot.ofBytes (utmost.write ++ [0xc1]) = .ok utmost ∧
      { utmost with version := 2 ^ 63 }.Sized ∧
      utmost.write ≠ { utmost with version := 2 ^ 63 }.write ∧
      utmost.content.Sized ∧ Content.ofBytes utmost.content.write = .ok utmost.content ∧
      (utmost.content.setField "weight" (.float ⟨0⟩)).Sized ∧
      ((utmost.content).value "weight").write ≠
        ((utmost.content.setField "weight" (.float ⟨0⟩)).value "weight").write := by
  obtain ⟨_, contents, snapshots, changes⟩ := forms_restored
  have sized := utmost_sized
  have otherSized : { utmost with version := 2 ^ 63 }.Sized :=
    { version := by decide
      changedBy := sized.changedBy
      origin := sized.origin
      fields := sized.fields
      relations := sized.relations }
  have contentSized : utmost.content.Sized := by decide +kernel
  have lighterSized : (utmost.content.setField "weight" (.float ⟨0⟩)).Sized := by decide +kernel
  have back := contents.reads _ contentSized []
  rw [List.append_nil] at back
  refine ⟨sized, snapshots.reads _ sized _, otherSized, fun same => ?_, contentSized, back,
    lighterSized, (changes _ _ contentSized lighterSized "weight").mp (by decide +kernel)⟩
  have versions := (snapshots.apart _ _ sized otherSized [] [] (by rw [same])).1
  exact absurd (congrArg Snapshot.version versions) (by decide)

end Chronicle
