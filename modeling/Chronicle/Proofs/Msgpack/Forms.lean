import Chronicle.Binary
import Chronicle.Proofs.Msgpack.Items

/-!
# Field values and contents are read as they were written

The binary form states lengths in 32 bits. A value, a dictionary or a content whose texts, lists and
dictionaries have such lengths (`Sized`) is read from its binary form, whatever follows it; so
contents of such lengths have different binary forms if they differ.
-/

namespace Chronicle

open Msgpack

/-! ## Identifiers -/

theorem Uuid.ofBytes?_bytes (id : Uuid) : Uuid.ofBytes? id.bytes = some id := by
  have fits : id.bits.toNat < 256 ^ 16 := id.bits.isLt
  rw [Uuid.ofBytes?, Uuid.bytes, if_pos (Bytes.length_bigEndian 16 _), Bytes.toNat_bigEndian,
    Nat.mod_eq_of_lt fits, BitVec.ofNat_toNat, BitVec.setWidth_eq]

theorem Uuid.takes_write (id : Uuid) : Takes Uuid.read id.write id := by
  have short : id.bytes.length < 2 ^ 32 := by
    rw [Uuid.bytes, Bytes.length_bigEndian]
    decide
  intro rest
  simp [Uuid.read, Uuid.write, takes_writeBinary short rest, Uuid.ofBytes?_bytes]

theorem EntityId.takes_write (id : EntityId) : Takes EntityId.read id.write id := by
  intro rest
  simp [EntityId.read, EntityId.write, id.uuid.takes_write rest]

theorem ConflictId.takes_write (id : ConflictId) : Takes ConflictId.read id.write id := by
  intro rest
  simp [ConflictId.read, ConflictId.write, id.uuid.takes_write rest]

/-! ## Lengths -/

/-- The text of a value has a length that the binary form can state. -/
def FieldValue.Sized : FieldValue → Prop
  | text value => (Bytes.ofText value).length < 2 ^ 32
  | _ => True

instance : DecidablePred FieldValue.Sized
  | .text value => inferInstanceAs (Decidable ((Bytes.ofText value).length < 2 ^ 32))
  | .null => inferInstanceAs (Decidable True)
  | .integer _ => inferInstanceAs (Decidable True)
  | .float _ => inferInstanceAs (Decidable True)
  | .boolean _ => inferInstanceAs (Decidable True)
  | .timestamp _ => inferInstanceAs (Decidable True)
  | .reference _ => inferInstanceAs (Decidable True)

/-- The number of entries, their names and their values have lengths that the binary form can
state. -/
def Dict.Sized {ν : Type} (fits : ν → Prop) (dict : Dict String ν) : Prop :=
  dict.size < 2 ^ 32 ∧
    ∀ entry ∈ dict.entries, (Bytes.ofText entry.1).length < 2 ^ 32 ∧ fits entry.2

instance {ν : Type} {fits : ν → Prop} [DecidablePred fits] : DecidablePred (Dict.Sized fits) :=
  fun _ => inferInstanceAs (Decidable (_ ∧ _))

/-- All lengths in a content are such that the binary form can state them. -/
def Content.Sized (content : Content) : Prop :=
  content.fields.Sized FieldValue.Sized ∧
    content.relations.Sized fun members => members.length < 2 ^ 32

instance : DecidablePred Content.Sized := fun _ => inferInstanceAs (Decidable (_ ∧ _))

/-! ## Field values -/

namespace FieldValue

theorem takes_write {value : FieldValue} (sized : value.Sized) :
    Takes FieldValue.read value.write value := by
  intro rest
  cases value with
  | null =>
      have named : Takes (readVariant tags) (writeText "Null") (0, false) :=
        takes_plain (by decide) (by decide)
      simp [FieldValue.read, FieldValue.write, named rest, readPlain]
  | text value =>
      have found : placeOf? tags "Text" = some 1 := by decide
      simp [FieldValue.read, FieldValue.write, takes_variant (by decide) found,
        takes_readData (takes_writeText sized) _ _]
  | integer value =>
      have found : placeOf? tags "Integer" = some 2 := by decide
      simp [FieldValue.read, FieldValue.write, takes_variant (by decide) found,
        takes_readData (takes_writeInt value) _ _]
  | float value =>
      have found : placeOf? tags "Float" = some 3 := by decide
      simp [FieldValue.read, FieldValue.write, takes_variant (by decide) found,
        takes_readData (takes_writeFloat value) _ _]
  | boolean value =>
      have found : placeOf? tags "Boolean" = some 4 := by decide
      simp [FieldValue.read, FieldValue.write, takes_variant (by decide) found,
        takes_readData (takes_writeBool value) _ _]
  | timestamp value =>
      have found : placeOf? tags "Timestamp" = some 5 := by decide
      simp [FieldValue.read, FieldValue.write, takes_variant (by decide) found,
        takes_readData (takes_writeInt value) _ _]
  | reference value =>
      have found : placeOf? tags "EntityRef" = some 6 := by decide
      simp [FieldValue.read, FieldValue.write, takes_variant (by decide) found,
        takes_readData value.takes_write _ _]

end FieldValue

/-! ## Contents -/

namespace Content

theorem takes_write {content : Content} (sized : content.Sized) :
    Takes Content.read content.write content := by
  obtain ⟨⟨fieldCount, fields⟩, relationCount, relations⟩ := sized
  have fieldsTaken : Takes (readField 0 ⟨none, none⟩) (writeDict FieldValue.write content.fields)
      ⟨some content.fields, none⟩ :=
    takes_readOnce (takes_writeDict fieldCount (fun entry listed => (fields entry listed).1)
      fun entry listed => FieldValue.takes_write (fields entry listed).2)
      fun value => (⟨some value, none⟩ : Draft)
  have relationsTaken : Takes (readField 1 ⟨some content.fields, none⟩)
      (writeDict (writeList EntityId.write) content.relations)
      ⟨some content.fields, some content.relations⟩ :=
    takes_readOnce (takes_writeDict relationCount (fun entry listed => (relations entry listed).1)
      fun entry listed => takes_writeList (relations entry listed).2 fun id _ => id.takes_write)
      fun value => (⟨some content.fields, some value⟩ : Draft)
  have draftTaken : Takes (readRecord 0 ["fields", "relations"] ⟨none, none⟩ readField)
      content.write ⟨some content.fields, some content.relations⟩ :=
    takes_writeRecord rfl (by decide)
      (takes_field fieldsTaken (takes_field relationsTaken (takes_noFields readField 2 _)))
  intro rest
  simp [Content.read, draftTaken rest]

/-- Contents of such lengths are told apart by their binary forms. -/
theorem write_injective {first second : Content} (firstSized : first.Sized)
    (secondSized : second.Sized) (same : first.write = second.write) : first = second := by
  have read := takes_write firstSized []
  rw [same, takes_write secondSized []] at read
  exact (congrArg Prod.fst (Option.some.inj read)).symm

end Content

end Chronicle
