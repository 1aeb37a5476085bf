import Chronicle.Proofs.Msgpack.Forms
import Chronicle.Proofs.Standard
import Mathlib.Data.Set.Function

/-!
# Changes, normal forms and digests agree

Whether two contents count as the same is decided in three ways: by the differences between them,
by their normal forms, and by the bytes of these, of which the digest is taken. All three give the
same answer (`Descriptor.compares`). The bytes have to state all lengths for that, which they do in
32 bits, and digests tell contents apart as far as the hash does not collide on their bytes.
-/

namespace Chronicle

/-- Values agree if they are of one type and hold the same, doubles by their bits. A whole number,
a moment and a double never agree. -/
def FieldValue.Agrees : FieldValue → FieldValue → Prop
  | null, null => True
  | text first, text second => first = second
  | integer first, integer second => first.toInt = second.toInt
  | float first, float second => first.bits = second.bits
  | boolean first, boolean second => first = second
  | timestamp first, timestamp second => first.toInt = second.toInt
  | reference first, reference second => first = second
  | _, _ => False

theorem FieldValue.agrees_iff {first second : FieldValue} :
    first.Agrees second ↔ first = second := by
  have doubles {first second : Binary64} : first.bits = second.bits ↔ first = second := by
    cases first
    cases second
    simp
  cases first <;> cases second <;> simp [Agrees, doubles, Int64.toInt_inj]

namespace Descriptor

theorem digest_congr {descriptor : Descriptor} {first second : Content}
    (same : descriptor.normal first = descriptor.normal second) :
    descriptor.digest first = descriptor.digest second := by
  rw [digest, digest, same]

/-- The three ways to compare two contents give one answer. -/
structure Compares (descriptor : Descriptor) (first second : Content) : Prop where
  /-- The fields that differ are those whose values do not agree; absent counts as null. -/
  fields : ∀ name, name ∈ (descriptor.compare (some first) (some second)).fields ↔
    ¬ (first.value name).Agrees (second.value name)
  /-- There is no change exactly if the normal forms are the same. -/
  normal : (descriptor.compare (some first) (some second)).kind = .noChange ↔
    descriptor.normal first = descriptor.normal second
  /-- Without a change the bytes of the normal forms are the same. -/
  written : (descriptor.compare (some first) (some second)).kind = .noChange →
    (descriptor.normal first).write = (descriptor.normal second).write
  /-- There is no change exactly if the bytes of the normal forms are the same. -/
  binary : (descriptor.normal first).Sized → (descriptor.normal second).Sized →
    ((descriptor.compare (some first) (some second)).kind = .noChange ↔
      (descriptor.normal first).write = (descriptor.normal second).write)
  /-- Without a change the digests are the same. -/
  digest : (descriptor.compare (some first) (some second)).kind = .noChange →
    descriptor.digest first = descriptor.digest second
  /-- There is no change if the digests are the same and the hash does not collide. -/
  apart : (descriptor.normal first).Sized → (descriptor.normal second).Sized →
    ∀ hashed : Set Bytes, hashed.InjOn Digest.of → (descriptor.normal first).write ∈ hashed →
      (descriptor.normal second).write ∈ hashed →
      descriptor.digest first = descriptor.digest second →
      (descriptor.compare (some first) (some second)).kind = .noChange

theorem compares {descriptor : Descriptor} {first second : Content}
    (distinctNames : (descriptor.relations.map RelationSpec.name).Nodup)
    (firstDeclared : descriptor.Declares first) (secondDeclared : descriptor.Declares second) :
    descriptor.Compares first second := by
  have normal : (descriptor.compare (some first) (some second)).kind = .noChange ↔
      descriptor.normal first = descriptor.normal second := by
    rw [← compare_immaterial_iff distinctNames firstDeclared secondDeclared, Change.isMaterial,
      decide_eq_false_iff_not, Decidable.not_not]
  have binary (firstSized : (descriptor.normal first).Sized)
      (secondSized : (descriptor.normal second).Sized) :
      (descriptor.compare (some first) (some second)).kind = .noChange ↔
        (descriptor.normal first).write = (descriptor.normal second).write :=
    ⟨fun same => congrArg Content.write (normal.mp same),
      fun same => normal.mpr (Content.write_injective firstSized secondSized same)⟩
  exact
    { fields := fun name => by
        rw [FieldValue.agrees_iff]
        exact mem_changedFields_iff
      normal := normal
      written := fun same => congrArg Content.write (normal.mp same)
      binary := binary
      digest := fun same => digest_congr (normal.mp same)
      apart := fun firstSized secondSized hashed injective firstHashed secondHashed same =>
        (binary firstSized secondSized).mpr (injective firstHashed secondHashed same) }

/-- A kind with a double, a relation whose sequence counts and one whose sequence does not. -/
def series : Descriptor where
  kind := .story
  historyTable := "series_history"
  key := .surrogate
  fields := [⟨"title", .text, true⟩, ⟨"weight", .float, false⟩, ⟨"note", .text, false⟩]
  relations := [⟨"parts", .newsItem, true, none⟩, ⟨"attributes", .attr, false, none⟩]

end Descriptor

namespace Content

/-- A series of the weight -0, with a null note and an attribute listed twice. -/
def light : Content where
  fields := Dict.ofList [("title", .text "Flood"), ("weight", .float ⟨0x8000000000000000⟩),
    ("note", .null)]
  relations := Dict.ofList [("parts", [⟨⟨7⟩⟩, ⟨⟨5⟩⟩]), ("attributes", [⟨⟨3⟩⟩, ⟨⟨2⟩⟩, ⟨⟨3⟩⟩])]

/-- The same without the note, and with each attribute once. -/
def lightAgain : Content where
  fields := Dict.ofList [("title", .text "Flood"), ("weight", .float ⟨0x8000000000000000⟩)]
  relations := Dict.ofList [("parts", [⟨⟨7⟩⟩, ⟨⟨5⟩⟩]), ("attributes", [⟨⟨2⟩⟩, ⟨⟨3⟩⟩])]

/-- The same with the weight 0. -/
def weightless : Content := lightAgain.setField "weight" (.float ⟨0⟩)

end Content

namespace Descriptor

open Content

theorem compares_series_light :
    light ≠ lightAgain ∧ series.Compares light lightAgain ∧ series.Compares light weightless ∧
      Set.InjOn Digest.of {(series.normal light).write, (series.normal weightless).write} ∧
      (series.compare (some light) (some lightAgain)).kind = .noChange ∧
      (series.compare (some light) (some weightless)).fields = ["weight"] ∧
      (series.normal light).write ≠ (series.normal weightless).write := by
  have distinctNames : (series.relations.map RelationSpec.name).Nodup := by decide
  have lightDeclared : series.Declares light := declares_of_check (by decide +kernel)
  have againDeclared : series.Declares lightAgain := declares_of_check (by decide +kernel)
  have otherDeclared : series.Declares weightless := declares_of_check (by decide +kernel)
  have again := compares distinctNames lightDeclared againDeclared
  have other := compares distinctNames lightDeclared otherDeclared
  have differ : series.digest light ≠ series.digest weightless := by decide +kernel
  have injective : Set.InjOn Digest.of
      {(series.normal light).write, (series.normal weightless).write} := by
    rintro _ (rfl | rfl) _ (rfl | rfl) same
    · rfl
    · exact absurd same differ
    · exact absurd same.symm differ
    · rfl
  have same : (series.compare (some light) (some lightAgain)).kind = .noChange :=
    again.apart (by decide +kernel) (by decide +kernel) _ injective (Or.inl rfl)
      (Or.inl (by decide +kernel)) (by decide +kernel)
  have changed : (series.compare (some light) (some weightless)).kind ≠ .noChange :=
    fun unchanged => differ (other.digest unchanged)
  have apart : (series.normal light).write ≠ (series.normal weightless).write := fun written =>
    changed ((other.binary (by decide +kernel) (by decide +kernel)).mpr written)
  exact ⟨by decide +kernel, again, other, injective, same, by decide +kernel, apart⟩

end Descriptor

end Chronicle
