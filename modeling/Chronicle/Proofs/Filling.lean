import Chronicle.Exchange.Push
import Chronicle.Proofs.Tables
import Chronicle.Proofs.Steps

/-!
# Filling in identifiers

A body is filled with the identifiers of a response, story by story and item by item
(`Json.filled`). An identifier that has been filled in is read as it was written
(`Intake.id_insert`), and nothing else of the object is read differently
(`Descriptor.readContent_insert`).
-/

namespace Chronicle

open RequestError (ofFault)

/-! ## Identifiers as text -/

namespace Hex

theorem value?_digit {value : Nat} (bound : value < 16) : value? (digit value) = some value := by
  have all : ∀ value < 16, value? (digit value) = some value := by decide
  exact all value bound

theorem length_digits (width number : Nat) : (digits width number).length = width := by
  induction width with
  | zero => rfl
  | succ width ih => rw [digits, List.length_cons, ih]

/-- Digits are read as what they add to the number before them. -/
theorem foldlM_digits (width number read : Nat) :
    (digits width number).foldlM
        (fun number char => (value? char).map fun value => 16 * number + value) read =
      some (16 ^ width * read + number % 16 ^ width) := by
  induction width generalizing read with
  | zero => simp [digits, Nat.mod_one]
  | succ width ih =>
      rw [digits, List.foldlM_cons, value?_digit (Nat.mod_lt _ (by decide)), Option.map_some,
        Option.bind_eq_bind, Option.bind_some, ih, Option.some.injEq]
      have first : number % 16 ^ (width + 1) =
          16 ^ width * (number / 16 ^ width % 16) + number % 16 ^ width := by
        rw [Nat.pow_succ, Nat.mod_mul]
        omega
      rw [first, Nat.pow_succ, Nat.mul_add, Nat.mul_assoc]
      omega

theorem number?_digits (width number : Nat) :
    number? (digits width number) = some (number % 16 ^ width) := by
  rw [number?, foldlM_digits]
  simp

end Hex

namespace Uuid

/-- The hyphens are read away. -/
theorem ofHyphenated?_hyphenate {digits : List Char} (length : digits.length = 32) :
    ofHyphenated? (hyphenate digits) = ofDigits? digits := by
  have cut (list : List Char) {count : Nat} (enough : count ≤ list.length) :
      ∃ front back, list = front ++ back ∧ front.length = count :=
    ⟨_, _, (List.take_append_drop count list).symm, List.length_take_of_le enough⟩
  obtain ⟨a, rest, rfl, first⟩ := cut digits (show 8 ≤ digits.length by omega)
  rw [List.length_append] at length
  obtain ⟨b, rest, rfl, second⟩ := cut rest (show 4 ≤ rest.length by omega)
  rw [List.length_append] at length
  obtain ⟨c, rest, rfl, third⟩ := cut rest (show 4 ≤ rest.length by omega)
  rw [List.length_append] at length
  obtain ⟨d, e, rfl, fourth⟩ := cut rest (show 4 ≤ rest.length by omega)
  rw [List.length_append] at length
  have last : e.length = 12 := by omega
  have hyphenated : hyphenate (a ++ (b ++ (c ++ (d ++ e)))) =
      a ++ '-' :: (b ++ '-' :: (c ++ '-' :: (d ++ '-' :: e))) := by
    simp (disch := omega) [hyphenate, List.drop_append, List.drop_eq_nil_of_le, first, second, third]
  rw [hyphenated, ofHyphenated?, if_pos (by simp [first, second, third, fourth, last])]
  simp (disch := omega) [List.drop_append, List.drop_eq_nil_of_le, first, second, third, fourth]

/-- An identifier is read from its canonical text. -/
theorem ofText?_text (id : Uuid) : ofText? id.text = some id := by
  have length := Hex.length_digits 32 id.bits.toNat
  have hyphenated : (hyphenate (Hex.digits 32 id.bits.toNat)).length = 36 := by
    simp only [hyphenate, List.length_append, List.length_cons, List.length_take, List.length_drop,
      length]
    rfl
  rw [ofText?, text, String.toList_ofList, ofChars?, chars, hyphenated]
  change ofHyphenated? _ = _
  rw [ofHyphenated?_hyphenate length, ofDigits?, if_pos length, Hex.number?_digits,
    Option.map_some, Nat.mod_eq_of_lt id.bits.isLt, BitVec.ofNat_toNat, BitVec.setWidth_eq]

end Uuid

theorem EntityId.ofText?_text (id : EntityId) : ofText? id.text = some id := by
  rw [ofText?, text, Uuid.ofText?_text]
  rfl

theorem EntityId.ofJson_toJson (what : String) (id : EntityId) :
    EntityId.ofJson what id.toJson = .ok id := by
  rw [EntityId.ofJson, EntityId.toJson, Json.text?, Option.bind_some, EntityId.ofText?_text]

/-! ## Members that are set -/

namespace Json

/-- The identifier that an object gives itself; null is none. -/
def id? (json : Json) : Option Json :=
  (json.object?.bind fun members => members.get? "id").filter fun id => !id.isNull

/-- The entries of a list in an object. -/
def listed (json : Json) (name : String) : List Json :=
  ((json.object?.bind fun members => members.get? name).bind array?).getD []

/-- An object with a member set. -/
def withMember (json : Json) (name : String) (value : Json) : Json :=
  match json.object? with
  | some members => .ofDict (members.insert name value)
  | none => json

/-- An object with the entries of a list changed, if it has that list. -/
def withList (json : Json) (name : String) (change : List Json → List Json) : Json :=
  match (json.object?.bind fun members => members.get? name).bind array? with
  | some items => json.withMember name (.array (change items))
  | none => json

/-- An object with the identifier of another. -/
def identifiedBy (json shown : Json) : Json :=
  match shown.id? with
  | some id => json.withMember "id" id
  | none => json

/-- A story with the identifiers that it is shown with: its own and those of its items. -/
def shownAs (story shown : Json) : Json :=
  (story.withList itemRelation fun items =>
    List.zipWith identifiedBy items (shown.listed itemRelation)).identifiedBy shown

/-- A body with the identifiers of a response filled in by position. -/
def filled (body response : Json) : Json :=
  let fill stories := List.zipWith shownAs stories (response.listed "stories")
  match body with
  | .array stories => .array (fill stories)
  | _ => body.withList "stories" fill

theorem object?_ofDict (members : Dict String Json) : (ofDict members).object? = some members :=
  congrArg some (Dict.ofList_entries members)

theorem object?_ofMembers (members : List (String × Json)) :
    (ofMembers members).object? = some (Dict.ofList members) :=
  object?_ofDict _

theorem object?_withMember {json : Json} {members : Dict String Json}
    (object : json.object? = some members) (name : String) (value : Json) :
    (json.withMember name value).object? = some (members.insert name value) := by
  rw [withMember, object]
  exact object?_ofDict _

theorem object?_identifiedBy {json shown : Json} {members : Dict String Json}
    (object : json.object? = some members) {id : Json} (given : shown.id? = some id) :
    (json.identifiedBy shown).object? = some (members.insert "id" id) := by
  rw [identifiedBy, given]
  exact object?_withMember object "id" id

end Json

/-- An identifier that is filled in is read as it was written. -/
theorem Intake.id_insert (env : Env) (what : String) (members : Dict String Json) (id : EntityId)
    (store : Store) : Intake.id env what (members.insert "id" id.toJson) store = .ok (id, store) := by
  unfold Intake.id
  rw [Dict.get?_insert_self]
  change (ofFault (EntityId.ofJson what id.toJson) >>= _) = _
  rw [EntityId.ofJson_toJson]
  rfl

namespace Descriptor

variable {descriptor : Descriptor} {skipped : List String}

/-- Members that are passed over make no difference to a content. -/
theorem readMembers_filter (entries : List (String × Json)) (content : Content) :
    descriptor.readMembers skipped entries content =
      descriptor.readMembers skipped (entries.filter fun entry =>
        !decide (entry.1 ∈ reservedNames ∨ entry.1 ∈ skipped)) content := by
  induction entries generalizing content with
  | nil => rfl
  | cons entry rest ih =>
      obtain ⟨name, json⟩ := entry
      by_cases passed : name ∈ reservedNames ∨ name ∈ skipped
      · rw [readMembers, if_pos passed, List.filter_cons_of_neg (by simpa [or_iff_not_imp_left] using passed),
          ih]
      · rw [readMembers, if_neg passed, List.filter_cons_of_pos (by simpa using passed), readMembers,
          if_neg passed]
        cases descriptor.readMember content name json with
        | error fault => rfl
        | ok next => exact ih next

theorem readContent_insert {name : String} (passed : name ∈ reservedNames ∨ name ∈ skipped)
    (members : Dict String Json) (value : Json) (content : Content) :
    descriptor.readContent skipped (members.insert name value) content =
      descriptor.readContent skipped members content := by
  have same : (members.insert name value).filter (fun name _ =>
      !decide (name ∈ reservedNames ∨ name ∈ skipped)) = members.filter fun name _ =>
        !decide (name ∈ reservedNames ∨ name ∈ skipped) :=
    Dict.filter_insert_of_not (fun _ => by simpa [or_iff_not_imp_left] using passed) value
  have kept : ((members.insert name value).entries.filter fun entry =>
      !decide (entry.1 ∈ reservedNames ∨ entry.1 ∈ skipped)) = members.entries.filter fun entry =>
        !decide (entry.1 ∈ reservedNames ∨ entry.1 ∈ skipped) := congrArg Dict.entries same
  rw [readContent, readContent, readMembers_filter, readMembers_filter members.entries, kept]

end Descriptor

end Chronicle
