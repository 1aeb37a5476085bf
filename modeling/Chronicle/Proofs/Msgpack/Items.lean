import Chronicle.Msgpack.Item
import Chronicle.Proofs.Msgpack.Heads
import Chronicle.Proofs.Tables

/-!
# Items are read as they were written

Texts, numbers, lists, dictionaries, records and variants are read as they were written, whatever
follows them, as long as lengths fit the 32 bits that the format has for them. For lists,
dictionaries and records this comes down to their parts.
-/

namespace Chronicle

theorem Bytes.text?_ofText (text : String) : Bytes.text? (Bytes.ofText text) = some text := by
  have whole : (⟨(Bytes.ofText text).toArray⟩ : ByteArray) = text.toByteArray := by
    simp [Bytes.ofText]
  rw [Bytes.text?, whole, String.fromUTF8?, dif_pos text.isValidUTF8]
  rfl

namespace Msgpack

/-! ## Texts and bytes -/

theorem takes_writeText {text : String} (bounded : (Bytes.ofText text).length < 2 ^ 32) :
    Takes readText (writeText text) text := by
  intro rest
  simp [readText, writeText, Head.takes_text bounded _, Bytes.split?_append, Bytes.text?_ofText]

theorem takes_writeBinary {bytes : Bytes} (bounded : bytes.length < 2 ^ 32) :
    Takes readBinary (writeBinary bytes) bytes := by
  intro rest
  simp [readBinary, writeBinary, Head.takes_binary bounded _, Bytes.split?_append]

/-! ## Scalars -/

theorem Head.whole?_ofInt (value : Int) : (Head.ofInt value).whole? = some value := by
  unfold ofInt
  split
  · rename_i positive
    exact congrArg some (Int.toNat_of_nonneg positive)
  · rfl

/-- A whole number is read from any head that holds it. -/
theorem takes_readWhole {low high value : Int} {bytes : Bytes} {head : Head}
    (taken : Takes Head.read? bytes head) (whole : head.whole? = some value) (least : low ≤ value)
    (below : value < high) : Takes (readWhole low high) bytes value := by
  intro rest
  simp [readWhole, taken rest, whole, least, below]

theorem takes_writeInt (value : Int64) : Takes readInt64 (writeInt value.toInt) value := by
  have taken : Takes (readWhole (-2 ^ 63) (2 ^ 63)) (writeInt value.toInt) value.toInt :=
    takes_readWhole (Head.takes_signed value.le_toInt value.toInt_lt) (Head.whole?_ofInt _)
      value.le_toInt value.toInt_lt
  intro rest
  simp only [readInt64, taken rest, Option.map_some, Int64.ofInt_toInt]

theorem takes_writeNat {value : Nat} (bounded : value < 2 ^ 64) :
    Takes readNat64 (writeNat value) value := by
  have taken : Takes (readWhole 0 (2 ^ 64)) (writeNat value) value :=
    takes_readWhole (Head.takes_unsigned bounded) rfl (Int.natCast_nonneg _)
      (by exact_mod_cast bounded)
  intro rest
  simp only [readNat64, taken rest, Option.map_some, Int.toNat_natCast]

theorem takes_writeFloat (value : Binary64) : Takes readFloat (Head.float value).encode value := by
  intro rest
  simp [readFloat, Head.takes_float value _]

theorem takes_writeBool (value : Bool) : Takes readBool (Head.bool value).encode value := by
  intro rest
  simp [readBool, Head.takes_bool value _]

/-! ## Values that may be missing -/

theorem takes_none {α : Type} (read : Reader α) (write : α → Bytes) :
    Takes (readOptional read) (writeOptional write none) none := by
  intro rest
  simp [readOptional, writeOptional, readNil, Head.takes_nil rest]

/-- A number is never mistaken for one that is left out. -/
theorem takes_writeOptionalNat {version : Option Nat} (bounded : ∀ value ∈ version, value < 2 ^ 64) :
    Takes (readOptional readNat64) (writeOptional writeNat version) version := by
  cases version with
  | none => exact takes_none readNat64 writeNat
  | some value =>
      have fits : value < 2 ^ 64 := bounded value rfl
      intro rest
      have notNil : readNil (writeNat value ++ rest) = none := by
        simp [readNil, writeNat, Head.takes_unsigned fits rest]
      simp [readOptional, writeOptional, notNil, takes_writeNat fits rest]

/-! ## Lists and dictionaries -/

theorem takes_items {α : Type} {read : Reader α} {write : α → Bytes} {items : List α}
    (each : ∀ item ∈ items, Takes read (write item) item) :
    Takes (readItems read items.length) (items.flatMap write) items := by
  induction items with
  | nil => exact fun rest => rfl
  | cons first others ih =>
      intro rest
      obtain ⟨firstTaken, othersTaken⟩ := List.forall_mem_cons.mp each
      simp [readItems, firstTaken _, ih othersTaken _]

theorem takes_writeList {α : Type} {read : Reader α} {write : α → Bytes} {items : List α}
    (bounded : items.length < 2 ^ 32) (each : ∀ item ∈ items, Takes read (write item) item) :
    Takes (readList read) (writeList write items) items := by
  intro rest
  simp [readList, writeList, Head.takes_array bounded _, takes_items each _]

theorem takes_entry {α : Type} {read : Reader α} {write : α → Bytes} {entry : String × α}
    (named : (Bytes.ofText entry.1).length < 2 ^ 32) (taken : Takes read (write entry.2) entry.2) :
    Takes (readEntry read) (writeText entry.1 ++ write entry.2) entry := by
  intro rest
  simp [readEntry, takes_writeText named _, taken _]

theorem takes_writeDict {α : Type} {read : Reader α} {write : α → Bytes} {dict : Dict String α}
    (bounded : dict.size < 2 ^ 32)
    (named : ∀ entry ∈ dict.entries, (Bytes.ofText entry.1).length < 2 ^ 32)
    (each : ∀ entry ∈ dict.entries, Takes read (write entry.2) entry.2) :
    Takes (readDict read) (writeDict write dict) dict := by
  have entries : Takes (readItems (readEntry read) dict.entries.length)
      (dict.entries.flatMap fun entry => writeText entry.1 ++ write entry.2) dict.entries :=
    takes_items fun entry listed => takes_entry (named entry listed) (each entry listed)
  have head : Takes Head.read? (Head.map dict.size).encode (Head.map dict.entries.length) :=
    Head.takes_map bounded
  intro rest
  simp [readDict, writeDict, head _, entries rest, Dict.ofList_entries]

/-! ## Records -/

theorem takes_readOnce {α δ : Type} {read : Reader α} {bytes : Bytes} {value : α}
    (taken : Takes read bytes value) (place : α → δ) :
    Takes (readOnce none read place) bytes (place value) := by
  intro rest
  simp [readOnce, taken _]

theorem takes_noFields {δ : Type} (readField : Nat → δ → Reader δ) (place : Nat) (draft : δ) :
    Takes (readFields readField 0 place draft) [] draft := fun _ => rfl

theorem takes_field {δ : Type} {readField : Nat → δ → Reader δ} {count place : Nat}
    {draft next last : δ} {field fields : Bytes} (taken : Takes (readField place draft) field next)
    (others : Takes (readFields readField count (place + 1) next) fields last) :
    Takes (readFields readField (count + 1) place draft) (field ++ fields) last := by
  intro rest
  simp [readFields, taken _, others _]

/-- The next field of a record is read into its place, which is free, and the others follow. -/
theorem takes_once {α δ : Type} {readField : Nat → δ → Reader δ} {count place : Nat}
    {draft last : δ} {old : Option α} {read : Reader α} {put : α → δ} {field fields : Bytes}
    {value : α} (reads : readField place draft = readOnce old read put) (free : old = none)
    (taken : Takes read field value)
    (others : Takes (readFields readField count (place + 1) (put value)) fields last) :
    Takes (readFields readField (count + 1) place draft) (field ++ fields) last := by
  refine takes_field ?_ others
  rw [reads, free]
  exact takes_readOnce taken put

theorem takes_writeRecord {δ : Type} {readField : Nat → δ → Reader δ} {depth : Nat}
    {names : List String} {fields : List Bytes} {start last : δ}
    (all : fields.length = names.length) (bounded : names.length < 2 ^ 32)
    (taken : Takes (readFields readField names.length 0 start) fields.flatten last) :
    Takes (readRecord depth names start readField) (writeRecord fields) last := by
  intro rest
  rw [writeRecord, all]
  simp [readRecord, Head.takes_array bounded _, taken _]

/-! ## Variants -/

/-- The place of a name among some names. -/
def placeOf? (names : List String) (name : String) : Option Nat :=
  names.findIdx? fun other => Bytes.ofText other = Bytes.ofText name

theorem takes_name {names : List String} {name : String}
    (bounded : (Bytes.ofText name).length < 2 ^ 32) :
    Takes (readName names) (writeText name) (placeOf? names name) := by
  intro rest
  simp [readName, writeText, Head.takes_text bounded _, Bytes.split?_append, placeOf?]

theorem takes_plain {names : List String} {name : String} {place : Nat}
    (bounded : (Bytes.ofText name).length < 2 ^ 32) (found : placeOf? names name = some place) :
    Takes (readVariant names) (writeText name) (place, false) := by
  intro rest
  have taken : readName names (writeText name ++ rest) = some (placeOf? names name, rest) :=
    takes_name bounded rest
  simp only [writeText, List.append_assoc] at taken
  simp [readVariant, writeText, Head.takes_text bounded _, taken, found]

theorem takes_variant {names : List String} {name : String} {place : Nat} {data rest : Bytes}
    (bounded : (Bytes.ofText name).length < 2 ^ 32) (found : placeOf? names name = some place) :
    readVariant names (writeVariant name data ++ rest) = some ((place, true), data ++ rest) := by
  simp [readVariant, writeVariant, Head.takes_map (by decide : 1 < 2 ^ 32) _, takes_name bounded _,
    found]

theorem takes_readData {α β : Type} {read : Reader α} {bytes : Bytes} {value : α}
    (taken : Takes read bytes value) (make : α → β) :
    Takes (readData read make true) bytes (make value) := by
  intro rest
  simp [readData, taken rest]

end Msgpack

end Chronicle
