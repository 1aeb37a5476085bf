import Chronicle.Digest
import Chronicle.Msgpack.Item
import Chronicle.Snapshot

/-!
# Binary forms

The MessagePack forms of field values, contents and snapshots, and the digest
of a content, which is taken of its normal form: contents that a descriptor
does not tell apart have the same digest.
-/

namespace Chronicle

open Msgpack

/-! ## Identifiers -/

def Uuid.write (id : Uuid) : Bytes := writeBinary id.bytes

def Uuid.read : Reader Uuid := fun bytes => do
  let (content, rest) ← readBinary bytes
  let id ← Uuid.ofBytes? content
  return (id, rest)

def EntityId.write (id : EntityId) : Bytes := id.uuid.write

def EntityId.read : Reader EntityId := fun bytes =>
  (Uuid.read bytes).map fun (id, rest) => (⟨id⟩, rest)

def ConflictId.write (id : ConflictId) : Bytes := id.uuid.write

def ConflictId.read : Reader ConflictId := fun bytes =>
  (Uuid.read bytes).map fun (id, rest) => (⟨id⟩, rest)

/-! ## Field values -/

namespace FieldValue

/-- The names of the variants in their binary form. -/
def tags : List String :=
  ["Null", "Text", "Integer", "Float", "Boolean", "Timestamp", "EntityRef"]

def write : FieldValue → Bytes
  | null => writeText "Null"
  | text value => writeVariant "Text" (writeText value)
  | integer value => writeVariant "Integer" (writeInt value.toInt)
  | float value => writeVariant "Float" (Head.float value).encode
  | boolean value => writeVariant "Boolean" (Head.bool value).encode
  | timestamp value => writeVariant "Timestamp" (writeInt value.toInt)
  | reference id => writeVariant "EntityRef" id.write

def read : Reader FieldValue := fun bytes => do
  let ((place, data), rest) ← readVariant tags bytes
  match place with
  | 0 => readPlain null data rest
  | 1 => readData readText text data rest
  | 2 => readData readInt64 integer data rest
  | 3 => readData readFloat float data rest
  | 4 => readData readBool boolean data rest
  | 5 => readData readInt64 timestamp data rest
  | 6 => readData EntityId.read reference data rest
  | _ => none

/-- Reads a value; what follows it does not matter. -/
def ofBytes? (bytes : Bytes) : Option FieldValue := (read bytes).map Prod.fst

end FieldValue

/-! ## Contents -/

namespace Content

def write (content : Content) : Bytes :=
  writeRecord [writeDict FieldValue.write content.fields,
    writeDict (writeList EntityId.write) content.relations]

/-- The parts of a content that have been read. -/
structure Draft where
  fields : Option (Dict String FieldValue)
  relations : Option (Dict String (List EntityId))

def readField (place : Nat) (draft : Draft) : Reader Draft :=
  match place with
  | 0 =>
      readOnce draft.fields (readDict FieldValue.read) fun value =>
        { draft with fields := some value }
  | 1 =>
      readOnce draft.relations (readDict (readList EntityId.read)) fun value =>
        { draft with relations := some value }
  | _ => fun _ => none

def read : Reader Content := fun bytes => do
  let (draft, rest) ← readRecord 0 ["fields", "relations"] (⟨none, none⟩ : Draft) readField bytes
  return (⟨← draft.fields, ← draft.relations⟩, rest)

/-- Reads a content; what follows it does not matter. -/
def ofBytes (bytes : Bytes) : Except DataError Content :=
  match read bytes with
  | some (content, _) => .ok content
  | none => .error .malformed

end Content

/-- The digest of the normal form of a content. -/
def Descriptor.digest (descriptor : Descriptor) (content : Content) : Digest :=
  Digest.of (descriptor.normal content).write

/-! ## Snapshots -/

def Kind.read : Reader Kind := fun bytes => do
  let ((place, data), rest) ← readVariant (Kind.all.map Kind.tag) bytes
  readPlain (← Kind.all[place]?) data rest

def ChangeKind.all : List ChangeKind :=
  [noChange, fieldChange, relationChange, created, deleted]

def ChangeKind.read : Reader ChangeKind := fun bytes => do
  let ((place, data), rest) ← readVariant (ChangeKind.all.map ChangeKind.tag) bytes
  readPlain (← ChangeKind.all[place]?) data rest

namespace Origin

def write : Origin → Bytes
  | direct => writeText "Local"
  | external scope => writeVariant "External" (writeText scope)
  | resolution conflict => writeVariant "Resolution" conflict.write

def read : Reader Origin := fun bytes => do
  let ((place, data), rest) ← readVariant ["Local", "External", "Resolution"] bytes
  match place with
  | 0 => readPlain direct data rest
  | 1 => readData readText external data rest
  | 2 => readData ConflictId.read resolution data rest
  | _ => none

end Origin

namespace MemberRef

def write (member : MemberRef) : Bytes :=
  writeRecord [member.id.write, writeOptional writeNat member.version]

/-- The parts of a member that have been read. -/
structure Draft where
  id : Option EntityId
  version : Option (Option Nat)

def readField (place : Nat) (draft : Draft) : Reader Draft :=
  match place with
  | 0 => readOnce draft.id EntityId.read fun value => { draft with id := some value }
  | 1 =>
      readOnce draft.version (readOptional readNat64) fun value =>
        { draft with version := some value }
  | _ => fun _ => none

/-- A member of a list of a relation of a snapshot. A version that is left out counts
as absent. -/
def read : Reader MemberRef := fun bytes => do
  let (draft, rest) ← readRecord 3 ["entity_id", "version"] (⟨none, none⟩ : Draft) readField bytes
  return (⟨← draft.id, draft.version.getD none⟩, rest)

end MemberRef

namespace Snapshot

def write (snapshot : Snapshot) : Bytes :=
  writeRecord [snapshot.entity.write, writeText snapshot.kind.tag, writeNat snapshot.version,
    writeInt snapshot.changedAt.toInt, writeText snapshot.changedBy, snapshot.origin.write,
    writeText snapshot.change.tag, writeDict FieldValue.write snapshot.fields,
    writeDict (writeList MemberRef.write) snapshot.relations]

/-- The names of the fields in the binary form. -/
def fieldNames : List String :=
  ["entity_id", "kind", "version", "changed_at", "changed_by", "origin", "change", "fields",
    "relations"]

/-- The parts of a snapshot that have been read. -/
structure Draft where
  entity : Option EntityId := none
  kind : Option Kind := none
  version : Option Nat := none
  changedAt : Option Int64 := none
  changedBy : Option Actor := none
  origin : Option Origin := none
  change : Option ChangeKind := none
  fields : Option (Dict String FieldValue) := none
  relations : Option (Dict String (List MemberRef)) := none

def readField (place : Nat) (draft : Draft) : Reader Draft :=
  match place with
  | 0 => readOnce draft.entity EntityId.read fun value => { draft with entity := some value }
  | 1 => readOnce draft.kind Kind.read fun value => { draft with kind := some value }
  | 2 => readOnce draft.version readNat64 fun value => { draft with version := some value }
  | 3 => readOnce draft.changedAt readInt64 fun value => { draft with changedAt := some value }
  | 4 => readOnce draft.changedBy readText fun value => { draft with changedBy := some value }
  | 5 => readOnce draft.origin Origin.read fun value => { draft with origin := some value }
  | 6 => readOnce draft.change ChangeKind.read fun value => { draft with change := some value }
  | 7 =>
      readOnce draft.fields (readDict FieldValue.read) fun value =>
        { draft with fields := some value }
  | 8 =>
      readOnce draft.relations (readDict (readList MemberRef.read)) fun value =>
        { draft with relations := some value }
  | _ => fun _ => none

def read : Reader Snapshot := fun bytes => do
  let (draft, rest) ← readRecord 0 fieldNames ({} : Draft) readField bytes
  return ({ entity := ← draft.entity
            kind := ← draft.kind
            version := ← draft.version
            changedAt := ← draft.changedAt
            changedBy := ← draft.changedBy
            origin := ← draft.origin
            change := ← draft.change
            fields := ← draft.fields
            relations := ← draft.relations }, rest)

/-- Reads a snapshot; what follows it does not matter. -/
def ofBytes (bytes : Bytes) : Except DataError Snapshot :=
  match read bytes with
  | some (snapshot, _) => .ok snapshot
  | none => .error .malformed

end Snapshot

end Chronicle
