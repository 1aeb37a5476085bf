import Chronicle.Descriptor

/-!
# What can be wrong with data

Each way in which a descriptor or the content of a record can be refused is a
constructor of its own; `message` gives the wording.
-/

namespace Chronicle

/-- What is wrong with a descriptor. -/
inductive DescriptorFlaw where
  | tableName (table : String)
  | repeatedField (name : String)
  | unknownTarget (relation : String) (target : Kind)
  | logName (name : String)
  | sharedColumn (relation : String)
  deriving DecidableEq

def DescriptorFlaw.message : DescriptorFlaw → String
  | tableName table => "bad table name '" ++ table ++ "'"
  | repeatedField name => "duplicate field '" ++ name ++ "'"
  | unknownTarget relation target =>
      "relation '" ++ relation ++ "' targets unregistered kind " ++ target.name
  | logName name => "bad join identifier '" ++ name ++ "'"
  | sharedColumn relation =>
      "relation '" ++ relation ++ "' uses one column for both parent versions"

/-- What is wrong with the content of a record. -/
inductive ContentFault where
  | unknownField (kind : Kind) (name : String)
  | fieldType (kind : Kind) (name : String) (expected actual : FieldType)
  | missingField (kind : Kind) (name : String)
  | unknownRelation (kind : Kind) (name : String)
  deriving DecidableEq

def ContentFault.message : ContentFault → String
  | unknownField kind name => kind.name ++ " has no field '" ++ name ++ "'"
  | fieldType kind name expected actual =>
      kind.name ++ "." ++ name ++ " expects " ++ expected.name ++ ", got " ++ actual.name
  | missingField kind name => kind.name ++ "." ++ name ++ " is required"
  | unknownRelation kind name => kind.name ++ " has no relation '" ++ name ++ "'"

/-- Why data is refused. -/
inductive DataError where
  | unknownKindName (name : String)
  | unknownChangeName (name : String)
  /-- Bytes that are no binary form of what they should be. -/
  | malformed
  | unstableKey (kind : Kind) (key : KeyStrategy)
  | duplicateKind (kind : Kind)
  | unknownKind (kind : Kind)
  | invalidDescriptor (kind : Kind) (flaw : DescriptorFlaw)
  | invalidContent (fault : ContentFault)
  /-- The clock stands before the epoch. -/
  | clockBeforeEpoch
  deriving DecidableEq

/-- Why identifiers of a kind would not be stable. -/
def KeyStrategy.drawback : KeyStrategy → String
  | surrogate => ""
  | contentDerived => "content-derived keys change when the content does"
  | natural => "natural keys can be reused after a delete"

def DataError.message : DataError → String
  | unknownKindName name => "serialization error: unknown entity kind: " ++ name
  | unknownChangeName name => "serialization error: unknown change kind: " ++ name
  | malformed => "serialization error"
  | unstableKey kind key => "unstable primary key for " ++ kind.name ++ ": " ++ key.drawback
  | duplicateKind kind => "entity kind already registered: " ++ kind.name
  | unknownKind kind => "entity kind not registered: " ++ kind.name
  | invalidDescriptor kind flaw => "invalid descriptor for " ++ kind.name ++ ": " ++ flaw.message
  | invalidContent fault => "invalid data: " ++ fault.message
  | clockBeforeEpoch => "invalid data: system clock before epoch"

/-- Reads the name of a kind. -/
def Kind.parse (name : String) : Except DataError Kind :=
  match ofName? name with
  | some kind => .ok kind
  | none => .error (.unknownKindName name)

end Chronicle
