import Chronicle.Field
import Chronicle.Kind

/-!
# Descriptors

A descriptor declares the fields and relations of a kind, and where the
snapshots of its records and the links of its relations are written down. Names
are looked up by first match.
-/

namespace Chronicle

/-- How the identifiers of a kind come about. Only identifiers that say nothing
about the content can be kept for good. -/
inductive KeyStrategy where
  | surrogate
  | contentDerived
  | natural
  deriving DecidableEq, Inhabited

def KeyStrategy.ofName? : String → Option KeyStrategy
  | "surrogate" => some surrogate
  | "content_derived" => some contentDerived
  | "natural" => some natural
  | _ => none

/-- A declared field. -/
structure FieldSpec where
  name : String
  type : FieldType
  required : Bool
  deriving DecidableEq, Inhabited

/-- Where the links of a relation are written down, with the columns for the
versions of both sides. -/
structure LinkLog where
  table : String
  ownerColumn : String
  memberColumn : String
  deriving DecidableEq, Inhabited

/-- A declared relation. The sequence of its members counts only if it is
`ordered`; its links have a history only if there is a `log`. -/
structure RelationSpec where
  name : String
  target : Kind
  ordered : Bool
  log : Option LinkLog
  deriving DecidableEq, Inhabited

/-- What is declared about a kind. -/
structure Descriptor where
  kind : Kind
  historyTable : String
  key : KeyStrategy
  fields : List FieldSpec
  relations : List RelationSpec
  deriving DecidableEq, Inhabited

namespace Descriptor

def field? (descriptor : Descriptor) (name : String) : Option FieldSpec :=
  descriptor.fields.find? fun spec => spec.name = name

def relation? (descriptor : Descriptor) (name : String) : Option RelationSpec :=
  descriptor.relations.find? fun spec => spec.name = name

/-- Whether the sequence of members counts; not for relations that are unknown. -/
def isOrdered (descriptor : Descriptor) (relation : String) : Bool :=
  match descriptor.relation? relation with
  | some spec => spec.ordered
  | none => false

/-! ## The three standard kinds -/

def attr : Descriptor where
  kind := .attr
  historyTable := "attribute_history"
  key := .surrogate
  fields := [⟨"key", .text, true⟩, ⟨"value", .text, false⟩, ⟨"description", .text, false⟩]
  relations := []

def newsItem : Descriptor where
  kind := .newsItem
  historyTable := "news_item_history"
  key := .surrogate
  fields := [⟨"title", .text, true⟩, ⟨"content", .text, false⟩, ⟨"review", .text, false⟩,
    ⟨"link", .text, false⟩, ⟨"source", .text, false⟩, ⟨"author", .text, false⟩,
    ⟨"language", .text, false⟩, ⟨"published", .timestamp, false⟩]
  relations := [⟨"attributes", .attr, false,
    some ⟨"news_item_attribute_history", "news_item_version", "attribute_version"⟩⟩]

def story : Descriptor where
  kind := .story
  historyTable := "story_history"
  key := .surrogate
  fields := [⟨"title", .text, true⟩, ⟨"description", .text, false⟩, ⟨"summary", .text, false⟩,
    ⟨"comments", .text, false⟩, ⟨"important", .boolean, false⟩, ⟨"read", .boolean, false⟩,
    ⟨"relevance", .integer, false⟩]
  relations := [⟨"news_items", .newsItem, false, none⟩,
    ⟨"attributes", .attr, false,
      some ⟨"story_attribute_history", "story_version", "attribute_version"⟩⟩]

/-- The standard descriptor of a kind. -/
def standard : Kind → Descriptor
  | .story => story
  | .newsItem => newsItem
  | .attr => attr

end Descriptor

end Chronicle
