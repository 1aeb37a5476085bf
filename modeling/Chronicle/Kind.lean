import Chronicle.Key

/-!
# Kinds of records

Stories gather news items, and both carry attributes.
-/

namespace Chronicle

/-- The kind of a record. -/
inductive Kind where
  | story
  | newsItem
  | attr
  deriving DecidableEq, Inhabited

namespace Kind

/-- All kinds in their order. -/
def all : List Kind := [story, newsItem, attr]

/-- The place of a kind in the order. -/
def rank : Kind → Nat
  | story => 0
  | newsItem => 1
  | attr => 2

instance : Key Kind :=
  Key.ofInjective rank fun first second same => by
    cases first <;> cases second <;> simp_all [rank]

/-- The name in messages, requests and tables. -/
def name : Kind → String
  | story => "story"
  | newsItem => "news_item"
  | attr => "attribute"

def ofName? : String → Option Kind
  | "story" => some story
  | "news_item" => some newsItem
  | "attribute" => some attr
  | _ => none

/-- The name in binary forms and logs. -/
def tag : Kind → String
  | story => "Story"
  | newsItem => "NewsItem"
  | attr => "Attribute"

end Kind

end Chronicle
