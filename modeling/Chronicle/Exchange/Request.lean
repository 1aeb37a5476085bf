import Chronicle.Json.Writer
import Chronicle.Refusal

/-!
# Requests and responses

What can be wrong with a request, and how it is answered. A response is a status and
a JSON body: 400 for a request that makes no sense, 404 for what is not there, 409
for a submission with conflicts, and 500 for what is not the sender's doing.
-/

namespace Chronicle

/-- What is wrong with the body or the path of a request. -/
inductive RequestFault where
  | fieldType (kind : Kind) (field : String) (expected : FieldType) (got : Json)
  | notIds (kind : Kind) (relation : String)
  | unknownName (kind : Kind) (name : String)
  | badId (what : String) (got : Json)
  | badVersion (got : Json)
  | notObject (what : String)
  | badPathId (raw : String)
  | noStories
  | notList
  | noProducer
  | itemsNotArray
  | attributesNotArray
  | noResolution

def RequestFault.message : RequestFault → String
  | fieldType kind field expected got =>
      kind.name ++ "." ++ field ++ " expects " ++ expected.name ++ ", got " ++ got.write
  | notIds kind relation => kind.name ++ "." ++ relation ++ " must be an array of ids"
  | unknownName kind name => kind.name ++ " has no field or relation '" ++ name ++ "'"
  | badId what got => what ++ " is not a valid id: " ++ got.write
  | badVersion got => "base_version must be a version number, got " ++ got.write
  | notObject what => what ++ " must be a JSON object"
  | badPathId raw => "not a valid id: " ++ raw
  | noStories => "expected a \"stories\" array"
  | notList => "expected a list of stories"
  | noProducer => "producer must not be empty"
  | itemsNotArray => "story.news_items must be an array"
  | attributesNotArray => "attributes must be an array"
  | noResolution => "missing \"resolution\""

/-- Why a request is not answered with what it asks for. -/
inductive RequestError where
  | bad (fault : RequestFault)
  | noHistory (story : EntityId)
  | refused (refusal : Refusal)

/-- The status for a refusal. -/
def Refusal.status : Refusal → Nat
  | invalidContent _ => 400
  | memberKind _ _ _ _ _ => 400
  | notLogged _ _ => 400
  | kindMismatch _ _ _ => 400
  | recordDeleted _ => 400
  | recordMissing _ => 404
  | conflictMissing _ _ => 404
  | conflicting _ => 409
  | store _ => 500
  | data _ => 500
  | versionRaced _ _ _ => 500

namespace RequestError

def message : RequestError → String
  | bad fault => "bad request: " ++ fault.message
  | noHistory story => "not found: story " ++ story.text
  | refused refusal => refusal.message

def status : RequestError → Nat
  | bad _ => 400
  | noHistory _ => 404
  | refused refusal => refusal.status

end RequestError

/-- How a request is answered. -/
structure Response where
  status : Nat
  body : Json

/-- A refused operation refuses the request. -/
def RequestError.ofRefusal {α : Type} (answer : Except Refusal α) : Except RequestError α :=
  answer.mapError RequestError.refused

end Chronicle
