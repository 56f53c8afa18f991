import AsmLens.Document.Reader

/-!
# Exchanges with the service

A request to the service, and what may come back: a response, or news of why there is
none.
-/

namespace AsmLens

/-- What a request does: ask, or hand in a document. -/
inductive Verb
  | get
  | post (body : Doc)

/-- A request. -/
structure Request where
  verb : Verb
  url : String

namespace Request

/-- The name of what a request does. -/
def method (r : Request) : String :=
  match r.verb with
  | .get => "GET"
  | .post _ => "POST"

/-- The document that a request hands in. -/
def body? (r : Request) : Option Doc :=
  match r.verb with
  | .get => none
  | .post d => some d

end Request

/-- A response; its body is none if it is not a document. -/
structure Response where
  status : Int
  reason : Option String
  body : Option Doc

/-- A response with a body of text. One with half of a surrogate pair counts as no document. -/
def Response.ofText (status : Int) (reason : Option String) (text : String) : Response :=
  ⟨status, reason, (Json.parse text).toOption⟩

/-- What comes back from a request. -/
inductive Reply
  | response (r : Response)
  /-- Nothing came in time. -/
  | timedOut
  /-- The service could not be reached. -/
  | unreachable (reason : String)
  /-- The exchange broke down in a way that is none of the above. -/
  | broken (f : Fault)

end AsmLens
