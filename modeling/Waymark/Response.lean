import Waymark.MediaType
import Waymark.Text.Utf8
/-!
# Responses

What the module server answers a request with.  Every response may be read by
pages of any origin and carries the id of its request: the one it was sent with,
or a fresh one.

## Main results

* `isSuccess_text` — a text that is served is a success.
-/

namespace Waymark

/-- An answer of the module server. -/
structure Response where
  status : Nat
  contentType : String
  body : ByteArray

namespace Response

/-- A short message. -/
def message (status : Nat) (text : String) : Response := ⟨status, MediaType.plain, text.toUTF8⟩

/-- A text that is served. -/
def text (contentType content : String) : Response := ⟨200, contentType, content.toUTF8⟩

/-- The octets of a file. -/
def file (contentType : String) (content : ByteArray) : Response := ⟨200, contentType, content⟩

/-- There is no such module. -/
def notFound : Response := message 404 "not found"

/-- The path would leave the app root. -/
def invalidPath : Response := message 400 "invalid path"

/-- Whether a response is a success. -/
def isSuccess (r : Response) : Bool := 200 ≤ r.status && r.status < 300

theorem isSuccess_text (contentType content : String) :
    (text contentType content).isSuccess = true := rfl

/-- The text of the body.  Octets that are no text are replaced. -/
def bodyText (r : Response) : String :=
  String.ofList (Text.Utf8.decodeLossy r.body.toList)

end Response

/-- The origins that may read a response. -/
def allowedOrigin : String := "*"

/-- The id of a request. -/
inductive RequestId where
  /-- Sent with the request. -/
  | given (id : String)
  /-- Made for it. -/
  | fresh
  deriving DecidableEq, Repr

/-- The id that is answered: the one sent, or a fresh one. -/
def RequestId.answered : Option String → RequestId
  | some id => .given id
  | none => .fresh

end Waymark
