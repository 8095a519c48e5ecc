import Waymark.Response
import Waymark.Text.Pieces
/-!
# Messages on a connection

The head of a request as it comes over a connection, and an answer as it goes back.  A
connection carries one request: its body is not read, and it is closed after the answer.

## Main results

* `size_written` — an answer with its body is as long as both together.
-/

namespace Waymark.Wire

/-- The octets that end a line. -/
def lineEnd : List Char := ['\r', '\n']

/-! ## Requests -/

/-- What the head of a request says. -/
structure RequestHead where
  method : String
  /-- The URI as it was sent. -/
  target : String
  /-- The id it was sent with. -/
  id : Option String
  deriving DecidableEq, Repr

/-- The head of a request, if all of it was received. -/
def headEnd? (received : List Char) : Option (List Char) :=
  (Text.cutText (lineEnd ++ lineEnd) received).map (·.1)

/-- The name of the header field that holds the id of a request. -/
def idField : List Char := "x-request-id".toList

/-- The value of a header line of that name, in whatever case it is written. -/
def fieldValue? (name line : List Char) : Option (List Char) :=
  match Text.cut ':' line with
  | some (n, value) =>
    if n.map Char.toLower = name then
      some (Text.dropEndWhile (· = ' ') (value.dropWhile (· = ' ')))
    else none
  | none => none

/-- Reads a head: a method, a URI and a version, and header lines after them. -/
def RequestHead.read? (head : List Char) : Option RequestHead :=
  match (Text.pieces '\n' head).map (Text.dropEndWhile (· = '\r')) with
  | [] => none
  | first :: lines =>
    match Text.pieces ' ' first with
    | [method, target, _] =>
      some ⟨String.ofList method, String.ofList target,
        (lines.findSome? (fieldValue? idField)).map String.ofList⟩
    | _ => none

/-! ## Answers -/

/-- The phrase that goes with a status. -/
def phrase (status : Nat) : String :=
  match status with
  | 200 => "OK"
  | 400 => "Bad Request"
  | 404 => "Not Found"
  | 500 => "Internal Server Error"
  | _ => ""

/-- The head of an answer. -/
def answerHead (r : Response) (id : String) : String :=
  "HTTP/1.1 " ++ toString r.status ++ " " ++ phrase r.status ++ "\r\n" ++
    "content-type: " ++ r.contentType ++ "\r\n" ++
    "access-control-allow-origin: " ++ allowedOrigin ++ "\r\n" ++
    "x-request-id: " ++ id ++ "\r\n" ++
    "content-length: " ++ toString r.body.size ++ "\r\n" ++
    "connection: close\r\n\r\n"

/-- The octets of an answer. -/
def written (r : Response) (id : String) (withBody : Bool) : ByteArray :=
  let head := (answerHead r id).toUTF8
  if withBody then head ++ r.body else head

/-- An answer is as long as its head and its body together. -/
theorem size_written (r : Response) (id : String) :
    (written r id true).size = (answerHead r id).toUTF8.size + r.body.size := by
  simp [written]

end Waymark.Wire
