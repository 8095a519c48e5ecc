import Waymark.Url
/-!
# Remote content

What a fetch brings back, and why one fails.  Content served from this machine may
change between two fetches and is never kept.

## Main results

* `FetchError.message` — the wording of every failure.
* `isNotFound_status` — the one status that means there is nothing.
-/

namespace Waymark

/-- A fetched text and the type it was sent with. -/
structure RemoteText where
  text : String
  contentType : Option String
  deriving DecidableEq, Repr

/-- Why a fetch failed. -/
inductive FetchError where
  | invalidUrl (url : String) (cause : UrlError)
  | request (url : String)
  | status (url : String) (code : Nat)
  deriving DecidableEq, Repr

namespace FetchError

/-- The wording of a failure. -/
def message : FetchError → String
  | .invalidUrl url cause => "invalid URL '" ++ url ++ "': " ++ cause.message
  | .request url => "failed to fetch " ++ url ++ ": error sending request for url (" ++ url ++ ")"
  | .status url code => "fetch " ++ url ++ " returned status " ++ toString code

/-- Whether the failure means that there is no such content. -/
def isNotFound : FetchError → Bool
  | .status _ code => code = 404
  | _ => false

/-- Of all answers of a server only 404 says that there is no such module. -/
theorem isNotFound_status (url : String) (code : Nat) :
    (FetchError.status url code).isNotFound = true ↔ code = 404 := by
  simp [isNotFound]

end FetchError

/-- Hosts that are this machine. -/
def localHosts : List String := ["localhost", "127.0.0.1", "[::1]"]

/-- Whether a URL is served from this machine. -/
def Url.isLocal (u : Url) : Bool :=
  match u.host with
  | some host => String.ofList host ∈ localHosts
  | none => false

end Waymark
