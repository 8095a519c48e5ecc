import Waymark.Dict
import Waymark.Remote
/-!
# Kept content

A store of fetched content in front of a client.  What it holds is not fetched again.
It keeps what came from elsewhere; content of this machine may change at any time and
is fetched each time.  Failures are not kept.

The store is looked up by the text of the URL as it was asked for, the client is
asked for the URL as it is written in full.

## Main results

* `get_of_get?` — what is kept is not fetched.
* `get_isLocal` — content of this machine leaves the store as it was.
* `get_error` — so does a failure.
-/

namespace Waymark

/-- Fetched content that is kept, by the URL it was asked for. -/
structure ContentStore where
  entries : Dict RemoteText

namespace ContentStore

/-- Nothing is kept yet. -/
def empty : ContentStore := ⟨Dict.empty⟩

/-- How many contents are kept. -/
def size (c : ContentStore) : Nat := c.entries.entries.length

/-- The content at a URL, kept or fetched by a client. -/
def get (client : Url → Except FetchError RemoteText) (c : ContentStore) (url : String) :
    Except FetchError RemoteText × ContentStore :=
  match c.entries.get? url with
  | some kept => (.ok kept, c)
  | none =>
    match Url.parse url with
    | .error cause => (.error (.invalidUrl url cause), c)
    | .ok u =>
      match client u with
      | .error e => (.error e, c)
      | .ok content => (.ok content, if u.isLocal then c else ⟨c.entries.insert url content⟩)

section
variable {client : Url → Except FetchError RemoteText} {c : ContentStore} {url : String}

theorem get_of_get? {kept : RemoteText} (h : c.entries.get? url = some kept) :
    c.get client url = (.ok kept, c) := by
  simp [get, h]

/-- Nothing is kept of what is fetched from this machine. -/
theorem get_isLocal {u : Url} (hu : Url.parse url = .ok u) (h : u.isLocal = true) :
    (c.get client url).2 = c := by
  unfold get
  split
  · rfl
  · rw [hu]
    dsimp only
    split
    · rfl
    · simp [h]

/-- Nothing is kept of a failure. -/
theorem get_error {e : FetchError} (h : (c.get client url).1 = .error e) :
    (c.get client url).2 = c := by
  revert h
  unfold get
  split
  · simp
  · split
    · simp
    · split <;> simp

end

/-! ## Clients -/

/-- A client that reaches nobody. -/
def unreachable (u : Url) : Except FetchError RemoteText :=
  .error (.request (String.ofList u.toText))

end ContentStore
end Waymark
