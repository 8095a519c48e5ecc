import Waymark.Url.Host
/-!
# Listening

Which port a server comes to listen at.  It asks for the configured one and moves up
while the port it asks for is in use; anything else that goes wrong ends the search,
and so does the last port.

## Main results

* `toNat_nextPort?` — the next port is one higher, and only the last port has none.
* `bindFrom_bound`, `bindFrom_inUse`, `bindFrom_refused` — the search, one port at a time.
-/

namespace Waymark

/-- What comes of asking for a port. -/
inductive BindResult where
  /-- The port that is listened at now.  It is the one asked for, unless that was zero. -/
  | bound (port : UInt16)
  | inUse
  | refused (cause : String)
  deriving DecidableEq, Repr

/-- Why a server cannot listen. -/
inductive ListenError where
  /-- The hostname stands for no address. -/
  | unresolved (hostname : String) (cause : String)
  | refused (port : UInt16) (address : String) (cause : String)
  /-- Every port from the first one asked for is in use. -/
  | exhausted (start : UInt16)
  deriving DecidableEq, Repr

/-- The wording of a failure. -/
def ListenError.message : ListenError → String
  | .unresolved hostname cause => "Failed to resolve " ++ hostname ++ ": " ++ cause
  | .refused port address cause =>
    "Failed to bind " ++ address ++ ":" ++ toString port.toNat ++ ": " ++ cause
  | .exhausted start => "No free port at or above " ++ toString start.toNat

namespace Listen

/-! ## Searching for a port -/

/-- The last port there is. -/
def lastPort : UInt16 := 65535

/-- The port after a port. -/
def nextPort? (port : UInt16) : Option UInt16 :=
  if port = lastPort then none else some (port + 1)

/-- The next port is one further; it does not wrap. -/
theorem toNat_nextPort? {port next : UInt16} (h : nextPort? port = some next) :
    next.toNat = port.toNat + 1 := by
  unfold nextPort? lastPort at h
  split at h
  · simp at h
  · rename_i hp
    obtain rfl := Option.some.inj h
    have : port.toNat ≠ 65535 := fun e => hp (UInt16.toNat_inj.mp e)
    have := port.toNat_lt
    rw [UInt16.toNat_add]
    simp
    omega

/-- Only behind the last port there is none. -/
theorem nextPort?_eq_none_iff {port : UInt16} : nextPort? port = none ↔ port = lastPort := by
  simp [nextPort?]

/-- The port listened at, where the search began at `start` and has come to `port`. -/
def bindFrom (address : String) (ask : UInt16 → BindResult) (start port : UInt16) :
    Except ListenError UInt16 :=
  match ask port with
  | .bound p => .ok p
  | .refused cause => .error (.refused port address cause)
  | .inUse =>
    match _h : nextPort? port with
    | none => .error (.exhausted start)
    | some next => bindFrom address ask start next
termination_by 65535 - port.toNat
decreasing_by
  have := toNat_nextPort? _h
  have := next.toNat_lt
  omega

section
variable {address : String} {ask : UInt16 → BindResult} {start port : UInt16}

theorem bindFrom_bound {p : UInt16} (h : ask port = .bound p) :
    bindFrom address ask start port = .ok p := by
  rw [bindFrom]; simp [h]

/-- A refusal other than that the port is in use ends the search, with its cause. -/
theorem bindFrom_refused {cause : String} (h : ask port = .refused cause) :
    bindFrom address ask start port = .error (.refused port address cause) := by
  rw [bindFrom]; simp [h]

/-- A port that is in use leads to the next one. -/
theorem bindFrom_inUse (h : ask port = .inUse) :
    bindFrom address ask start port =
      match nextPort? port with
      | none => .error (.exhausted start)
      | some next => bindFrom address ask start next := by
  rw [bindFrom, h]
  cases nextPort? port <;> rfl

end

/-- The port listened at, when `port` is asked for. -/
def bind (address : String) (ask : UInt16 → BindResult) (port : UInt16) :
    Except ListenError UInt16 :=
  bindFrom address ask port port

/-! ## Networks -/

/-- The network of a machine: what hostnames stand for, and what comes of asking for a port. -/
structure Network where
  /-- The address of a hostname, or why it has none. -/
  resolve : String → Except String String
  ask : (address : String) → UInt16 → BindResult

/-- The port listened at under a hostname. -/
def listen (net : Network) (hostname : String) (port : UInt16) : Except ListenError UInt16 :=
  match net.resolve hostname with
  | .error cause => .error (.unresolved hostname cause)
  | .ok address => bind address (net.ask address) port

/-! ## A machine that is alone -/

/-- The address that a hostname stands for without asking anybody: its own, or the one of this
machine. -/
def ownAddress (hostname : String) : Except String String :=
  let s := hostname.toList.map Char.toLower
  if s = "localhost".toList then .ok "127.0.0.1"
  else if s.getLast? = some '.' then .error unknownName
  else if ':' ∈ s then
    match Url.readIpv6 s with
    | .ok pieces => .ok (String.ofList (Url.showIpv6 pieces))
    | .error _ => .error unknownName
  else if Url.endsInNumber s then
    match Url.readIpv4 s with
    | .ok n => .ok (String.ofList (Url.showIpv4 n))
    | .error _ => .error unknownName
  else .error unknownName
where
  unknownName : String := "failed to lookup address information: Name or service not known"

/-- The first of the ports that are given to whoever asks for any port. -/
def firstDynamicPort : UInt16 := 32768

/-- What comes of asking for a port where only the ports in a list are in use. -/
def askFree (held : List UInt16) (port : UInt16) : BindResult :=
  if port = 0 then
    match bind "" (fun p => if p ∈ held then .inUse else .bound p) firstDynamicPort with
    | .ok p => .bound p
    | .error _ => .inUse
  else if port ∈ held then .inUse
  else .bound port

/-- The network of a machine that knows no other and whose ports are free but for those held. -/
def alone (held : List UInt16) : Network := ⟨ownAddress, fun _ => askFree held⟩

end Listen
end Waymark
