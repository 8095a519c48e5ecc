import Waymark.Percent
import Waymark.Text.Lower
import Waymark.Text.Pieces
import Waymark.Url.Punycode
/-!
# Hosts

The host of a URL, brought to its one written form: a domain in lower-case ASCII,
an IPv4 address in four decimal numbers, an IPv6 address in brackets with its
longest run of zeros left out.  Schemes without hosts of their own keep the host
as it is, escaped.

International domains are brought to lower case and to Punycode, and that is all.
What else Unicode prescribes for them is left out: `asciiDomain` says what that is.  A
domain in ASCII is not concerned, unless one of its labels begins with `xn--`.

## Main results

* `UrlError.message` — the wording of every refusal.
* `endsInNumber_iff` — which domains are read as IPv4 addresses.
-/

namespace Waymark

/-- Why a text is no URL. -/
inductive UrlError where
  | emptyHost
  | invalidDomain
  | invalidPort
  | invalidIpv4
  | invalidIpv6
  | invalidHostCharacter
  | relativeWithoutBase
  | relativeToRootless
  deriving DecidableEq, Repr

/-- The wording of a refusal. -/
def UrlError.message : UrlError → String
  | .emptyHost => "empty host"
  | .invalidDomain => "invalid international domain name"
  | .invalidPort => "invalid port number"
  | .invalidIpv4 => "invalid IPv4 address"
  | .invalidIpv6 => "invalid IPv6 address"
  | .invalidHostCharacter => "invalid domain character"
  | .relativeWithoutBase => "relative URL without a base"
  | .relativeToRootless => "relative URL with a cannot-be-a-base base"

namespace Url

/-- Numbers written in decimal. -/
def decimal (n : Nat) : List Char := Nat.toDigits 10 n

/-- The digits of a number in base `base`, most significant first, if all are digits of it. -/
def readNumber? (base : Nat) (s : List Char) : Option Nat :=
  s.foldl (fun acc c => do
    let n ← acc
    let d ← Percent.hexValue? c
    if d < base then some (n * base + d) else none) (some 0)

/-! ## IPv4 -/

/-- A part of an IPv4 address: decimal, octal after a zero, hexadecimal after `0x`.  A bare
prefix counts as zero. -/
def readIpv4Part? (s : List Char) : Option Nat :=
  match s with
  | [] => none
  | '0' :: 'x' :: r => readNumber? 16 r
  | '0' :: 'X' :: r => readNumber? 16 r
  | '0' :: c :: r => readNumber? 8 (c :: r)
  | s => readNumber? 10 s

/-- The parts of a domain, without the empty one after a final dot. -/
def domainParts (s : List Char) : List (List Char) :=
  let parts := Text.pieces '.' s
  if parts.getLast? = some [] then parts.dropLast else parts

/-- Whether the last part of a domain is a number, so that the domain must be an IPv4
address. -/
def endsInNumber (s : List Char) : Bool :=
  match (domainParts s).getLast? with
  | none => false
  | some last => (last ≠ [] && last.all Char.isDigit) || (readIpv4Part? last).isSome

/-- A domain is read as an IPv4 address exactly if its last part is a number. -/
theorem endsInNumber_iff (s : List Char) :
    endsInNumber s = true ↔ ∃ last, (domainParts s).getLast? = some last ∧
      ((last ≠ [] ∧ last.all Char.isDigit = true) ∨ (readIpv4Part? last).isSome = true) := by
  unfold endsInNumber
  split <;> simp_all

/-- The 32 bits of an IPv4 address.  The last part fills what the parts before it leave. -/
def readIpv4 (s : List Char) : Except UrlError Nat :=
  let parts := domainParts s
  if 4 < parts.length then .error .invalidIpv4
  else match (parts.mapM readIpv4Part?).map List.reverse with
    | some (last :: before) =>
      if last < 1 <<< (8 * (4 - before.length)) ∧ before.all (· < 256) then
        .ok ((before.reverse.mapIdx fun i n => n <<< (8 * (3 - i))).foldl (· + ·) last)
      else .error .invalidIpv4
    | _ => .error .invalidIpv4

/-- An IPv4 address as four decimal numbers. -/
def showIpv4 (n : Nat) : List Char :=
  Text.joinPieces '.' ([n >>> 24 % 256, n >>> 16 % 256, n >>> 8 % 256, n % 256].map decimal)

/-! ## IPv6 -/

/-- The two pieces of 16 bits that a dotted address at the end of an IPv6 address gives.
Its four parts are decimal without leading zeros. -/
def readDotted? (s : List Char) : Option (List Nat) := do
  let parts ← (Text.pieces '.' s).mapM fun p =>
    if p.length ≤ 3 ∧ p ≠ [] ∧ p.all Char.isDigit ∧ (p.head? ≠ some '0' ∨ p.length = 1) then
      readNumber? 10 p
    else none
  match parts with
  | [a, b, c, d] => if parts.all (· < 256) then some [a * 256 + b, c * 256 + d] else none
  | _ => none

/-- The pieces between colons: up to four hexadecimal digits each; the last of the address may
be dotted. -/
def readIpv6Pieces? (final : Bool) : List (List Char) → Option (List Nat)
  | [] => some []
  | [p] =>
    if final ∧ '.' ∈ p then readDotted? p
    else if p ≠ [] ∧ p.length ≤ 4 then (readNumber? 16 p).map fun n => [n] else none
  | p :: ps =>
    if p ≠ [] ∧ p.length ≤ 4 then do return (← readNumber? 16 p) :: (← readIpv6Pieces? final ps)
    else none

/-- The pieces of one side of `::`, which may be empty. -/
def readIpv6Side? (final : Bool) (s : List Char) : Option (List Nat) :=
  if s = [] then some [] else readIpv6Pieces? final (Text.pieces ':' s)

/-- The eight pieces of an IPv6 address. -/
def readIpv6 (s : List Char) : Except UrlError (List Nat) :=
  let result := match Text.cutText [':', ':'] s with
    | none => (readIpv6Side? true s).filter (·.length = 8)
    | some (left, right) => do
      let left ← readIpv6Side? false left
      let right ← readIpv6Side? true right
      if left.length + right.length ≤ 7 then
        some (left ++ List.replicate (8 - left.length - right.length) 0 ++ right)
      else none
  match result with
  | some pieces => .ok pieces
  | none => .error .invalidIpv6

/-- The length of the run of zeros that a list begins with. -/
def zeroRun (pieces : List Nat) : Nat := (pieces.takeWhile (· = 0)).length

/-- Where the first of the longest runs of at least two zeros begins, and its length. -/
def longestZeroRun (pieces : List Nat) : Option (Nat × Nat) :=
  (List.range pieces.length).foldl (fun best i =>
    let run := zeroRun (pieces.drop i)
    match best with
    | none => if 2 ≤ run then some (i, run) else none
    | some (_, longest) => if longest < run then some (i, run) else best) none

/-- Pieces in lower-case hexadecimal, between colons. -/
def showPieces (pieces : List Nat) : List Char :=
  Text.joinPieces ':' (pieces.map (Nat.toDigits 16))

/-- An IPv6 address in brackets. -/
def showIpv6 (pieces : List Nat) : List Char :=
  let body := match longestZeroRun pieces with
    | none => showPieces pieces
    | some (start, length) =>
      showPieces (pieces.take start) ++ ':' :: ':' :: showPieces (pieces.drop (start + length))
  '[' :: body ++ [']']

/-- A host that begins with a bracket. -/
def readBracketed (s : List Char) : Except UrlError (List Char) :=
  match Text.dropSuffix? [']'] s with
  | none => .error .invalidIpv6
  | some s => (readIpv6 (s.drop 1)).map showIpv6

/-! ## Domains -/

/-- ASCII characters that no domain may hold. -/
def forbiddenInDomain (c : Char) : Bool :=
  c.toNat ≤ 0x20 || c.toNat = 0x7F ||
    c ∈ ['#', '/', ':', '<', '>', '?', '@', '[', '\\', ']', '^', '|', '%']

/-- Dots of other scripts separate labels as the ASCII dot does. -/
def plainDot (c : Char) : Char :=
  if c.toNat = 0x3002 ∨ c.toNat = 0xFF0E ∨ c.toNat = 0xFF61 then '.' else c

/-- A label in ASCII. -/
def asciiLabel (label : List Char) : List Char :=
  if label.all (·.toNat < 128) then label else "xn--".toList ++ Punycode.encode label

/-- A domain in lower-case ASCII.  Of the processing that Unicode prescribes for international
domains this is the lower case, the dots of other scripts, and Punycode.  Left out are the other
characters that are mapped to some text (a fullwidth letter to the ASCII one, U+2025 to two dots),
those that are passed over (a soft hyphen) or refused, the composing of characters with their marks,
and the checks of labels, such as that Punycode stands after `xn--`. -/
def asciiDomain (s : List Char) : Except UrlError (List Char) :=
  let low := Text.lower (s.map plainDot)
  if low.any forbiddenInDomain then .error .invalidDomain
  else .ok (Text.joinPieces '.' ((Text.pieces '.' low).map asciiLabel))

/-- The host of a URL whose scheme has domains for hosts. -/
def readHost (s : List Char) : Except UrlError (List Char) :=
  if s.head? = some '[' then readBracketed s
  else match Text.Utf8.decode? (Percent.decodeOctets s) with
    | none => .error .invalidDomain
    | some decoded => do
      let domain ← asciiDomain decoded
      if domain = [] then .error .emptyHost
      else if endsInNumber domain then return showIpv4 (← readIpv4 domain)
      else return domain

/-- ASCII characters that no host of any scheme may hold. -/
def forbiddenInHost (c : Char) : Bool :=
  c ∈ ['\x00', '\t', '\n', '\r', ' ', '#', '/', ':', '<', '>', '?', '@', '[', '\\', ']', '^', '|']

/-- The host of a URL whose scheme leaves hosts alone. -/
def readPlainHost (s : List Char) : Except UrlError (List Char) :=
  if s.head? = some '[' then readBracketed s
  else if s.any forbiddenInHost then .error .invalidHostCharacter
  else .ok (Percent.encodeWith (fun c => !Percent.isControl c) s)

end Url
end Waymark
