import Waymark.Url
/-!
# Queries as pairs

A query read as the pairs of a form, and pairs written as one.
-/

namespace Waymark.Url

/-- A part of a pair as text: a plus is a space, and triples are decoded. -/
def formDecode (s : List Char) : List Char :=
  Percent.decodeLossy (s.map fun c => if c = '+' then ' ' else c)

/-- The pairs of a query.  A part without equals sign has an empty value. -/
def formPairs (query : List Char) : List (List Char × List Char) :=
  (Text.segments '&' query).map fun pair =>
    let (k, v) := (Text.cut '=' pair).getD (pair, [])
    (formDecode k, formDecode v)

/-- The pairs of a URL's query. -/
def queryPairs (u : Url) : List (List Char × List Char) := formPairs (u.query.getD [])

/-- Whether a character stands for itself in a form. -/
def keepsInForm (c : Char) : Bool := c.isAlphanum || c ∈ ['*', '-', '.', '_']

/-- A part of a pair as it is written. -/
def formEncodePart (s : List Char) : List Char :=
  s.flatMap fun c => if c = ' ' then ['+'] else Percent.encodeWith keepsInForm [c]

/-- Pairs as a query. -/
def formEncode (pairs : List (List Char × List Char)) : List Char :=
  Text.joinPieces '&' (pairs.map fun (k, v) => formEncodePart k ++ '=' :: formEncodePart v)

end Waymark.Url
