import Waymark.MediaType.Table
import Waymark.Specifier
/-!
# Media types

Under which type a module or a file is served: script and style sheets under
their own constants, everything else by the table of extensions.

## Main results

* `ofLanguage_script` — every language that is compiled to script is served as script.
-/

namespace Waymark.MediaType

/-- The type of compiled script. -/
def script : String := "application/javascript; charset=utf-8"

/-- The type of a style sheet. -/
def style : String := "text/css; charset=utf-8"

/-- The type of a short message. -/
def plain : String := "text/plain; charset=utf-8"

/-- The type of anything else. -/
def octets : String := "application/octet-stream"

/-- The ASCII letters that a character stands for when case is set aside: its own lower case, or
those of a long s, a sharp s, the sign for kelvin or a ligature. -/
def foldCase (c : Char) : List Char :=
  match c with
  | 'ſ' => ['s']
  | '\u212A' => ['k']
  | 'ß' | 'ẞ' => ['s', 's']
  | 'ﬀ' => ['f', 'f']
  | 'ﬁ' => ['f', 'i']
  | 'ﬂ' => ['f', 'l']
  | 'ﬃ' => ['f', 'f', 'i']
  | 'ﬄ' => ['f', 'f', 'l']
  | 'ﬅ' | 'ﬆ' => ['s', 't']
  | c => [c.toLower]

/-- The type of an extension, in any case. -/
def ofExtension? (ext : String) : Option String :=
  let folded := String.ofList (ext.toList.flatMap foldCase)
  (mediaTypes.find? fun (_, extensions) => folded ∈ extensions).map (·.1)

/-- The type of what is written in a language.  Languages compiled to script are served as
script, and so is what has no type of its own. -/
def ofLanguage (lang : String) : String :=
  if lang ∈ Specifier.scriptExtensions then script
  else if lang = "css" then style
  else (ofExtension? lang).getD script

@[simp] theorem ofLanguage_script {lang : String} (h : lang ∈ Specifier.scriptExtensions) :
    ofLanguage lang = script := by
  simp [ofLanguage, h]

/-- The type of a file by its name. -/
def ofFileName (name : List Char) : String :=
  match Specifier.cutExtension name with
  | some (_, ext) => (ofExtension? (String.ofList ext)).getD octets
  | none => octets

end Waymark.MediaType
