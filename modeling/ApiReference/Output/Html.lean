/-
# Documentation as an HTML page

The page has an index of links, and for every module a section with a heading
and its functions. It is put together from pieces: markup, which stands as it
is, and data, in which the four characters that mean something to HTML are
replaced. The replacements are made one after the other over the whole text,
the ampersand first, so that none touches what another has put in.

Key definitions: `Html.escape`, `Html.Piece`, `Html.functionPieces`,
`Html.modulePieces`, `Html.pieces`, `Html.page`.
-/
import ApiReference.Docs.Basic
import ApiReference.Text.Anchor
import ApiReference.Text.Lines

namespace ApiReference
namespace Html

/-! ### Pieces -/

/-- A text with every `c` replaced. -/
def substitute (c : Char) (replacement : String) (text : String) : String :=
  String.ofList (text.toList.flatMap fun d => if d = c then replacement.toList else [d])

/-- The replacements of data, in the order in which they are made. -/
def replacements : List (Char × String) :=
  [('&', "&amp;"), ('<', "&lt;"), ('>', "&gt;"), ('"', "&quot;")]

/-- A text as data of a page. -/
def escape (text : String) : String :=
  replacements.foldl (fun text r => substitute r.1 r.2 text) text

/-- A piece of a page: markup stands as it is, data is escaped. -/
inductive Piece where
  | markup (text : String)
  | data (text : String)
  deriving DecidableEq

/-- The text of a piece. -/
def Piece.text : Piece → String
  | .markup text => text
  | .data text => escape text

/-- Data between two parts of markup. -/
def around (before data after : String) : List Piece := [.markup before, .data data, .markup after]

/-! ### The page -/

/-- The anchor of a module's section. -/
def sectionId (m : ModuleDoc) : String := "module-" ++ anchor m.name

/-- A description, if it is not empty. -/
def descriptionPieces (description : String) : List Piece :=
  if description = "" then [] else around "<p>" description "</p>\n"

/-- A row of the table of parameters. -/
def parameterPieces (p : ParameterDoc) : List Piece :=
  around "  <tr><td><code>" p.name "</code></td><td><code>" ++
    [.data p.shownType, .markup "</code></td></tr>\n"]

/-- The table of parameters, if there are any. -/
def parametersPieces (parameters : List ParameterDoc) : List Piece :=
  if parameters = [] then []
  else
    .markup "<table>\n  <tr><th>Parameter</th><th>Type</th></tr>\n" ::
      parameters.flatMap parameterPieces ++ [.markup "</table>\n"]

/-- The type of the result, if there is one. -/
def returnPieces : Option String → List Piece
  | none => []
  | some type => around "<p>Returns <code>" type "</code></p>\n"

/-- The pieces of a function. -/
def functionPieces (f : FunctionDoc) : List Piece :=
  around "<h3><code>" f.signature "</code>" ++
    (if f.isNative then [.markup " <span class=\"tag tag-native\">native</span>"] else []) ++
    [.markup "</h3>\n"] ++ descriptionPieces f.description ++ parametersPieces f.parameters ++
    returnPieces f.returns

/-- The pieces of a module. -/
def modulePieces (m : ModuleDoc) : List Piece :=
  around "<section id=\"" (sectionId m) "\">\n" ++ around "<h2>" m.name "</h2>\n" ++
    descriptionPieces m.description ++
    (if m.functions = [] then [.markup "<p><em>No functions.</em></p>\n"] else []) ++
    m.functions.flatMap functionPieces ++ [.markup "</section>\n"]

/-- The link to a module. -/
def linkPieces (m : ModuleDoc) : List Piece :=
  around "  <li><a href=\"#" (sectionId m) "\">" ++ [.data m.name, .markup "</a></li>\n"]

/-- The index of the modules, if there are any. -/
def indexPieces (modules : List ModuleDoc) : List Piece :=
  if modules = [] then []
  else .markup "<h2>Modules</h2>\n<ul>\n" :: modules.flatMap linkPieces ++ [.markup "</ul>\n"]

/-- How the page looks. -/
def style : String :=
  unlines
    ["<style>",
     "body \x7b font-family: system-ui, sans-serif; max-width: 48em; margin: 2em auto; padding: 0 1em; \x7d",
     "code \x7b background: #f4f4f4; padding: 0.15em 0.3em; border-radius: 3px; \x7d",
     "table \x7b border-collapse: collapse; margin: 0.5em 0 1em; \x7d",
     "th, td \x7b text-align: left; padding: 0.2em 0.8em; border-bottom: 1px solid #ddd; \x7d",
     ".tag \x7b display: inline-block; font-size: 0.75em; padding: 0.1em 0.4em; border-radius: 3px; margin-left: 0.5em; \x7d",
     ".tag-native \x7b background: #dea584; color: #1a1a1a; \x7d",
     "</style>"]

/-- The pieces of the page. -/
def pieces (project : String) (modules : List ModuleDoc) : List Piece :=
  .markup "<!DOCTYPE html>\n<html>\n<head>\n<meta charset=\"utf-8\">\n" ::
    around "<title>" project " API Documentation</title>\n" ++
    [.markup style, .markup "</head>\n<body>\n"] ++ around "<h1>" project "</h1>\n" ++
    indexPieces modules ++ modules.flatMap modulePieces ++ [.markup "</body>\n</html>\n"]

/-- The HTML page of a project. -/
def page (project : String) (modules : List ModuleDoc) : String :=
  String.join ((pieces project modules).map Piece.text)

end Html
end ApiReference
