/-
MeshLayout/Token.lean

Markup tokens, as any reader of tagged documents may produce them.
-/
import MeshLayout.Error

namespace MeshLayout

/-- One token of a tagged document.  An element without content is an opening tag and at once
its closing tag. -/
inductive Token where
  | opening (name : String) (attributes : List (String × String))
  | text (text : String)
  | closing (name : String)
deriving DecidableEq

/-- A token that stands where the root element was expected. -/
def Token.found : Token → Found
  | opening name _ => .opening name
  | text _ => .text
  | closing name => .closing name

end MeshLayout
