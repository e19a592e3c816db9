/-
MeshLayout/Markup/Document.lean

The tokens of a document.

Two parts meet here.  The one is the reader of a package for XML, which
knows nothing of tokens.  It drops a byte order mark (`dropByteOrderMark`),
cuts the document into pieces (`Piece`), takes tags apart into names and
attributes (`Tag`) and resolves references (`Reference`).  It keeps the names
of the elements that are open on a stack: a closing tag has to close the
innermost of them (`closingName`, `closeElement`), but elements may be left
open at the end.

The other is the loop that asks this reader for one piece after the other
and makes tokens of them (`pieceTokens`, `tokensFrom`).  Of an element that
closes itself it makes an opening and a closing token.  Comments,
instructions and declarations it passes over, so the reader leaves no piece
of them.  The stack is handed on from piece to piece.
-/
import MeshLayout.Markup.Tag
import MeshLayout.Token

namespace MeshLayout

namespace Markup

/-! ### The reader -/

/-- The characters without the byte order mark in front. -/
def dropByteOrderMark : List Char → List Char
  | '\ufeff' :: rest => rest
  | chars => chars

/-- The name in a closing tag: blanks behind it are dropped, unless there is nothing else. -/
def closingName (content : List Char) : String :=
  let trimmed := (content.reverse.dropWhile isSpace).reverse
  String.ofList (if trimmed.isEmpty then content else trimmed)

/-- The names of the open elements after the innermost has been closed. -/
def closeElement (opened : List String) (name : String) : Except Error (List String) :=
  match opened with
  | [] => .error (.unmatchedClose name)
  | innermost :: others =>
    if innermost = name then .ok others else .error (.mismatchedClose innermost name)

/-! ### The loop over its pieces -/

/-- The tokens of a piece, and the names of the elements that are open behind it. -/
def pieceTokens (opened : List String) : Piece → Except Error (List Token × List String)
  | .text chars => do
    let text ← resolveText chars
    return ([.text text], opened)
  | .cdata chars => .ok ([.text (String.ofList chars)], opened)
  | .opening content => do
    let tag ← Tag.ofContent content
    if tag.selfClosing then
      return ([.opening tag.name tag.attributes, .closing tag.name], opened)
    else return ([.opening tag.name tag.attributes], tag.name :: opened)
  | .closing content => do
    let name := closingName content
    let others ← closeElement opened name
    return ([.closing name], others)

/-- The tokens of pieces, with the given elements open. -/
def tokensFrom (opened : List String) : List (Except Error Piece) → Except Error (List Token)
  | [] => .ok []
  | item :: rest => do
    let piece ← item
    let (tokens, others) ← pieceTokens opened piece
    let more ← tokensFrom others rest
    return tokens ++ more

/-- The tokens of a document. -/
def tokens (document : String) : Except Error (List Token) :=
  tokensFrom [] (documentPieces (dropByteOrderMark document.toList))

end Markup

end MeshLayout
