/-
MeshLayout/Markup/Piece.lean

Cutting a document into pieces: text between constructs, character data
sections, opening tags and closing tags.

The characters are read once from left to right by a machine whose mode
says which construct it is in and what of it has been read.  A construct is
chosen by the one or two characters at its start and ends at the first `>`
that its kind accepts: for a tag one outside quotes, for a comment one
behind `--`, for a section one behind `]]`, for a processing instruction
one behind `?`, for a document type declaration one that balances every `<`
in it.  Comments, instructions and declarations leave no piece.
-/
import MeshLayout.Markup.Error

namespace MeshLayout

namespace Markup

/-- A part of a document, in the characters of the document. -/
inductive Piece where
  /-- character data, with its references -/
  | text (chars : List Char)
  /-- a section of literal text -/
  | cdata (chars : List Char)
  /-- an opening tag, without its brackets -/
  | opening (content : List Char)
  /-- a closing tag, without its brackets and slash -/
  | closing (content : List Char)
deriving DecidableEq

/-- Where the machine stands.  Characters read are kept last character first. -/
inductive Mode where
  /-- between constructs -/
  | text (read : List Char)
  /-- behind `<` -/
  | bracket
  /-- behind `<!` -/
  | bang
  /-- in a tag, and in quotes if there is a quote -/
  | tag (quote : Option Char) (read : List Char)
  | comment (read : List Char)
  | cdata (read : List Char)
  | instruction (read : List Char)
  /-- in a document type declaration, with the number of brackets open in it -/
  | doctype (depth : Nat) (read : List Char)
deriving DecidableEq

/-- A step of the machine: the next mode, and the piece that is complete. -/
abbrev Step := Except Error (Mode × Option Piece)

/-- The blanks of markup. -/
def isSpace (c : Char) : Bool := c = ' ' || c = '\t' || c = '\r' || c = '\n'

/-! ### The ends of constructs -/

/-- The text read, unless there is none. -/
def closeText (read : List Char) : Option Piece :=
  if read.isEmpty then none else some (.text read.reverse)

/-- The piece of a tag.  A slash in front marks a closing tag. -/
def closeTag (read : List Char) : Piece :=
  match read.reverse with
  | '/' :: content => .closing content
  | content => .opening content

/-- Does a `>` end a comment of which this has been read?  The dashes that open it may not
close it. -/
def endsComment : List Char → Bool
  | '-' :: '-' :: _ :: _ :: _ :: _ => true
  | _ => false

/-- A comment has to open with two dashes. -/
def closeComment (read : List Char) : Step :=
  if "!--".toList.isPrefixOf read.reverse then .ok (.text [], none)
  else .error (.unclosed .comment)

/-- Does a `>` end a section of which this has been read? -/
def endsCData : List Char → Bool
  | ']' :: ']' :: _ => true
  | _ => false

/-- A section has to open with `[CDATA[`; its text lies between the brackets. -/
def closeCData (read : List Char) : Step :=
  let opener := "![CDATA[".toList
  let content := read.reverse
  if opener.isPrefixOf content then
    .ok (.text [], some (.cdata ((content.drop opener.length).dropLast.dropLast)))
  else .error (.unclosed .cdata)

/-- A processing instruction has to close with a question mark of its own. -/
def closeInstruction : List Char → Step
  | [_] => .error (.unclosed .instruction)
  | _ => .ok (.text [], none)

/-- A document type declaration has to open with `DOCTYPE`, in letters of any case, and to
name a type. -/
def closeDoctype (read : List Char) : Step :=
  let opener := "!DOCTYPE".toList
  let content := read.reverse
  if (content.take opener.length).map Char.toUpper = opener then
    if (content.drop opener.length).all isSpace then .error .namelessDoctype
    else .ok (.text [], none)
  else .error (.unclosed .doctype)

/-! ### The machine -/

namespace Mode

/-- Reads a character in a tag. -/
def stepTag (quote : Option Char) (read : List Char) (c : Char) : Mode × Option Piece :=
  match quote with
  | some q => (tag (if c = q then none else some q) (c :: read), none)
  | none =>
    if c = '>' then (text [], some (closeTag read))
    else if c = '"' || c = '\'' then (tag (some c) (c :: read), none)
    else (tag none (c :: read), none)

/-- Reads the character behind `<`. -/
def stepBracket (c : Char) : Mode × Option Piece :=
  if c = '!' then (bang, none)
  else if c = '?' then (instruction [c], none)
  else stepTag none [] c

/-- Reads the character behind `<!`. -/
def stepBang (c : Char) : Step :=
  if c = '[' then .ok (cdata [c, '!'], none)
  else if c = '-' then .ok (comment [c, '!'], none)
  else if c = 'D' || c = 'd' then .ok (doctype 0 [c, '!'], none)
  else .error .unknownMarkup

/-- Reads a character. -/
def step (mode : Mode) (c : Char) : Step :=
  match mode with
  | text read => if c = '<' then .ok (bracket, closeText read) else .ok (text (c :: read), none)
  | bracket => .ok (stepBracket c)
  | bang => stepBang c
  | tag quote read => .ok (stepTag quote read c)
  | comment read =>
    if c = '>' && endsComment read then closeComment read else .ok (comment (c :: read), none)
  | cdata read =>
    if c = '>' && endsCData read then closeCData read else .ok (cdata (c :: read), none)
  | instruction read =>
    if c = '>' && read.head? = some '?' then closeInstruction read
    else .ok (instruction (c :: read), none)
  | doctype depth read =>
    if c = '<' then .ok (doctype (depth + 1) (c :: read), none)
    else if c = '>' then
      match depth with
      | 0 => closeDoctype read
      | depth + 1 => .ok (doctype depth (c :: read), none)
    else .ok (doctype depth (c :: read), none)

/-- Ends the document: only text may be cut short. -/
def finish : Mode → Except Error (Option Piece)
  | text read => .ok (closeText read)
  | bracket => .error (.unclosed .tag)
  | bang => .error .unknownMarkup
  | tag .. => .error (.unclosed .tag)
  | comment _ => .error (.unclosed .comment)
  | cdata _ => .error (.unclosed .cdata)
  | instruction _ => .error (.unclosed .instruction)
  | doctype .. => .error (.unclosed .doctype)

end Mode

/-- A piece as the items of a list. -/
def Piece.items (piece : Option Piece) : List (Except Error Piece) :=
  piece.toList.map .ok

/-- The pieces that the machine gives from a mode on, and the error it ends with if it ends
with one. -/
def piecesFrom (mode : Mode) : List Char → List (Except Error Piece)
  | [] =>
    match mode.finish with
    | .ok piece => Piece.items piece
    | .error e => [.error e]
  | c :: rest =>
    match mode.step c with
    | .ok (mode, piece) => Piece.items piece ++ piecesFrom mode rest
    | .error e => [.error e]

/-- The pieces of a document. -/
def documentPieces (chars : List Char) : List (Except Error Piece) := piecesFrom (.text []) chars

end Markup

end MeshLayout
