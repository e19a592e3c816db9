/-
MeshLayout/Markup/Error.lean

What can be wrong with a document as markup, before anything is known of
meshes.  Positions are counted in bytes.
-/

namespace MeshLayout

namespace Markup

/-- The constructs that begin with `<`. -/
inductive Construct where
  | tag | comment | cdata | instruction | doctype
deriving DecidableEq

/-- What an unclosed construct lacks. -/
def Construct.unclosedMessage : Construct → String
  | tag => "tag not closed: `>` not found before end of input"
  | comment => "comment not closed: `-->` not found before end of input"
  | cdata => "CDATA not closed: `]]>` not found before end of input"
  | instruction =>
    "processing instruction or xml declaration not closed: `?>` not found before end of input"
  | doctype => "DOCTYPE not closed: `>` not found before end of input"

/-- Faults in the attributes of a tag.  Positions count from the start of the tag's name. -/
inductive AttributeFault where
  | missingEquals (position : Nat)
  | missingValue (position : Nat)
  | unquotedValue (position : Nat)
  | unclosedValue (position : Nat) (quote : Char)
  | duplicate (position previous : Nat)
deriving DecidableEq

/-- The fault in words. -/
def AttributeFault.message : AttributeFault → String
  | missingEquals position =>
    s!"position {position}: attribute key must be directly followed by `=` or space"
  | missingValue position => s!"position {position}: `=` must be followed by an attribute value"
  | unquotedValue position =>
    s!"position {position}: attribute value must be enclosed in `\"` or `'`"
  | unclosedValue position quote =>
    s!"position {position}: missing closing quote `" ++ quote.toString ++
      "` in attribute value"
  | duplicate position previous =>
    s!"position {position}: duplicated attribute, previous declaration at position {previous}"

/-- Faults in the references of a text.  Positions count from the start of the text. -/
inductive ReferenceFault where
  /-- no semicolon before the next ampersand or the end -/
  | unterminated (start stop : Nat)
  | unknownEntity (start stop : Nat) (name : String)
  | signedNumber
  | emptyNumber
  | invalidDigit
  | numberTooLarge
  | nullCharacter
  | invalidCodePoint (number : Nat)
deriving DecidableEq

/-- The fault in words. -/
def ReferenceFault.message : ReferenceFault → String
  | unterminated start stop =>
    s!"Error while escaping character at range {start}..{stop}: Cannot find ';' after '&'"
  | unknownEntity start stop name =>
    s!"at {start}..{stop}: unrecognized entity `" ++ name ++ "`"
  | signedNumber => "invalid character reference: unexpected number sign"
  | emptyNumber => "invalid character reference: cannot parse integer from empty string"
  | invalidDigit => "invalid character reference: invalid digit found in string"
  | numberTooLarge => "invalid character reference: number too large to fit in target type"
  | nullCharacter => "invalid character reference: 0x0 character is not permitted in XML"
  | invalidCodePoint number =>
    s!"invalid character reference: `{number}` is not a valid codepoint"

/-- What ends the reading of a document. -/
inductive Error where
  | unclosed (construct : Construct)
  /-- `<!` is followed by nothing that it can begin -/
  | unknownMarkup
  /-- a document type declaration without a name -/
  | namelessDoctype
  | mismatchedClose (expected found : String)
  | unmatchedClose (name : String)
  | attributes (fault : AttributeFault)
  | reference (fault : ReferenceFault)
deriving DecidableEq

/-- The error in words. -/
def Error.message : Error → String
  | unclosed construct => "syntax error: " ++ construct.unclosedMessage
  | unknownMarkup => "syntax error: unknown or missed symbol in markup"
  | namelessDoctype =>
    "ill-formed document: `<!DOCTYPE>` declaration does not contain a name of a document type"
  | mismatchedClose expected found =>
    "ill-formed document: expected `</" ++ expected ++ ">`, but `</" ++ found ++
      ">` was found"
  | unmatchedClose name =>
    "ill-formed document: close tag `</" ++ name ++ ">` does not match any open tag"
  | attributes fault => "error while parsing attribute: " ++ fault.message
  | reference fault => fault.message

end Markup

end MeshLayout
