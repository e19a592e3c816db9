/-
MeshLayout/Token/Reader.lean

From markup tokens to the events of a mesh description.

The reader is a state machine.  It is fed the answers of a token source one
at a time, where the answer `none` says that there is no token now, and to
each answer it either asks for more, gives an event, fails, or says that
the description is complete.  Blank text between elements is passed over;
within a block all text is collected up to the closing tag.  A reader that
has failed asks for nothing more.  One that has read the whole description
keeps asking, since the source may still have tokens, and anything but
blank text is then an error.
-/
import MeshLayout.Event
import MeshLayout.Scalar.Reading

namespace MeshLayout

/-! ### Attributes of tags -/

/-- The value of the first attribute with the given key. -/
def lookup (tag : Element) (key : String) (attributes : List (String × String)) :
    Except Error String :=
  match attributes.find? fun entry => entry.1 = key with
  | some entry => .ok entry.2
  | none => .error (.missingAttribute tag key)

/-- The natural number below 2^32 that an attribute holds between blanks. -/
def lookupNumber (tag : Element) (key : String) (attributes : List (String × String)) :
    Except Error UInt32 := do
  let value ← lookup tag key attributes
  let word ← Scalar.u32.parse (trim value)
  return UInt32.ofNat word.toNat

/-- What an opening tag says about its block. -/
inductive Header where
  | attribute (slot : UInt32) (typeName : String) (components : UInt32)
  | indices (primitiveName typeName : String)
  | arrays (primitiveName : String) (first count : UInt32)
deriving DecidableEq

namespace Header

/-- The element of the block. -/
def element : Header → Element
  | .attribute .. => .attribute
  | indices .. => .indices
  | arrays .. => .arrays

/-- Reads the opening tag of a block.  Attributes are looked up in a fixed order, and the first
that is missing or malformed is reported. -/
def ofTag (name : String) (attributes : List (String × String)) : Except Error Header :=
  if name = Element.attribute.name then do
    let slot ← lookupNumber .attribute "index" attributes
    let typeName ← lookup .attribute "type" attributes
    let components ← lookupNumber .attribute "size" attributes
    return .attribute slot typeName components
  else if name = Element.indices.name then do
    let primitiveName ← lookup .indices "cmd" attributes
    let typeName ← lookup .indices "type" attributes
    return .indices primitiveName typeName
  else if name = Element.arrays.name then do
    let primitiveName ← lookup .arrays "cmd" attributes
    let first ← lookupNumber .arrays "start" attributes
    let count ← lookupNumber .arrays "count" attributes
    return .arrays primitiveName first count
  else if name = Element.mesh.name then .error (.unexpectedTag .mesh name)
  else .error (.invalidTag name)

/-- The block with the given text as its content. -/
def complete (header : Header) (text : String) : Except Error Block :=
  match header with
  | .attribute slot typeName components => .ok (.attribute slot typeName components text)
  | indices primitiveName typeName => .ok (.indices primitiveName typeName text)
  | arrays primitiveName first count =>
    if isBlankText text then .ok (.arrays primitiveName first count)
    else .error (.unexpectedText .arrays)

end Header

/-! ### The machine -/

/-- Where a reader stands in the description. -/
inductive Reader where
  /-- before the root element -/
  | root
  /-- in the root element, between blocks -/
  | mesh
  /-- in a block, with the text read so far -/
  | block (header : Header) (text : String)
  /-- after the root element -/
  | done
  /-- after an error -/
  | failed
deriving DecidableEq

/-- What a reader makes of an answer of its source. -/
inductive Signal where
  /-- another token is needed -/
  | more
  | event (event : Event)
  | error (error : Error)
  /-- the description is complete -/
  | finished
deriving DecidableEq

namespace Reader

/-- The reader after an error. -/
def fail (e : Error) : Reader × Signal := (.failed, .error e)

/-- Reads a token before the root element. -/
def feedRoot : Token → Reader × Signal
  | .opening name attributes =>
    if name = Element.mesh.name then (.mesh, .event .enterMesh)
    else fail (.missingRoot (Token.opening name attributes).found)
  | .text text =>
    if isBlankText text then (.root, .more) else fail (.missingRoot (Token.text text).found)
  | .closing name => fail (.missingRoot (Token.closing name).found)

/-- Reads a token between blocks. -/
def feedMesh : Token → Reader × Signal
  | .opening name attributes =>
    match Header.ofTag name attributes with
    | .ok header => (.block header "", .more)
    | .error e => fail e
  | .text text => if isBlankText text then (.mesh, .more) else fail (.unexpectedText .mesh)
  | .closing name =>
    if name = Element.mesh.name then (.done, .event .exitMesh)
    else fail (.mismatchedClose .mesh name)

/-- Reads a token in a block. -/
def feedBlock (header : Header) (text : String) : Token → Reader × Signal
  | .opening name _ => fail (.unexpectedTag header.element name)
  | .text more => (.block header (text ++ more), .more)
  | .closing name =>
    if name = header.element.name then
      match header.complete text with
      | .ok content => (.mesh, .event (.block content))
      | .error e => fail e
    else fail (.mismatchedClose header.element name)

/-- Reads a token after the root element. -/
def feedDone : Token → Reader × Signal
  | .text text => if isBlankText text then (.done, .more) else fail .trailingContent
  | _ => fail .trailingContent

/-- Takes one answer of the source. -/
def feed : Reader → Option Token → Reader × Signal
  | failed, _ => (failed, .finished)
  | done, none => (done, .finished)
  | _, none => fail .unexpectedEnd
  | root, some token => feedRoot token
  | mesh, some token => feedMesh token
  | block header text, some token => feedBlock header text token
  | done, some token => feedDone token

/-! ### Reading from a source -/

/-- The next event or error, after as many requests as it takes.  `answers` are what the source
will answer; once they are used up it has no more tokens.  Gives the answers that are left. -/
def next (reader : Reader) (answers : List (Option Token)) :
    Option (Except Error Event) × Reader × List (Option Token) :=
  if reader = failed then (none, failed, answers)
  else
    match answers with
    | [] => ask reader none []
    | answer :: rest =>
      match reader.feed answer with
      | (reader, .more) => next reader rest
      | (reader, .event event) => (some (.ok event), reader, rest)
      | (reader, .error e) => (some (.error e), reader, rest)
      | (reader, .finished) => (none, reader, rest)
where
  /-- The last request: an end of the source never asks for more. -/
  ask (reader : Reader) (answer : Option Token) (rest : List (Option Token)) :=
    match reader.feed answer with
    | (reader, .event event) => (some (.ok event), reader, rest)
    | (reader, .error e) => (some (.error e), reader, rest)
    | (reader, _) => (none, reader, rest)

/-- Calls `next` the given number of times. -/
def poll (reader : Reader) (answers : List (Option Token)) :
    Nat → List (Option (Except Error Event))
  | 0 => []
  | count + 1 =>
    let (item, reader, rest) := reader.next answers
    item :: poll reader rest count

/-- Everything a reader gives for tokens after which the source has ended: events, and an error
as the last item if there is one. -/
def itemsFrom (reader : Reader) : List Token → List (Except Error Event)
  | [] =>
    match reader.feed none with
    | (_, .event event) => [.ok event]
    | (_, .error e) => [.error e]
    | _ => []
  | token :: rest =>
    match reader.feed (some token) with
    | (reader, .more) => itemsFrom reader rest
    | (reader, .event event) => .ok event :: itemsFrom reader rest
    | (_, .error e) => [.error e]
    | (_, .finished) => []

/-- The items of a whole document. -/
def items (tokens : List Token) : List (Except Error Event) := itemsFrom root tokens

end Reader

end MeshLayout
