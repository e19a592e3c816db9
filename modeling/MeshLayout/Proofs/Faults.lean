/-
MeshLayout/Proofs/Faults.lean

Where errors come from.

Errors are found in the markup, in what a block says, or in what is missing
when there are no more tokens: `OfMarkup`, `OfContent` and `AtEnd`.  Behind a
reader, which sees to the markup, only the content of a block is left for a
compiler to find fault with (`failsWith_examine`).  No error of the last kind
is of one of the others (`OfMarkup.not_atEnd`, `OfContent.not_atEnd`), so an
error tells by itself whether the end had to be seen for it.

`FailsWith` says of a computation what its errors are like; it is put together
as the computation is.
-/
import MeshLayout.Proofs.Examination
import MeshLayout.Proofs.Tags

namespace MeshLayout

/-! ### Kinds of errors -/

namespace Error

/-- Something stands where it may not, or a tag does not say what it has to. -/
inductive OfMarkup : Error → Prop
  | invalidTag (name : String) : OfMarkup (.invalidTag name)
  | missingRoot (found : Found) : OfMarkup (.missingRoot found)
  | unexpectedTag (inside : Element) (found : String) : OfMarkup (.unexpectedTag inside found)
  | mismatchedClose (expected : Element) (found : String) :
    OfMarkup (.mismatchedClose expected found)
  | unexpectedText (inside : Element) : OfMarkup (.unexpectedText inside)
  | trailingContent : OfMarkup .trailingContent
  | missingAttribute (tag : Element) (key : String) : OfMarkup (.missingAttribute tag key)
  | malformedNumber (token : String) (kind : Scalar) : OfMarkup (.malformedNumber token kind)

/-- An opening tag that is not one of a block, or does not say what it has to. -/
inductive OfTag : Error → Prop
  | invalidTag (name : String) : OfTag (.invalidTag name)
  | unexpectedTag (inside : Element) (found : String) : OfTag (.unexpectedTag inside found)
  | missingAttribute (tag : Element) (key : String) : OfTag (.missingAttribute tag key)
  | malformedNumber (token : String) (kind : Scalar) : OfTag (.malformedNumber token kind)

/-- A block that says nothing, or nothing that may be said. -/
inductive OfContent : Error → Prop
  | emptyBlock (tag : Element) : OfContent (.emptyBlock tag)
  | zeroComponents (slot : UInt32) : OfContent (.zeroComponents slot)
  | violation (v : Violation) : OfContent (.violation v)
  | unsupportedType (name : String) : OfContent (.unsupportedType name)
  | unsupportedPrimitive (name : String) : OfContent (.unsupportedPrimitive name)
  | malformedNumber (token : String) (kind : Scalar) : OfContent (.malformedNumber token kind)

/-- Something is missing at the end. -/
inductive AtEnd : Error → Prop
  | unexpectedEnd : AtEnd .unexpectedEnd
  | noAttributes : AtEnd .noAttributes
  | noCommands : AtEnd .noCommands

variable {e : Error}

theorem atEnd_iff : e.AtEnd ↔ e = .unexpectedEnd ∨ e = .noAttributes ∨ e = .noCommands := by
  constructor
  · rintro (_ | _ | _) <;> simp
  · rintro (rfl | rfl | rfl)
    · exact .unexpectedEnd
    · exact .noAttributes
    · exact .noCommands

theorem OfTag.ofMarkup (h : e.OfTag) : e.OfMarkup := by
  cases h with
  | invalidTag name => exact .invalidTag name
  | unexpectedTag inside found => exact .unexpectedTag inside found
  | missingAttribute tag key => exact .missingAttribute tag key
  | malformedNumber token kind => exact .malformedNumber token kind

theorem OfMarkup.not_atEnd (h : e.OfMarkup) : ¬ e.AtEnd := by
  rintro (_ | _ | _) <;> cases h

theorem OfContent.not_atEnd (h : e.OfContent) : ¬ e.AtEnd := by
  rintro (_ | _ | _) <;> cases h

end Error

/-! ### Computations that fail -/

/-- The computation has not failed, or with such an error. -/
inductive FailsWith {ε α : Type} (P : ε → Prop) : Except ε α → Prop
  | ok (a : α) : FailsWith P (.ok a)
  | error {e : ε} (h : P e) : FailsWith P (.error e)

section FailsWith

variable {ε α β : Type} {P Q : ε → Prop}

theorem FailsWith.of_error {outcome : Except ε α} (h : FailsWith P outcome) {e : ε}
    (herror : outcome = .error e) : P e := by
  subst herror
  cases h with
  | error h => exact h

theorem FailsWith.imp {outcome : Except ε α} (h : FailsWith P outcome) (hPQ : ∀ e, P e → Q e) :
    FailsWith Q outcome := by
  cases h with
  | ok a => exact .ok a
  | error h => exact .error (hPQ _ h)

theorem FailsWith.bind {first : Except ε α} {next : α → Except ε β} (hfirst : FailsWith P first)
    (hnext : ∀ a, FailsWith P (next a)) : FailsWith P (first >>= next) := by
  cases hfirst with
  | ok a => exact hnext a
  | error h => exact .error h

theorem Logged.failsWith_bind {first : Logged ε α} {next : α → Logged ε β}
    (hfirst : FailsWith P first.result) (hnext : ∀ a, FailsWith P (next a).result) :
    FailsWith P (first >>= next).result := by
  rcases first with ⟨notes, outcome⟩
  cases hfirst with
  | ok a => exact hnext a
  | error h => exact .error h

theorem Logged.failsWith_require {e : ε} (condition : Bool) (h : P e) :
    FailsWith P (require condition e).result := by
  cases condition with
  | true => exact .ok ()
  | false => exact .error h

end FailsWith

namespace Scalar

variable {P : Error → Prop} {k : Scalar}

theorem failsWith_parse (h : ∀ token, P (.malformedNumber token k)) (token : String) :
    FailsWith P (k.parse token) := by
  rw [parse]
  split
  · exact .ok _
  · exact .error (h token)

theorem failsWith_readText (h : ∀ token, P (.malformedNumber token k)) (text : String) :
    FailsWith P (k.readText text) := by
  show FailsWith P (k.parseAll (words text))
  induction words text with
  | nil => exact .ok []
  | cons token rest ih =>
    apply (failsWith_parse h token).bind
    intro word
    exact ih.bind fun values => .ok _

end Scalar

/-! ### Tags -/

section Tags

variable (tag : Element) (key : String) (attributes : List (String × String))

theorem failsWith_lookup : FailsWith Error.OfTag (lookup tag key attributes) := by
  rw [lookup]
  split
  · exact .ok _
  · exact .error (.missingAttribute tag key)

theorem failsWith_lookupNumber : FailsWith Error.OfTag (lookupNumber tag key attributes) := by
  apply (failsWith_lookup tag key attributes).bind
  intro value
  have hparse := Scalar.failsWith_parse (fun token => Error.OfTag.malformedNumber token .u32)
    (trim value)
  exact hparse.bind fun word => .ok _

theorem Header.failsWith_ofTag (name : String) :
    FailsWith Error.OfTag (Header.ofTag name attributes) := by
  rw [Header.ofTag]
  split_ifs
  · apply (failsWith_lookupNumber _ _ _).bind
    intro slot
    apply (failsWith_lookup _ _ _).bind
    intro typeName
    exact (failsWith_lookupNumber _ _ _).bind fun components => .ok _
  · apply (failsWith_lookup _ _ _).bind
    intro primitiveName
    exact (failsWith_lookup _ _ _).bind fun typeName => .ok _
  · apply (failsWith_lookup _ _ _).bind
    intro primitiveName
    apply (failsWith_lookupNumber _ _ _).bind
    intro first
    exact (failsWith_lookupNumber _ _ _).bind fun count => .ok _
  · exact .error (.unexpectedTag .mesh name)
  · exact .error (.invalidTag name)

end Tags

theorem Header.failsWith_complete (header : Header) (text : String) :
    FailsWith (· = .unexpectedText .arrays) (header.complete text) := by
  rcases header with - | - | -
  · exact .ok _
  · exact .ok _
  · show FailsWith _ (if isBlankText text then _ else _)
    split_ifs
    · exact .ok _
    · exact .error rfl

/-! ### Events -/

theorem Stage.failsWith_after (stage : Stage) (event : Event) :
    FailsWith Error.OfMarkup (stage.after event) := by
  rcases stage with - | - | - <;> rcases event with - | block | -
  · exact .ok _
  · exact .error (.missingRoot _)
  · exact .error (.missingRoot _)
  · exact .error (.unexpectedTag .mesh _)
  · exact .ok _
  · exact .ok _
  · exact .error .trailingContent
  · exact .error .trailingContent
  · exact .error .trailingContent

namespace Compiler

variable (c : Compiler)

theorem failsWith_attributeType (name : String) :
    FailsWith Error.OfContent (attributeType name) := by
  rw [attributeType]
  split
  · exact .ok _
  · exact .error (.unsupportedType name)

theorem failsWith_indexType (name : String) : FailsWith Error.OfContent (indexType name) := by
  rw [indexType]
  split
  · exact .ok _
  · exact .error (.unsupportedType name)

theorem failsWith_primitive (name : String) : FailsWith Error.OfContent (primitive name) := by
  rw [primitive]
  split
  · exact .ok _
  · exact .error (.unsupportedPrimitive name)

theorem failsWith_review (options : Options) (violation : Option Violation) :
    FailsWith Error.OfContent (review options violation).result := by
  rcases violation with - | v
  · exact .ok ()
  · rw [review]
    split_ifs
    · exact .error (.violation v)
    · exact .ok ()

theorem failsWith_values (k : Scalar) (text : String) :
    FailsWith Error.OfContent (k.readText text) :=
  Scalar.failsWith_readText (fun token => .malformedNumber token k) text

/-- **Only its content is held against a block** that stands where it may. -/
theorem failsWith_examine (block : Block) :
    FailsWith Error.OfContent (c.examine block).result := by
  match block with
  | .attribute slot typeName components text =>
    apply Logged.failsWith_bind (failsWith_attributeType typeName)
    intro type
    apply Logged.failsWith_bind (Logged.failsWith_require _ (.zeroComponents slot))
    intro _
    apply Logged.failsWith_bind (failsWith_review _ _)
    intro _
    apply Logged.failsWith_bind (failsWith_values type.scalar text)
    intro values
    apply Logged.failsWith_bind (Logged.failsWith_require _ (.emptyBlock .attribute))
    intro _
    apply Logged.failsWith_bind (failsWith_review _ _)
    intro _
    exact Logged.failsWith_bind (failsWith_review _ _) fun _ => .ok _
  | .indices primitiveName typeName text =>
    apply Logged.failsWith_bind (failsWith_primitive primitiveName)
    intro mode
    apply Logged.failsWith_bind (failsWith_indexType typeName)
    intro type
    apply Logged.failsWith_bind (failsWith_values type.scalar text)
    intro values
    exact Logged.failsWith_bind (Logged.failsWith_require _ (.emptyBlock .indices))
      fun _ => .ok _
  | .arrays primitiveName first count =>
    exact Logged.failsWith_bind (failsWith_primitive primitiveName) fun mode => .ok _

/-- An event is refused where it may not stand, or for its content. -/
theorem failsWith_push_of {P : Error → Prop} {event : Event}
    (hafter : FailsWith P (c.stage.after event)) (hcontent : ∀ e, e.OfContent → P e) :
    FailsWith P (c.push event).next.result := by
  rw [next_push]
  apply Logged.failsWith_bind hafter
  intro stage
  rcases event with - | block | -
  · exact .ok _
  · apply Logged.failsWith_bind ((c.failsWith_examine block).imp hcontent)
    exact fun content => .ok _
  · exact .ok _

theorem failsWith_push (event : Event) :
    FailsWith (fun e => e.OfMarkup ∨ e.OfContent) (c.push event).next.result :=
  c.failsWith_push_of ((c.stage.failsWith_after event).imp fun _ => .inl) fun _ => .inr

theorem failsWith_finish : FailsWith Error.AtEnd c.finish.result := by
  apply Logged.failsWith_bind (Logged.failsWith_require _ .unexpectedEnd)
  intro _
  apply Logged.failsWith_bind (Logged.failsWith_require _ .noAttributes)
  intro _
  exact Logged.failsWith_bind (Logged.failsWith_require _ .noCommands) fun _ => .ok _

end Compiler

end MeshLayout
