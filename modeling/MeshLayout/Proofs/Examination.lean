/-
MeshLayout/Proofs/Examination.lean

A push looks first and writes afterwards.

A compiler makes its checks one after the other, between them reads values
into the scratch space, and takes notes on the way.  Seen as a whole, this
is an examination of the block, which changes nothing and gives what the
block says or its first fault (`examine`), and behind it a note and the
placing of what was said.  `respond` is a push put together in this way, and
`next_push` says that it is the push.

An examination looks at the policy and at the attribute table and at nothing
else of the compiler (`examine_congr`).  Statements that compare two
compilers start from there.
-/
import MeshLayout.Proofs.Push

namespace MeshLayout

namespace Logged

variable {ε α β : Type}

theorem pure_bind (a : α) (next : α → Logged ε β) : (pure a >>= next) = next a := rfl

theorem liftM_ok_bind (a : α) (next : α → Logged ε β) :
    ((liftM (Except.ok a : Except ε α) : Logged ε α) >>= next) = next a := rfl

theorem result_bind_of_ok {first : Logged ε α} {next : α → Logged ε β} {a : α}
    (h : first.result = .ok a) : (first >>= next).result = (next a).result := by
  obtain ⟨notes, result⟩ := first
  subst h
  rfl

theorem result_bind_of_error {first : Logged ε α} {next : α → Logged ε β} {e : ε}
    (h : first.result = .error e) : (first >>= next).result = .error e := by
  obtain ⟨notes, result⟩ := first
  subst h
  rfl

theorem require_of_true {condition : Bool} (h : condition = true) {e : ε} :
    (require condition e).result = .ok () := by
  rw [require, if_pos h, pure_eq]

/-- The same notes have been taken, and both have failed alike or have values that go together. -/
inductive Alike (together : α → β → Prop) : Logged ε α → Logged ε β → Prop
  | error (notes : List Note) (e : ε) : Alike together ⟨notes, .error e⟩ ⟨notes, .error e⟩
  | ok (notes : List Note) {a : α} {b : β} (h : together a b) :
      Alike together ⟨notes, .ok a⟩ ⟨notes, .ok b⟩

/-- What follows a common beginning has to be alike only for the values that it gives. -/
theorem Alike.bind_left {γ δ : Type} {together : γ → δ → Prop} {x : Logged ε α}
    {f : α → Logged ε γ} {g : α → Logged ε δ}
    (h : ∀ a, x.result = .ok a → Alike together (f a) (g a)) :
    Alike together (x >>= f) (x >>= g) := by
  rcases x with ⟨notes, e | a⟩
  · exact .error notes e
  · have hlast := h a rfl
    rw [ok_bind, ok_bind]
    generalize f a = last, g a = last' at hlast ⊢
    cases hlast with
    | error more e => exact .error (notes ++ more) e
    | ok more htogether => exact .ok (notes ++ more) htogether

end Logged

/-! ### Outcomes of steps -/

/-- Steps with the same outcome leave compilers that go together, if they succeed. -/
theorem Stepped.of_alike {together : Compiler → Compiler → Prop} {first second : Stepped Unit}
    (h : Logged.Alike together first.next second.next) :
    first.outcome = second.outcome ∧
      ∀ u, first.outcome.result = .ok u → together first.compiler second.compiler := by
  rcases first with ⟨c, notes, e | u⟩
  · rcases second with ⟨d, notes', e' | u'⟩
    · cases h
      exact ⟨rfl, fun _ hok => by cases hok⟩
    · cases h
  · rcases second with ⟨d, notes', e' | u'⟩
    · cases h
    · cases h with
      | ok _ htogether => exact ⟨rfl, fun _ _ => htogether⟩

namespace Step

variable {α β : Type} {c : Compiler}

/-- What follows a check is a matter of the outcome alone. -/
theorem outcome_check_bind (outcome : Logged Error α) (next : α → Step β) :
    ((check outcome >>= next).run c).outcome = outcome >>= fun a => ((next a).run c).outcome := by
  have unfolded : (check outcome >>= next).run c = bind (check outcome) next c := rfl
  rw [unfolded, bind, run_check]
  rcases outcome with ⟨notes, e | a⟩
  · rfl
  · rfl

theorem outcome_liftM_bind (outcome : Except Error α) (next : α → Step β) :
    ((liftM outcome >>= next : Step β).run c).outcome =
      (liftM outcome : Logged Error α) >>= fun a => ((next a).run c).outcome :=
  outcome_check_bind ⟨[], outcome⟩ next

theorem outcome_liftM_logged_bind (outcome : Logged Error α) (next : α → Step β) :
    ((liftM outcome >>= next : Step β).run c).outcome =
      outcome >>= fun a => ((next a).run c).outcome :=
  outcome_check_bind outcome next

theorem outcome_current_bind (next : Compiler → Step β) :
    ((current >>= next).run c).outcome = ((next c).run c).outcome := by
  have unfolded : (current >>= next).run c = bind current next c := rfl
  rw [unfolded, bind, run_current]
  rfl

theorem outcome_change_bind (f : Compiler → Compiler) (next : Unit → Step β) :
    ((change f >>= next).run c).outcome = ((next ()).run (f c)).outcome := by
  have unfolded : (change f >>= next).run c = bind (change f) next c := rfl
  rw [unfolded, bind, run_change]
  rfl

/-- The values of a text replace whatever is in the scratch space. -/
theorem outcome_encode_bind (k : Scalar) (text : String) (next : Nat → Step β) :
    ((Compiler.encode k text >>= next).run c).outcome =
      (liftM (k.readText text) : Logged Error (List k.Word)) >>= fun values =>
        ((next values.length).run { c with scratch := k.bytesOf values }).outcome := by
  have filled : (Compiler.encode k text).run c =
      ⟨{ c with scratch := (k.encodeInto text []).2 }, ⟨[], (k.encodeInto text []).1⟩⟩ := rfl
  have unfolded : (Compiler.encode k text >>= next).run c =
      bind (Compiler.encode k text) next c := rfl
  rw [unfolded, bind, filled, Scalar.encodeInto_eq]
  rcases k.readText text with e | values
  · rfl
  · rfl

end Step

namespace Compiler

variable {c d : Compiler}

/-! ### Examining a block -/

/-- What a block says, or its first fault. -/
def examine (c : Compiler) : Block → Logged Error Content
  | .attribute slot typeName components text => do
    let type ← attributeType typeName
    Logged.require (components ≠ 0) (.zeroComponents slot)
    review c.options (c.duplicateSlot? slot)
    let values ← type.scalar.readText text
    Logged.require (values.length ≠ 0) (.emptyBlock .attribute)
    review c.options (partialVertex? slot components values.length)
    review c.options (c.vertexCount? slot (values.length / components.toNat))
    return .attribute slot components type values
  | .indices primitiveName typeName text => do
    let mode ← primitive primitiveName
    let type ← indexType typeName
    let values ← type.scalar.readText text
    Logged.require (values.length ≠ 0) (.emptyBlock .indices)
    return .indices mode type values
  | .arrays primitiveName first count => do
    let mode ← primitive primitiveName
    return .arrays mode first count

/-- The note that goes with the placing of a content. -/
def announce (c : Compiler) : Content → Note
  | .attribute slot components type values =>
    .addedAttribute ⟨slot, components, type, c.vertices.length, values.length * type.size⟩
  | .indices mode type values =>
    .addedCommand (.indexed mode c.indices.length values.length type)
  | .arrays mode first count => .addedCommand (.direct mode first count)

/-- The policy and the attribute table decide about a block. -/
theorem examine_congr (hoptions : c.options = d.options) (hattributes : c.attributes = d.attributes)
    (block : Block) : c.examine block = d.examine block := by
  match block with
  | .attribute slot .. =>
    have hslot : c.duplicateSlot? slot = d.duplicateSlot? slot := by
      rw [duplicateSlot?, duplicateSlot?, hattributes]
    have hcount : ∀ vertices, c.vertexCount? slot vertices = d.vertexCount? slot vertices := by
      intro vertices
      rw [vertexCount?, vertexCount?, hattributes]
    simp only [examine, hoptions, hslot, hcount]
  | .indices .. | .arrays .. => rfl

/-- **A push of a block examines it**; what comes behind cannot fail. -/
theorem outcome_pushBlock (block : Block) :
    ((pushBlock block).run c).outcome =
      c.examine block >>= fun content => Logged.note (c.announce content) := by
  match block with
  | .attribute slot typeName components text =>
    simp only [pushBlock, pushAttribute, appendAttribute, Step.require, Step.note,
      Step.outcome_liftM_bind, Step.outcome_liftM_logged_bind, Step.outcome_check_bind,
      Step.outcome_current_bind, Step.outcome_encode_bind, Step.outcome_change_bind,
      Scalar.length_bytesOf]
    simp only [examine, Logged.bind_assoc, Logged.pure_bind]
    rfl
  | .indices primitiveName typeName text =>
    simp only [pushBlock, pushIndices, appendCommand, Step.require, Step.note,
      Step.outcome_liftM_bind, Step.outcome_check_bind, Step.outcome_current_bind,
      Step.outcome_encode_bind, Step.outcome_change_bind]
    simp only [examine, Logged.bind_assoc, Logged.pure_bind]
    rfl
  | .arrays primitiveName first count =>
    simp only [pushBlock, pushArrays, appendCommand, Step.note, Step.outcome_liftM_bind,
      Step.outcome_check_bind]
    simp only [examine, Logged.bind_assoc, Logged.pure_bind]
    rfl

/-- A block that denotes something passes every check if the policy admits what it denotes. -/
theorem examine_of_denotes {block : Block} {content : Content} (hdenotes : block.Denotes content)
    (hadmits : c.Admits content) : (c.examine block).result = .ok content := by
  cases hdenotes with
  | @ofAttribute slot components typeName text type values hname hcomponents hread hvalues =>
    obtain ⟨hslot, hwhole, huniform⟩ := permits_iff.1 hadmits
    simp only [examine, Logged.bind_eq_ok_iff]
    exact ⟨type, attributeType_eq_ok_iff.2 hname, (), Logged.require_of_true (by simpa), (), hslot,
      values, hread, (), Logged.require_of_true (by simpa), (), hwhole, (), huniform, rfl⟩
  | @ofIndices _ _ text mode type values hmode hname hread hvalues =>
    simp only [examine, Logged.bind_eq_ok_iff]
    exact ⟨mode, primitive_eq_ok_iff.2 hmode, type, indexType_eq_ok_iff.2 hname, values, hread, (),
      Logged.require_of_true (by simpa), rfl⟩
  | @ofArrays _ mode _ _ hmode =>
    simp only [examine, Logged.bind_eq_ok_iff]
    exact ⟨mode, primitive_eq_ok_iff.2 hmode, rfl⟩

/-- What is examined without fault is what the block denotes. -/
theorem examine_eq_ok_iff {block : Block} {content : Content} :
    (c.examine block).result = .ok content ↔ block.Denotes content ∧ c.Admits content := by
  constructor
  · intro hexamined
    have hyields : (pushBlock block).Yields c () ((pushBlock block).run c).compiler := by
      refine ⟨?_, rfl⟩
      rw [outcome_pushBlock, Logged.bind_eq_ok_iff]
      exact ⟨content, hexamined, rfl⟩
    obtain ⟨content', hdenotes, hadmits, -⟩ := pushBlock_yields_iff.1 hyields
    rw [examine_of_denotes hdenotes hadmits] at hexamined
    cases hexamined
    exact ⟨hdenotes, hadmits⟩
  · rintro ⟨hdenotes, hadmits⟩
    exact examine_of_denotes hdenotes hadmits

/-! ### Pushing an event -/

/-- A push, put together from an examination and what is done after it. -/
def respond (c : Compiler) (event : Event) : Logged Error Compiler := do
  let stage ← c.stage.after event
  match event with
  | .block block => do
    let content ← c.examine block
    Logged.note (c.announce content)
    return c.place content
  | .enterMesh | .exitMesh => return { c with stage := stage }

theorem next_pushBlock (block : Block) :
    ((pushBlock block).run c).next = do
      let content ← c.examine block
      Logged.note (c.announce content)
      return c.place content := by
  rcases hexamined : c.examine block with ⟨notes, e | content⟩
  · rw [Stepped.next, outcome_pushBlock, hexamined]
    rfl
  · have hresult : (c.examine block).result = .ok content := by rw [hexamined]
    obtain ⟨hdenotes, hadmits⟩ := examine_eq_ok_iff.1 hresult
    have hyields : (pushBlock block).Yields c () (c.place content) :=
      pushBlock_yields_iff.2 ⟨content, hdenotes, hadmits, rfl⟩
    rw [Stepped.next, outcome_pushBlock, hexamined, hyields.2]
    rfl

theorem next_push (event : Event) : (c.push event).next = c.respond event := by
  rcases hafter : c.stage.after event with e | stage
  · rw [push_of_disorder hafter, respond, hafter]
    rfl
  · rcases hstage : c.stage with - | - | - <;> rcases event with - | block | - <;>
      rw [hstage] at hafter <;> cases hafter
    · rw [push, respond, hstage]
      rfl
    · rw [push, respond, hstage]
      exact next_pushBlock block
    · rw [push, respond, hstage]
      rfl

end Compiler

end MeshLayout
