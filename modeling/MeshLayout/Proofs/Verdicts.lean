/-
MeshLayout/Proofs/Verdicts.lean

The verdict on an attribute block.

Seven things can be wrong with an attribute block, and any of them together
(`Respect`).  Each is a matter of the block and of the attribute table, and can be
told without regard to the others (`fault?`).  A policy passes over some of
them (`Options.ends`).

A compiler goes through them in order, and stops at the first that its policy
does not pass over.  This is `judge`: it takes lists apart where they are put
together (`judge_append`), so the checks of an examination, each of which is
the judgement on one fault, make up the judgement on all of them
(`examine_attribute`).  Main result: `attribute_verdict`.
-/
import MeshLayout.Proofs.Examination

namespace MeshLayout

/-! ### Judging faults -/

/-- The error ends a compilation under the policy. -/
def Options.ends (options : Options) : Error → Bool
  | .violation v => options.enforces v.check
  | _ => true

namespace Compiler

variable {options : Options}

/-- Goes through faults up to the first that the policy does not pass over. -/
def judge (options : Options) : List Error → Logged Error Unit
  | [] => pure ()
  | .violation v :: rest => do
    review options (some v)
    judge options rest
  | e :: _ => Logged.fail e

theorem judge_none : judge options none.toList = pure () := rfl

theorem judge_cons_of_ends {e : Error} (h : options.ends e = true) (rest : List Error) :
    judge options (e :: rest) = Logged.fail e := by
  cases e with
  | violation v =>
    have henforced : options.enforces v.check = true := h
    rw [judge, review, if_pos henforced]
    rfl
  | _ => rfl

/-- What does not end a compilation is a violation, and a note is taken of it. -/
theorem judge_cons_of_not_ends {e : Error} (h : options.ends e = false) (rest : List Error) :
    ∃ v, e = .violation v ∧
      judge options (e :: rest) = Logged.note (.passedOver v) >>= fun _ => judge options rest := by
  cases e with
  | violation v =>
    have henforced : ¬ options.enforces v.check = true := ne_true_of_eq_false h
    refine ⟨v, rfl, ?_⟩
    rw [judge, review, if_neg henforced]
  | _ => cases h

theorem judge_append (first second : List Error) :
    judge options (first ++ second) = judge options first >>= fun _ => judge options second := by
  induction first with
  | nil => rfl
  | cons e rest ih =>
    rw [List.cons_append]
    rcases h : options.ends e with - | -
    · obtain ⟨v, rfl, hjudge⟩ := judge_cons_of_not_ends h (rest ++ second)
      obtain ⟨v', hv, hjudge'⟩ := judge_cons_of_not_ends h rest
      cases hv
      rw [hjudge, hjudge', ih, Logged.bind_assoc]
    · rw [judge_cons_of_ends h, judge_cons_of_ends h]
      rfl

theorem judge_filterMap_cons {α : Type} (fault? : α → Option Error) (a : α) (rest : List α) :
    judge options ((a :: rest).filterMap fault?) =
      judge options (fault? a).toList >>= fun _ => judge options (rest.filterMap fault?) := by
  rw [← judge_append, List.filterMap_cons]
  rcases fault? a with - | e
  · rfl
  · rfl

/-- **A judgement** fails with the first fault that ends a compilation.  It takes a note of each
violation that stands before it, in order. -/
theorem judge_verdict (options : Options) (faults : List Error) :
    ((judge options faults).result = .ok () ↔ faults.find? options.ends = none) ∧
      (∀ e, (judge options faults).result = .error e ↔ faults.find? options.ends = some e) ∧
      ∃ passed : List Violation,
        passed.map .violation = faults.takeWhile (fun e => !options.ends e) ∧
          (judge options faults).notes = passed.map .passedOver := by
  induction faults with
  | nil => simp [judge]
  | cons e rest ih =>
    rcases h : options.ends e with - | -
    · obtain ⟨v, rfl, hjudge⟩ := judge_cons_of_not_ends h rest
      obtain ⟨hok, herror, passed, hpassed, hnotes⟩ := ih
      rw [hjudge, List.find?_cons_of_neg (by simp [h]), List.takeWhile_cons_of_pos (by simp [h])]
      exact ⟨hok, herror, v :: passed, congrArg _ hpassed, congrArg _ hnotes⟩
    · rw [judge_cons_of_ends h, List.find?_cons_of_pos h, List.takeWhile_cons_of_neg (by simp [h])]
      exact ⟨by simp [Logged.fail], by simp [Logged.fail], [], rfl, rfl⟩

end Compiler

/-! ### Faults of an attribute block -/

/-- What is looked at in an attribute block. -/
inductive Respect where
  /-- its type is known -/
  | type
  /-- it has components -/
  | components
  /-- its slot is new -/
  | slot
  /-- its tokens are values -/
  | tokens
  /-- it has values -/
  | values
  /-- its vertices are whole -/
  | whole
  /-- it has as many vertices as the first -/
  | uniform

/-- In which order. -/
def Respect.all : List Respect := [type, components, slot, tokens, values, whole, uniform]

theorem Respect.mem_all (respect : Respect) : respect ∈ Respect.all := by
  cases respect <;> simp [Respect.all]

namespace Compiler

variable {c : Compiler} {options : Options} {slot components : UInt32} {typeName text : String}

/-- What is wrong with an attribute block in one respect, whatever is wrong with it in others. -/
def fault? (c : Compiler) (slot : UInt32) (typeName : String) (components : UInt32)
    (text : String) : Respect → Option Error
  | .type =>
    if (AttributeType.ofName? typeName).isSome then none else some (.unsupportedType typeName)
  | .components => if components = 0 then some (.zeroComponents slot) else none
  | .slot =>
    if ∃ a ∈ c.attributes, a.slot = slot then some (.violation (.duplicateSlot slot)) else none
  | .tokens =>
    (AttributeType.ofName? typeName).bind fun type =>
      ((words text).find? fun token => (type.scalar.read? token.toList).isNone).map fun token =>
        .malformedNumber token type.scalar
  | .values => if words text = [] then some (.emptyBlock .attribute) else none
  | .whole =>
    if components.toNat ∣ (words text).length then none
    else some (.violation (.partialVertex slot components (words text).length))
  | .uniform =>
    c.attributes.head?.bind fun first =>
      if first.vertexCount = (words text).length / components.toNat then none
      else some (.violation (.vertexCount slot first.vertexCount
        ((words text).length / components.toNat)))

/-- All that is wrong with an attribute block. -/
def faults (c : Compiler) (slot : UInt32) (typeName : String) (components : UInt32)
    (text : String) : List Error :=
  Respect.all.filterMap (c.fault? slot typeName components text)

/-! ### Each check is a judgement -/

theorem judge_violation (violation : Option Violation) :
    judge options (violation.map .violation).toList = review options violation := by
  rcases violation with - | v
  · rfl
  · show (review options (some v) >>= fun _ => pure ()) = review options (some v)
    rcases h : review options (some v) with ⟨notes, e | u⟩
    · rfl
    · simp

theorem judge_components :
    judge options (c.fault? slot typeName components text .components).toList =
      Logged.require (components ≠ 0) (.zeroComponents slot) := by
  by_cases h : components = 0
  · simp [fault?, h, judge, Logged.require]
  · simp [fault?, h, judge, Logged.require]

theorem fault?_slot :
    c.fault? slot typeName components text .slot = (c.duplicateSlot? slot).map .violation := by
  by_cases h : ∃ a ∈ c.attributes, a.slot = slot
  · simp [fault?, duplicateSlot?, h]
  · simp [fault?, duplicateSlot?, h]

theorem judge_values :
    judge options (c.fault? slot typeName components text .values).toList =
      Logged.require ((words text).length ≠ 0) (.emptyBlock .attribute) := by
  by_cases h : words text = []
  · simp [fault?, h, judge, Logged.require]
  · simp [fault?, h, judge, Logged.require]

theorem fault?_whole :
    c.fault? slot typeName components text .whole =
      (partialVertex? slot components (words text).length).map .violation := by
  by_cases h : components.toNat ∣ (words text).length
  · rw [fault?, if_pos h, partialVertex?, if_pos (Nat.dvd_iff_mod_eq_zero.1 h)]
    rfl
  · rw [fault?, if_neg h, partialVertex?, if_neg (mt Nat.dvd_iff_mod_eq_zero.2 h)]
    rfl

theorem fault?_uniform :
    c.fault? slot typeName components text .uniform =
      (c.vertexCount? slot ((words text).length / components.toNat)).map .violation := by
  rw [fault?, vertexCount?]
  rcases c.attributes with - | ⟨first, rest⟩
  · rfl
  · simp only [List.head?_cons, Option.bind_some]
    split <;> rfl

variable {type : AttributeType}

theorem fault?_tokens_of_error (htype : AttributeType.ofName? typeName = some type) {e : Error}
    (h : type.scalar.readText text = .error e) :
    c.fault? slot typeName components text .tokens = some e := by
  obtain ⟨token, hfind, rfl⟩ := Scalar.parseAll_eq_error_iff.1 h
  rw [fault?, htype, Option.bind_some, hfind]
  rfl

theorem fault?_tokens_of_ok (htype : AttributeType.ofName? typeName = some type)
    {values : List type.scalar.Word} (h : type.scalar.readText text = .ok values) :
    c.fault? slot typeName components text .tokens = none := by
  rw [fault?, htype, Option.bind_some, Option.map_eq_none_iff]
  rcases hfind : (words text).find? _ with - | token
  · rfl
  · have herror := Scalar.parseAll_eq_error_iff.2 ⟨token, hfind, rfl⟩
    cases h.symm.trans herror

/-- **An examination is a judgement** on all faults of the block; then the block says what its type
and its tokens say. -/
theorem examine_attribute :
    c.examine (.attribute slot typeName components text) =
      judge c.options (c.faults slot typeName components text) >>= fun _ =>
        (liftM (attributeType typeName) : Logged Error AttributeType) >>= fun type =>
          (liftM (type.scalar.readText text) : Logged Error (List type.scalar.Word)) >>=
            fun values => pure (.attribute slot components type values) := by
  rw [faults, Respect.all]
  simp only [judge_filterMap_cons, List.filterMap_nil]
  rw [examine, attributeType]
  rcases htype : AttributeType.ofName? typeName with - | type
  · -- nothing else is looked at
    simp only [fault?, htype, Option.isSome_none, Bool.false_eq_true, if_false]
    rfl
  · have hknown : c.fault? slot typeName components text .type = none := by
      rw [fault?, htype]
      rfl
    simp only [hknown, judge_none, judge_components, judge_values, fault?_slot, fault?_whole,
      fault?_uniform, judge_violation, judge, Logged.bind_assoc, Logged.pure_bind,
      Logged.liftM_ok_bind]
    refine Logged.bind_congr fun _ _ => Logged.bind_congr fun _ _ => ?_
    rcases hread : type.scalar.readText text with e | values
    · -- behind the token nothing is looked at
      rw [fault?_tokens_of_error htype hread]
      obtain ⟨token, -, rfl⟩ := Scalar.parseAll_eq_error_iff.1 hread
      rfl
    · rw [fault?_tokens_of_ok htype hread, ← Scalar.length_of_readText hread]
      rfl

/-! ### Verdicts -/

theorem mem_faults {respect : Respect} {e : Error}
    (h : c.fault? slot typeName components text respect = some e) :
    e ∈ c.faults slot typeName components text :=
  List.mem_filterMap.2 ⟨respect, respect.mem_all, h⟩

/-- A block without a fault that ends the compilation has a type, and its tokens are values. -/
theorem exists_values_of_find?_eq_none
    (h : (c.faults slot typeName components text).find? c.options.ends = none) :
    ∃ (type : AttributeType) (values : List type.scalar.Word),
      attributeType typeName = .ok type ∧ type.scalar.readText text = .ok values := by
  have hpasses := List.find?_eq_none.1 h
  rcases htype : AttributeType.ofName? typeName with - | type
  · have hfault : c.fault? slot typeName components text .type =
        some (.unsupportedType typeName) := by
      rw [fault?, htype]
      rfl
    exact absurd rfl (hpasses _ (mem_faults hfault))
  · rcases hread : type.scalar.readText text with e | values
    · have hfault : c.fault? slot typeName components text .tokens = some e :=
        fault?_tokens_of_error htype hread
      obtain ⟨token, -, rfl⟩ := Scalar.parseAll_eq_error_iff.1 hread
      exact absurd rfl (hpasses _ (mem_faults hfault))
    · refine ⟨type, values, ?_, hread⟩
      rw [attributeType, htype]

theorem examine_of_judged {notes : List Note} {u : Unit}
    (h : judge c.options (c.faults slot typeName components text) = ⟨notes, .ok u⟩) :
    ∃ (type : AttributeType) (values : List type.scalar.Word),
      type.name = typeName ∧ (words text).map type.scalar.parse = values.map .ok ∧
        c.examine (.attribute slot typeName components text) =
          ⟨notes, .ok (.attribute slot components type values)⟩ := by
  obtain ⟨hok, -⟩ := judge_verdict c.options (c.faults slot typeName components text)
  rw [h] at hok
  obtain ⟨type, values, htype, hread⟩ := exists_values_of_find?_eq_none (hok.1 rfl)
  refine ⟨type, values, attributeType_eq_ok_iff.1 htype, Scalar.readText_eq_ok_iff.1 hread, ?_⟩
  rw [examine_attribute, h, htype, Logged.ok_bind, Logged.liftM_ok_bind, hread,
    Logged.liftM_ok_bind, Logged.pure_eq, List.append_nil]

theorem outcome_push_block (hstage : c.stage = .mesh) (block : Block) :
    (c.push (.block block)).outcome =
      c.examine block >>= fun content => Logged.note (c.announce content) := by
  have hpush : c.push (.block block) = (pushBlock block).run c := by
    rw [push, hstage]
    rfl
  rw [hpush, outcome_pushBlock]

/-- A block in which nothing is found is placed. -/
theorem push_of_examined {block : Block} {notes : List Note} {content : Content}
    (hstage : c.stage = .mesh) (h : c.examine block = ⟨notes, .ok content⟩) :
    c.push (.block block) = ⟨c.place content, ⟨notes ++ [c.announce content], .ok ()⟩⟩ := by
  have houtcome : (c.push (.block block)).outcome = ⟨notes ++ [c.announce content], .ok ()⟩ := by
    rw [outcome_push_block hstage, h]
    rfl
  obtain ⟨hdenotes, hadmits⟩ := examine_eq_ok_iff.1 (congrArg Logged.result h)
  have hnext := push_next_eq_ok_iff.2 (.block hstage hdenotes hadmits)
  rw [Stepped.next, houtcome] at hnext
  rcases hpushed : c.push (.block block) with ⟨d, outcome⟩
  rw [hpushed] at houtcome hnext
  cases houtcome
  cases hnext
  rfl

/-- **The verdict on an attribute block.**  A push gives the first fault of the block that the
policy does not pass over, in the order of `Respect.all`, and is done with the block if there is
none.  It takes a note of each fault that it has passed over on the way, in order.  A block that is
turned down leaves nothing but values in the scratch space; one that is taken adds one attribute,
and the bytes of its values to the vertex buffer. -/
theorem attribute_verdict (hstage : c.stage = .mesh) (slot components : UInt32)
    (typeName text : String) :
    let pushed := c.push (.block (.attribute slot typeName components text))
    let faults := c.faults slot typeName components text
    (pushed.outcome.result = .ok () ↔ faults.find? c.options.ends = none) ∧
      (∀ e, pushed.outcome.result = .error e ↔ faults.find? c.options.ends = some e) ∧
      ∃ passed : List Violation,
        passed.map .violation = faults.takeWhile (fun e => !c.options.ends e) ∧
        (∀ e, pushed.outcome.result = .error e →
          pushed.outcome.notes = passed.map .passedOver ∧
            ∃ scratch, pushed.compiler = { c with scratch := scratch }) ∧
        (pushed.outcome.result = .ok () → ∃ (type : AttributeType) (values : List type.scalar.Word),
          type.name = typeName ∧ (words text).map type.scalar.parse = values.map .ok ∧
            pushed.outcome.notes = passed.map .passedOver ++ [.addedAttribute
              ⟨slot, components, type, c.vertices.length, values.length * type.size⟩] ∧
            pushed.compiler = { c with
              attributes := c.attributes ++
                [⟨slot, components, type, c.vertices.length, values.length * type.size⟩]
              vertices := c.vertices ++ type.scalar.bytesOf values
              scratch := type.scalar.bytesOf values }) := by
  intro pushed faults
  obtain ⟨hok, herror, passed, hpassed, hnotes⟩ := judge_verdict c.options faults
  rcases hjudged : judge c.options faults with ⟨notes, e | u⟩
  · rw [hjudged] at hok herror hnotes
    have hpushed : pushed.outcome = ⟨notes, .error e⟩ := by
      rw [outcome_push_block hstage, examine_attribute, hjudged]
      rfl
    have hfailed : pushed.outcome.result = .error e := by rw [hpushed]
    rw [hpushed]
    refine ⟨hok, herror, passed, hpassed, fun _ _ => ⟨hnotes, push_of_error hfailed⟩, ?_⟩
    intro hresult
    cases hresult
  · rw [hjudged] at hok herror hnotes
    obtain ⟨type, values, hname, hparse, hexamined⟩ := examine_of_judged hjudged
    have hpushed : pushed = _ := push_of_examined hstage hexamined
    rw [hpushed]
    refine ⟨hok, herror, passed, hpassed, ?_, ?_⟩
    · intro e hresult
      cases hresult
    · intro _
      exact ⟨type, values, hname, hparse, congrArg (· ++ _) hnotes, rfl⟩

end Compiler

/-! ### A block with three faults -/

/-- A compiler that has taken one attribute, of two vertices. -/
def afterTwoVertices : Compiler :=
  ((((Compiler.start .standard).push .enterMesh).compiler).push
    (.block (.attribute 0 "ubyte" 1 "7 8"))).compiler

/-- The slot is there already, which is passed over; then there are three values for two
components, which is not; that there is one vertex only is not found. -/
theorem verdict_afterTwoVertices :
    afterTwoVertices.stage = .mesh ∧
      (afterTwoVertices.push (.block (.attribute 0 "ubyte" 2 "1 2 3"))).outcome.result =
        .error (.violation (.partialVertex 0 2 3)) := by
  have hfaults : afterTwoVertices.faults 0 "ubyte" 2 "1 2 3" =
      [.violation (.duplicateSlot 0), .violation (.partialVertex 0 2 3),
        .violation (.vertexCount 0 2 1)] := by
    rfl
  have hverdict := Compiler.attribute_verdict (c := afterTwoVertices) rfl 0 2 "ubyte" "1 2 3"
  refine ⟨rfl, (hverdict.2.1 _).2 ?_⟩
  rw [hfaults]
  rfl

end MeshLayout
