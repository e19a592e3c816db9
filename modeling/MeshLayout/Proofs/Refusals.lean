/-
MeshLayout/Proofs/Refusals.lean

A push that is refused might as well not have been made.

All that a failed push leaves behind is in the scratch space, and no later
push looks there before it has cleared it.  Two compilers that agree on
everything else (`Agrees`) therefore answer every push alike and still agree
after it (`Agrees.push`); this carries over to runs in which any pushes fail,
and to the mesh at the end.  Main result: `refusals_invisible`, which leaves
the failed pushes out of a run and finds that nothing has changed.
-/
import MeshLayout.Proofs.Examination
import MeshLayout.Proofs.Tiling

namespace MeshLayout

namespace Compiler

variable {c d : Compiler}

/-! ### All but the scratch space -/

/-- The compilers are the same, up to what is left in the scratch space. -/
structure Agrees (c d : Compiler) : Prop where
  options : c.options = d.options
  stage : c.stage = d.stage
  attributes : c.attributes = d.attributes
  commands : c.commands = d.commands
  vertices : c.vertices = d.vertices
  indices : c.indices = d.indices

theorem agrees_with_scratch (c : Compiler) (scratch : List UInt8) :
    Agrees { c with scratch := scratch } c := ⟨rfl, rfl, rfl, rfl, rfl, rfl⟩

namespace Agrees

theorem refl (c : Compiler) : c.Agrees c := c.agrees_with_scratch c.scratch

theorem symm (h : c.Agrees d) : d.Agrees c :=
  ⟨h.options.symm, h.stage.symm, h.attributes.symm, h.commands.symm, h.vertices.symm,
    h.indices.symm⟩

theorem trans {e : Compiler} (h : c.Agrees d) (h' : d.Agrees e) : c.Agrees e :=
  ⟨h.options.trans h'.options, h.stage.trans h'.stage, h.attributes.trans h'.attributes,
    h.commands.trans h'.commands, h.vertices.trans h'.vertices, h.indices.trans h'.indices⟩

/-- Compilers that agree differ in nothing but the scratch space. -/
theorem eq_with_scratch (h : c.Agrees d) : c = { d with scratch := c.scratch } := by
  obtain ⟨hoptions, hstage, hattributes, hcommands, hvertices, hindices⟩ := h
  rw [← hoptions, ← hstage, ← hattributes, ← hcommands, ← hvertices, ← hindices]

theorem finish (h : c.Agrees d) : c.finish = d.finish := by
  rw [h.eq_with_scratch]
  rfl

/-! ### One push -/

theorem place (h : c.Agrees d) (content : Content) :
    (c.place content).Agrees (d.place content) := by
  rw [h.eq_with_scratch]
  cases content <;> exact ⟨rfl, rfl, rfl, rfl, rfl, rfl⟩

theorem announce (h : c.Agrees d) (content : Content) :
    c.announce content = d.announce content := by
  rw [h.eq_with_scratch]
  cases content <;> rfl

/-- The scratch space has no part in what a compiler makes of an event. -/
theorem respond (h : c.Agrees d) (event : Event) :
    Logged.Alike Agrees (c.respond event) (d.respond event) := by
  unfold Compiler.respond
  rw [h.stage]
  apply Logged.Alike.bind_left
  intro stage _
  match event with
  | .block block =>
    show Logged.Alike Agrees (c.examine block >>= _) (d.examine block >>= _)
    rw [examine_congr h.options h.attributes block]
    apply Logged.Alike.bind_left
    intro content _
    rw [h.announce content]
    exact .ok [d.announce content] (h.place content)
  | .enterMesh | .exitMesh =>
    exact .ok [] ⟨h.options, rfl, h.attributes, h.commands, h.vertices, h.indices⟩

end Agrees

/-- A failed push leaves all but the scratch space as it was. -/
theorem agrees_of_refused {event : Event} {e : Error}
    (h : (c.push event).outcome.result = .error e) : (c.push event).compiler.Agrees c := by
  obtain ⟨scratch, hscratch⟩ := push_of_error h
  rw [hscratch]
  exact c.agrees_with_scratch scratch

/-- Compilers that go together answer alike and go together again, if they do so as long as nothing
fails and if it does not matter what a failure leaves. -/
theorem push_of_alike {together : Compiler → Compiler → Prop} {event : Event}
    (halike : Logged.Alike together (c.respond event) (d.respond event))
    (hrefused : ∀ c' d', c'.Agrees c → d'.Agrees d → together c' d') :
    (c.push event).outcome = (d.push event).outcome ∧
      together (c.push event).compiler (d.push event).compiler := by
  rw [← next_push, ← next_push] at halike
  obtain ⟨houtcome, hok⟩ := Stepped.of_alike halike
  refine ⟨houtcome, ?_⟩
  rcases hresult : (c.push event).outcome.result with e | u
  · exact hrefused _ _ (agrees_of_refused hresult) (agrees_of_refused (houtcome ▸ hresult))
  · exact hok u hresult

/-- **Compilers that agree answer alike and agree again.** -/
theorem Agrees.push (h : c.Agrees d) (event : Event) :
    (c.push event).outcome = (d.push event).outcome ∧
      (c.push event).compiler.Agrees (d.push event).compiler := by
  apply push_of_alike (h.respond event)
  -- what two failures leave agrees with what was there before
  intro c' d' hc hd
  exact hc.trans (h.trans hd.symm)

/-! ### Runs of pushes -/

/-- What comes of each push when every event is pushed. -/
def outcomes (c : Compiler) : List Event → List (Logged Error Unit)
  | [] => []
  | event :: rest => (c.push event).outcome :: (c.push event).compiler.outcomes rest

/-- The events that are not refused when every event is pushed. -/
def taken (c : Compiler) : List Event → List Event
  | [] => []
  | event :: rest =>
    match (c.push event).outcome.result with
    | .ok _ => event :: (c.push event).compiler.taken rest
    | .error _ => (c.push event).compiler.taken rest

theorem Agrees.outcomes (h : c.Agrees d) (events : List Event) :
    c.outcomes events = d.outcomes events := by
  induction events generalizing c d with
  | nil => rfl
  | cons event rest ih =>
    obtain ⟨houtcome, hagrees⟩ := h.push event
    rw [Compiler.outcomes, Compiler.outcomes, houtcome, ih hagrees]

theorem Agrees.pushEach (h : c.Agrees d) (events : List Event) :
    (c.pushEach events).Agrees (d.pushEach events) := by
  induction events generalizing c d with
  | nil => exact h
  | cons event rest ih => exact ih (h.push event).2

/-- A run without the pushes that fail in it comes to the same. -/
theorem Agrees.pushEach_taken (h : c.Agrees d) (events : List Event) :
    (d.pushEach (c.taken events)).Agrees (c.pushEach events) := by
  induction events generalizing c d with
  | nil => exact h.symm
  | cons event rest ih =>
    rcases hresult : (c.push event).outcome.result with e | u
    · -- the event is left out: what the push has left still agrees
      have hrefused := agrees_of_refused hresult
      rw [taken, hresult]
      exact ih (hrefused.trans h)
    · rw [taken, hresult]
      exact ih (h.push event).2

/-- The pushes that are left all succeed, with the outcomes that they had among the others. -/
theorem Agrees.outcomes_taken (h : c.Agrees d) (events : List Event) :
    d.outcomes (c.taken events) =
      (c.outcomes events).filter fun outcome => outcome.result.isOk := by
  induction events generalizing c d with
  | nil => rfl
  | cons event rest ih =>
    rw [taken, Compiler.outcomes]
    rcases hresult : (c.push event).outcome.result with e | u
    · have hrefused := agrees_of_refused hresult
      rw [List.filter_cons_of_neg (by rw [hresult]; exact Bool.false_ne_true)]
      exact ih (hrefused.trans h)
    · obtain ⟨houtcome, hagrees⟩ := h.push event
      rw [List.filter_cons_of_pos (by rw [hresult]; rfl)]
      show (d.push event).outcome :: (d.push event).compiler.outcomes _ = _
      rw [← houtcome, ih hagrees]

/-- **A refused push is invisible.**  It leaves everything but the scratch space as it was.  A run
without its refused pushes leads to the same answers to whatever is pushed later and to the same
end, and so does a run that starts with other bytes in the scratch space. -/
theorem refusals_invisible (c : Compiler) (events : List Event) :
    (∀ event e, (c.push event).outcome.result = .error e → (c.push event).compiler.Agrees c) ∧
      (c.outcomes (c.taken events) =
        (c.outcomes events).filter fun outcome => outcome.result.isOk) ∧
      (∀ later, (c.pushEach (c.taken events)).outcomes later = (c.pushEach events).outcomes later) ∧
      (c.pushEach (c.taken events)).finish = (c.pushEach events).finish ∧
      ∀ scratch, outcomes { c with scratch := scratch } events = c.outcomes events ∧
        (pushEach { c with scratch := scratch } events).finish = (c.pushEach events).finish := by
  have hkept := (Agrees.refl c).pushEach_taken events
  refine ⟨?_, ?_, ?_, hkept.finish, ?_⟩
  · intro event e hrefused
    exact agrees_of_refused hrefused
  · exact (Agrees.refl c).outcomes_taken events
  · intro later
    exact hkept.outcomes later
  · intro scratch
    have hagrees := c.agrees_with_scratch scratch
    exact ⟨hagrees.outcomes events, (hagrees.pushEach events).finish⟩

/-- The second attribute has a vertex less than the first. -/
def fewerVertices : List Event :=
  [.enterMesh, .block (.attribute 0 "ubyte" 1 "1 2"), .block (.attribute 1 "ubyte" 1 "3"),
   .block (.arrays "points" 0 2), .exitMesh]

/-- It is refused when its values have already been read, and leaves no trace in the mesh. -/
theorem refused_fewerVertices :
    (start .strict).taken fewerVertices = fewerVertices.eraseIdx 2 ∧
      (∃ mesh, ((start .strict).pushEach (fewerVertices.eraseIdx 2)).finish.result = .ok mesh ∧
        ((start .strict).pushEach fewerVertices).finish.result = .ok mesh) ∧
      ∃ refused : Stepped Unit,
        refused = ((start .strict).pushEach (fewerVertices.take 2)).push fewerVertices[2] ∧
        refused.outcome.result = .error (.violation (.vertexCount 1 2 1)) ∧
        refused.compiler.scratch = [3] ∧
        refused.compiler.Agrees ((start .strict).pushEach (fewerVertices.take 2)) := by
  obtain ⟨-, -, -, hfinish, -⟩ := refusals_invisible (start .strict) fewerVertices
  obtain ⟨hagrees, -⟩ := refusals_invisible ((start .strict).pushEach (fewerVertices.take 2)) []
  have htaken : (start .strict).taken fewerVertices = fewerVertices.eraseIdx 2 := by decide
  rw [htaken] at hfinish
  refine ⟨htaken, ⟨_, rfl, ?_⟩, ⟨_, rfl, rfl, rfl, ?_⟩⟩
  · rw [← hfinish]
    rfl
  · exact hagrees fewerVertices[2] _ rfl

end Compiler

end MeshLayout
