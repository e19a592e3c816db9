/-
MeshLayout/Proofs/Exchanges.lean

What is said between the library and a device.

A device is an arbitrary state machine, and all that the library does with
it is to call it.  `Device.watched` is the same device with a record of its
calls and its answers: whatever is done with the watched device comes to
what is done with the device itself, and the record says what that was.

`Draws` tells the draw calls of a list of commands, and what comes of them,
without a device; `executeFrom_watched` says that a replay makes these calls
on any device and ends as they end.
-/
import MeshLayout.Device.Basic

namespace MeshLayout

variable {σ β ε : Type}

/-! ### A device under observation -/

/-- A call on a device, with the answer. -/
inductive Exchange (β ε : Type) where
  | create (target : Target) (data : List UInt8) (answer : Except ε β)
  | bind (vertices : β) (attributes : List Attribute) (indices : Option β)
    (answer : Except ε Unit)
  | drawIndexed (vertices indices : β) (mode : Primitive) (offset count : Nat) (type : IndexType)
    (answer : Except ε Unit)
  | drawDirect (vertices : β) (mode : Primitive) (first count : UInt32) (answer : Except ε Unit)

/-- How the call has failed, if it has. -/
def Exchange.failure? : Exchange β ε → Option ε
  | create _ _ (.error e) => some e
  | bind _ _ _ (.error e) => some e
  | drawIndexed _ _ _ _ _ _ (.error e) => some e
  | drawDirect _ _ _ _ (.error e) => some e
  | _ => none

namespace Exchange

variable {e : ε}

@[simp] theorem failure?_create {target : Target} {data : List UInt8} {answer : Except ε β} :
    (create target data answer).failure? = some e ↔ answer = .error e := by
  rcases answer with e' | handle <;> simp [failure?]

@[simp] theorem failure?_bind {vertices : β} {attributes : List Attribute} {indices : Option β}
    {answer : Except ε Unit} :
    (bind vertices attributes indices answer).failure? = some e ↔ answer = .error e := by
  rcases answer with e' | u <;> simp [failure?]

@[simp] theorem failure?_drawIndexed {vertices indices : β} {mode : Primitive}
    {offset count : Nat} {type : IndexType} {answer : Except ε Unit} :
    (drawIndexed vertices indices mode offset count type answer).failure? = some e ↔
      answer = .error e := by
  rcases answer with e' | u <;> simp [failure?]

@[simp] theorem failure?_drawDirect {vertices : β} {mode : Primitive} {first count : UInt32}
    {answer : Except ε Unit} :
    (drawDirect vertices mode first count answer : Exchange β ε).failure? = some e ↔
      answer = .error e := by
  rcases answer with e' | u <;> simp [failure?]

end Exchange

/-- The device with a record of what is said. -/
def Device.watched (d : Device σ β ε) : Device (σ × List (Exchange β ε)) β ε where
  createBuffer target data s :=
    let call := d.createBuffer target data s.1
    (call.1, call.2, s.2 ++ [.create target data call.1])
  bindAttributes vertices attributes indices s :=
    let call := d.bindAttributes vertices attributes indices s.1
    (call.1, call.2, s.2 ++ [.bind vertices attributes indices call.1])
  drawIndexed vertices indices mode offset count type s :=
    let call := d.drawIndexed vertices indices mode offset count type s.1
    (call.1, call.2, s.2 ++ [.drawIndexed vertices indices mode offset count type call.1])
  drawDirect vertices mode first count s :=
    let call := d.drawDirect vertices mode first count s.1
    (call.1, call.2, s.2 ++ [.drawDirect vertices mode first count call.1])
  note n s := (d.note n s.1, s.2)

namespace Device

variable {d : Device σ β ε} {s t : σ} {before : List (Exchange β ε)}

theorem createBuffer_watched {target : Target} {data : List UInt8} {answer : Except ε β}
    (h : d.createBuffer target data s = (answer, t)) :
    d.watched.createBuffer target data (s, before) =
      (answer, t, before ++ [.create target data answer]) := by
  show (_, _, before ++ [_]) = _
  rw [h]

theorem bindAttributes_watched {vertices : β} {attributes : List Attribute} {indices : Option β}
    {answer : Except ε Unit} (h : d.bindAttributes vertices attributes indices s = (answer, t)) :
    d.watched.bindAttributes vertices attributes indices (s, before) =
      (answer, t, before ++ [.bind vertices attributes indices answer]) := by
  show (_, _, before ++ [_]) = _
  rw [h]

theorem drawIndexed_watched {vertices indices : β} {mode : Primitive} {offset count : Nat}
    {type : IndexType} {answer : Except ε Unit}
    (h : d.drawIndexed vertices indices mode offset count type s = (answer, t)) :
    d.watched.drawIndexed vertices indices mode offset count type (s, before) =
      (answer, t, before ++ [.drawIndexed vertices indices mode offset count type answer]) := by
  show (_, _, before ++ [_]) = _
  rw [h]

theorem drawDirect_watched {vertices : β} {mode : Primitive} {first count : UInt32}
    {answer : Except ε Unit} (h : d.drawDirect vertices mode first count s = (answer, t)) :
    d.watched.drawDirect vertices mode first count (s, before) =
      (answer, t, before ++ [.drawDirect vertices mode first count answer]) := by
  show (_, _, before ++ [_]) = _
  rw [h]

end Device

/-! ### Replaying commands -/

/-- The call that draws a command, with the given answer.  An indexed command cannot be drawn
without an index buffer. -/
def Command.exchange? (vertices : β) (indices : Option β) (answer : Except ε Unit) :
    Command → Option (Exchange β ε)
  | indexed mode offset count type =>
    indices.map fun indices => .drawIndexed vertices indices mode offset count type answer
  | direct mode first count => some (.drawDirect vertices mode first count answer)

theorem Command.eq_of_exchange?_eq_drawIndexed {vertices : β} {indices : Option β}
    {answer answer' : Except ε Unit} {command : Command} {v i : β} {mode : Primitive}
    {offset count : Nat} {type : IndexType}
    (h : command.exchange? vertices indices answer =
      some (.drawIndexed v i mode offset count type answer')) :
    command = .indexed mode offset count type := by
  match command, indices with
  | .indexed .., some _ =>
    cases h
    rfl
  | .indexed .., none | .direct .., _ => cases h

theorem Command.failure?_of_exchange? {vertices : β} {indices : Option β} {answer : Except ε Unit}
    {command : Command} {exchange : Exchange β ε}
    (h : command.exchange? vertices indices answer = some exchange) (e : ε) :
    exchange.failure? = some e ↔ answer = .error e := by
  match command, indices with
  | .indexed .., none => cases h
  | .indexed .., some _ =>
    cases h
    exact Exchange.failure?_drawIndexed
  | .direct .., _ =>
    cases h
    exact Exchange.failure?_drawDirect

/-- The commands, counted from `number` on, are drawn one after the other, until a call fails or
there is no call for a command. -/
inductive Draws (vertices : β) (indices : Option β) :
    Nat → List Command → List (Exchange β ε) → Except (ReplayError ε) Unit → Prop
  | done {number : Nat} : Draws vertices indices number [] [] (.ok ())
  | drawn {number : Nat} {command : Command} {rest : List Command} {exchange : Exchange β ε}
      {exchanges : List (Exchange β ε)} {result : Except (ReplayError ε) Unit}
      (hcall : command.exchange? vertices indices (.ok ()) = some exchange)
      (hrest : Draws vertices indices (number + 1) rest exchanges result) :
      Draws vertices indices number (command :: rest) (exchange :: exchanges) result
  | refused {number : Nat} {command : Command} {rest : List Command} {exchange : Exchange β ε}
      {e : ε} (hcall : command.exchange? vertices indices (.error e) = some exchange) :
      Draws vertices indices number (command :: rest) [exchange] (.error (.device e))
  | missing {number : Nat} {command : Command} {rest : List Command}
      (hcall : ∀ answer : Except ε Unit, command.exchange? vertices indices answer = none) :
      Draws vertices indices number (command :: rest) [] (.error (.missingIndexBuffer number))

namespace Draws

variable {vertices : β} {indices : Option β} {number : Nat} {commands : List Command}
  {exchanges : List (Exchange β ε)} {result : Except (ReplayError ε) Unit}

/-- Where there is an index buffer for every command that needs one, none is found missing. -/
theorem ne_missing (h : Draws vertices indices number commands exchanges result)
    (hindices : indices = none → ∀ command ∈ commands, command.isIndexed = false) (n : Nat) :
    result ≠ .error (.missingIndexBuffer n) := by
  induction h with
  | done | refused => exact fun hresult => by cases hresult
  | drawn _ _ ih =>
    exact ih fun hnone command hmem => hindices hnone command (List.mem_cons_of_mem _ hmem)
  | @missing _ command rest hcall =>
    match command, indices with
    | .indexed .., none =>
      have hdirect := hindices rfl _ (List.mem_cons_self ..)
      cases hdirect
    | .indexed .., some _ | .direct .., _ => cases hcall (.ok ())

/-- Only commands are drawn. -/
theorem mem_of_drawIndexed (h : Draws vertices indices number commands exchanges result)
    {v i : β} {mode : Primitive} {offset count : Nat} {type : IndexType} {answer : Except ε Unit}
    (hmem : .drawIndexed v i mode offset count type answer ∈ exchanges) :
    .indexed mode offset count type ∈ commands := by
  induction h with
  | done | missing => cases hmem
  | @drawn _ command rest exchange _ _ hcall _ ih =>
    rcases List.mem_cons.1 hmem with rfl | hmem
    · obtain rfl := Command.eq_of_exchange?_eq_drawIndexed hcall
      exact List.mem_cons_self ..
    · exact List.mem_cons_of_mem _ (ih hmem)
  | refused hcall =>
    obtain rfl := List.mem_singleton.1 hmem
    obtain rfl := Command.eq_of_exchange?_eq_drawIndexed hcall
    exact List.mem_cons_self ..

/-- The replay fails as the device does. -/
theorem error_iff (h : Draws vertices indices number commands exchanges result) (e : ε) :
    result = .error (.device e) ↔ ∃ exchange ∈ exchanges, exchange.failure? = some e := by
  induction h with
  | done | missing => simp
  | drawn hcall _ ih =>
    -- the first call has succeeded, so a failure is one of the others
    simp [ih, Command.failure?_of_exchange? hcall]
  | refused hcall =>
    simp [Command.failure?_of_exchange? hcall]

end Draws

namespace Device

variable (d : Device σ β ε) (vertices : β) (indices : Option β)

theorem andThen_done (answer : Except ε Unit) (s : σ) :
    andThen (answer, s) (fun _ s => (.ok (), s)) = (answer.mapError .device, s) := by
  rcases answer with e | u
  · rfl
  · rfl

/-- Drawing a command makes the call that draws it, if there is one. -/
theorem draw_watched (number : Nat) (command : Command) (s : σ)
    (before : List (Exchange β ε)) :
    (∃ answer exchange t, command.exchange? vertices indices answer = some exchange ∧
      d.draw vertices indices number command s = (answer.mapError .device, t) ∧
      d.watched.draw vertices indices number command (s, before) =
        (answer.mapError .device, t, before ++ [exchange])) ∨
    (∀ answer : Except ε Unit, command.exchange? vertices indices answer = none) ∧
      d.draw vertices indices number command s = (.error (.missingIndexBuffer number), s) ∧
      d.watched.draw vertices indices number command (s, before) =
        (.error (.missingIndexBuffer number), s, before) := by
  match command, indices with
  | .indexed mode offset count type, none =>
    right
    exact ⟨fun _ => rfl, rfl, rfl⟩
  | .indexed mode offset count type, some indices =>
    left
    rcases hcall : d.drawIndexed vertices indices mode offset count type s with ⟨answer, t⟩
    refine ⟨answer, _, t, rfl, ?_, ?_⟩
    · rw [draw, hcall, andThen_done]
    · rw [draw, drawIndexed_watched hcall, andThen_done]
  | .direct mode first count, indices =>
    left
    rcases hcall : d.drawDirect vertices mode first count s with ⟨answer, t⟩
    refine ⟨answer, _, t, rfl, ?_, ?_⟩
    · rw [draw, hcall, andThen_done]
    · rw [draw, drawDirect_watched hcall, andThen_done]

/-- **A replay draws the commands in order**, on any device. -/
theorem executeFrom_watched (number : Nat) (commands : List Command) (s : σ)
    (before : List (Exchange β ε)) :
    ∃ exchanges, d.watched.executeFrom vertices indices number commands (s, before) =
        ((d.executeFrom vertices indices number commands s).1,
          (d.executeFrom vertices indices number commands s).2, before ++ exchanges) ∧
      Draws vertices indices number commands exchanges
        (d.executeFrom vertices indices number commands s).1 := by
  induction commands generalizing number s before with
  | nil => exact ⟨[], by simp [executeFrom], .done⟩
  | cons command rest ih =>
    -- notes reach the device, but they are no calls
    have hnote : d.watched.note (.issuing number command) (s, before) =
        (d.note (.issuing number command) s, before) := rfl
    rw [executeFrom, executeFrom, hnote]
    rcases d.draw_watched vertices indices number command (d.note (.issuing number command) s)
      before with ⟨answer, exchange, t, hexchange, hdraw, hwatched⟩ | ⟨hnone, hdraw, hwatched⟩
    · rw [hdraw, hwatched]
      rcases answer with e | ⟨⟩
      · -- the replay ends with the call that fails
        exact ⟨[exchange], rfl, .refused hexchange⟩
      · obtain ⟨exchanges, hrun, hdraws⟩ := ih (number + 1) t (before ++ [exchange])
        refine ⟨exchange :: exchanges, ?_, .drawn hexchange hdraws⟩
        rw [List.append_assoc] at hrun
        exact hrun
    · rw [hdraw, hwatched]
      exact ⟨[], by rw [List.append_nil], .missing hnone⟩

end Device

end MeshLayout
