/-
MeshLayout/Proofs/Replays.lean

How far a replay of commands gets.

The commands may be any list, of a compiled mesh or not.  Two things can end
a replay early: the device rejects a draw, or an indexed command comes up
and there is no index buffer.  Where the second happens can be told from the
list (`reach`), where the first happens only from the answers of the device,
and whichever comes first counts.  `Replayed` says what has been drawn by
then and what comes of it.  Main result: `replayed_of_execute`.
-/
import Mathlib.Data.List.Forall2
import MeshLayout.Proofs.Exchanges

namespace MeshLayout

variable {σ β ε : Type}

/-! ### Commands that lack an index buffer -/

/-- The command draws through an index buffer, and there is none. -/
def Command.lacksIndices (indices : Option β) (command : Command) : Bool :=
  command.isIndexed && indices.isNone

/-- The number of commands before the first that lacks an index buffer: all of them if none
does. -/
def reach (indices : Option β) (commands : List Command) : Nat :=
  commands.findIdx (Command.lacksIndices indices)

theorem Command.lacksIndices_iff {vertices : β} {indices : Option β} {command : Command} :
    command.lacksIndices indices = true ↔
      ∀ answer : Except ε Unit, command.exchange? vertices indices answer = none := by
  match command, indices with
  | .indexed .., none | .indexed .., some _ | .direct .., _ =>
    simp [lacksIndices, isIndexed, exchange?]

/-! ### Replays -/

/-- The command has been drawn by this call, and the device has not rejected it. -/
def Command.Drawn (vertices : β) (indices : Option β) (command : Command) (draw : Exchange β ε) :
    Prop :=
  command.exchange? vertices indices (.ok ()) = some draw

/-- The draw calls of a replay, and what comes of it.  Each command up to some point has been
drawn, once and in order, and behind that point nothing has been called. -/
inductive Replayed (vertices : β) (indices : Option β) (commands : List Command) :
    List (Exchange β ε) → Except (ReplayError ε) Unit → Prop
  /-- every command has been drawn -/
  | finished {draws : List (Exchange β ε)}
      (hreach : reach indices commands = commands.length)
      (hdrawn : List.Forall₂ (Command.Drawn vertices indices) commands draws) :
      Replayed vertices indices commands draws (.ok ())
  /-- the device has rejected the draw of a command -/
  | rejected {front rest : List Command} {command : Command} {draws : List (Exchange β ε)}
      {draw : Exchange β ε} {e : ε} (hcommands : commands = front ++ command :: rest)
      (hreach : front.length < reach indices commands)
      (hdrawn : List.Forall₂ (Command.Drawn vertices indices) front draws)
      (hrejected : command.exchange? vertices indices (.error e) = some draw) :
      Replayed vertices indices commands (draws ++ [draw]) (.error (.device e))
  /-- the next command lacks an index buffer -/
  | missing {draws : List (Exchange β ε)} (hreach : reach indices commands < commands.length)
      (hdrawn : List.Forall₂ (Command.Drawn vertices indices)
        (commands.take (reach indices commands)) draws) :
      Replayed vertices indices commands draws
        (.error (.missingIndexBuffer (reach indices commands)))

/-! ### Where a replay ends -/

/-- The replay ends before these commands, or in the call for the first of them. -/
inductive Ends (vertices : β) (indices : Option β) (number : Nat) :
    List Command → List (Exchange β ε) → Except (ReplayError ε) Unit → Prop
  | finished : Ends vertices indices number [] [] (.ok ())
  | rejected {command : Command} {rest : List Command} {draw : Exchange β ε} {e : ε}
      (hrejected : command.exchange? vertices indices (.error e) = some draw) :
      Ends vertices indices number (command :: rest) [draw] (.error (.device e))
  | missing {command : Command} {rest : List Command}
      (hlacks : command.lacksIndices indices = true) :
      Ends vertices indices number (command :: rest) [] (.error (.missingIndexBuffer number))

section

variable {vertices : β} {indices : Option β} {number : Nat} {commands front rest : List Command}
  {draws drawn : List (Exchange β ε)} {result : Except (ReplayError ε) Unit}

/-- Up to where it ends, a replay has drawn one command after the other. -/
theorem Draws.exists_ends (h : Draws vertices indices number commands draws result) :
    ∃ front rest drawn last, commands = front ++ rest ∧ draws = drawn ++ last ∧
      List.Forall₂ (Command.Drawn vertices indices) front drawn ∧
      Ends vertices indices (number + front.length) rest last result := by
  induction h with
  | done => exact ⟨[], [], [], [], rfl, rfl, .nil, .finished⟩
  | @drawn number command _ draw _ _ hcall _ ih =>
    obtain ⟨front, rest, drawn, last, rfl, rfl, hdrawn, hends⟩ := ih
    refine ⟨command :: front, rest, draw :: drawn, last, rfl, rfl, .cons hcall hdrawn, ?_⟩
    rw [List.length_cons, Nat.add_comm front.length, ← Nat.add_assoc]
    exact hends
  | refused hcall => exact ⟨[], _, [], _, rfl, rfl, .nil, .rejected hcall⟩
  | missing hcall =>
    exact ⟨[], _, [], [], rfl, rfl, .nil, .missing (Command.lacksIndices_iff.2 hcall)⟩

/-- A command that can be drawn, whatever the answer, is within reach. -/
theorem reach_cons {command : Command} {answer : Except ε Unit} {draw : Exchange β ε}
    (h : command.exchange? vertices indices answer = some draw) (rest : List Command) :
    reach indices (command :: rest) = reach indices rest + 1 := by
  have hlacks : command.lacksIndices indices = false := by
    refine Bool.eq_false_iff.2 fun hlacks => ?_
    have hnone := (@Command.lacksIndices_iff β ε vertices indices command).1 hlacks answer
    exact Option.some_ne_none _ (h.symm.trans hnone)
  rw [reach, List.findIdx_cons, hlacks]
  rfl

theorem reach_append (h : List.Forall₂ (Command.Drawn vertices indices) front drawn)
    (rest : List Command) : reach indices (front ++ rest) = front.length + reach indices rest := by
  induction h with
  | nil => simp
  | cons hfirst _ ih =>
    rw [List.cons_append, reach_cons hfirst, ih, List.length_cons]
    omega

theorem Draws.replayed (h : Draws vertices indices 0 commands draws result) :
    Replayed vertices indices commands draws result := by
  obtain ⟨front, rest, drawn, last, rfl, rfl, hdrawn, hends⟩ := h.exists_ends
  have hreach := reach_append hdrawn rest
  rw [Nat.zero_add] at hends
  cases hends with
  | finished =>
    rw [List.append_nil] at hreach ⊢
    rw [List.append_nil]
    exact .finished hreach hdrawn
  | @rejected command rest draw e hrejected =>
    -- the call was made, so the command is within reach
    have hlt : front.length < reach indices (front ++ command :: rest) := by
      rw [hreach, reach_cons hrejected]
      omega
    exact .rejected rfl hlt hdrawn hrejected
  | @missing command rest hlacks =>
    have hfront : reach indices (front ++ command :: rest) = front.length := by
      rw [hreach, reach, List.findIdx_cons, hlacks]
      rfl
    rw [List.append_nil, ← hfront]
    refine .missing ?_ ?_
    · rw [hfront]
      simp
    · rw [hfront, List.take_left]
      exact hdrawn

end

/-- **How far a replay gets**, whatever the commands, the handles and the device.  Its calls are
draws of the commands in order, up to the first that the device rejects or that lacks an index
buffer, and its result is that of the one that comes first. -/
theorem replayed_of_execute (d : Device σ β ε) (commands : List Command) (vertices : β)
    (indices : Option β) (s : σ) :
    ∃ draws : List (Exchange β ε),
      d.watched.execute commands vertices indices (s, []) =
        ((d.execute commands vertices indices s).1, (d.execute commands vertices indices s).2,
          draws) ∧
      Replayed vertices indices commands draws (d.execute commands vertices indices s).1 := by
  obtain ⟨draws, hwatched, hdraws⟩ := d.executeFrom_watched vertices indices 0 commands s []
  exact ⟨draws, hwatched, hdraws.replayed⟩

end MeshLayout
