/-
MeshLayout/Logged.lean

Computations that take notes and may fail.  The notes taken before a
failure are kept.
-/
import MeshLayout.Note

namespace MeshLayout

/-- The outcome of a computation together with the notes taken on the way to it. -/
structure Logged (ε α : Type) where
  notes : List Note
  result : Except ε α

namespace Logged

variable {ε α β : Type}

/-- Goes on with the value, if there is one; the notes of both parts follow each other. -/
def bind (first : Logged ε α) (next : α → Logged ε β) : Logged ε β :=
  match first.result with
  | .ok a => ⟨first.notes ++ (next a).notes, (next a).result⟩
  | .error e => ⟨first.notes, .error e⟩

instance : Monad (Logged ε) where
  pure a := ⟨[], .ok a⟩
  bind := bind

instance : MonadLift (Except ε) (Logged ε) where
  monadLift outcome := ⟨[], outcome⟩

@[simp] theorem pure_eq (a : α) : (pure a : Logged ε α) = ⟨[], .ok a⟩ := rfl

@[simp] theorem ok_bind (notes : List Note) (a : α) (next : α → Logged ε β) :
    (Logged.mk notes (.ok a) >>= next) = ⟨notes ++ (next a).notes, (next a).result⟩ := rfl

@[simp] theorem error_bind (notes : List Note) (e : ε) (next : α → Logged ε β) :
    (Logged.mk notes (.error e) >>= next) = ⟨notes, .error e⟩ := rfl

theorem bind_assoc {γ : Type} (first : Logged ε α) (next : α → Logged ε β)
    (last : β → Logged ε γ) : first >>= next >>= last = first >>= fun a => next a >>= last := by
  rcases first with ⟨notes, e | a⟩
  · rfl
  · rcases h : next a with ⟨more, e | b⟩ <;> simp [h]

/-- What follows matters only for the values that it is given. -/
theorem bind_congr {first : Logged ε α} {next next' : α → Logged ε β}
    (h : ∀ a, first.result = .ok a → next a = next' a) : first >>= next = first >>= next' := by
  rcases first with ⟨notes, e | a⟩
  · rfl
  · rw [ok_bind, ok_bind, h a rfl]

theorem bind_eq_ok_iff {first : Logged ε α} {next : α → Logged ε β} {b : β} :
    (first >>= next).result = .ok b ↔ ∃ a, first.result = .ok a ∧ (next a).result = .ok b := by
  rcases first with ⟨notes, e | a⟩ <;> simp

/-- Fails. -/
def fail (e : ε) : Logged ε α := ⟨[], .error e⟩

/-- Takes a note. -/
def note (n : Note) : Logged ε Unit := ⟨[n], .ok ()⟩

/-- Fails unless the condition holds. -/
def require (condition : Bool) (e : ε) : Logged ε Unit :=
  if condition then pure () else fail e

/-- Describes a failure in other words. -/
def mapError {δ : Type} (describe : ε → δ) (outcome : Logged ε α) : Logged δ α :=
  ⟨outcome.notes, outcome.result.mapError describe⟩

end Logged

end MeshLayout
