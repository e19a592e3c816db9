/-
MeshLayout/Proofs/Steps.lean

How the steps of a compilation succeed and fail.

`Yields` says with which value a step succeeds and what compiler it leaves;
`Confined` that a step keeps to the scratch space, and `Guarded` that it
does so at least when it fails.  All three pass from the parts of a step to
the whole, so that a push can be taken apart check by check
(`yields_bind`, `Confined.bind_guarded`).
-/
import MeshLayout.Compiler.Basic
import MeshLayout.Proofs.Encoding

namespace MeshLayout

/-! ### How steps succeed -/

namespace Step

variable {α β : Type} {c d : Compiler}

/-- The step succeeds with the value `a` and leaves the compiler `d`. -/
def Yields (step : Step α) (c : Compiler) (a : α) (d : Compiler) : Prop :=
  (step.run c).outcome.result = .ok a ∧ (step.run c).compiler = d

theorem next_run_eq_ok_iff {step : Step Unit} :
    (step.run c).next.result = .ok d ↔ step.Yields c () d := by
  rcases h : step.run c with ⟨after, notes, e | u⟩
  · simp [Stepped.next, Yields, h, Except.map]
  · simp [Stepped.next, Yields, h, Except.map]

theorem yields_bind {first : Step α} {next : α → Step β} {b : β} :
    (first >>= next).Yields c b d ↔
      ∃ a middle, first.Yields c a middle ∧ (next a).Yields middle b d := by
  have unfolded : (first >>= next).run c = bind first next c := rfl
  rcases h : first.run c with ⟨middle, notes, e | a⟩
  · -- the second step is not run
    simp [Yields, unfolded, bind, h]
  · simp only [Yields, unfolded, bind, h, Except.ok.injEq]
    constructor
    · intro hnext
      exact ⟨a, middle, ⟨rfl, rfl⟩, hnext⟩
    · rintro ⟨_, _, ⟨rfl, rfl⟩, hnext⟩
      exact hnext

@[simp] theorem yields_liftM_logged {outcome : Logged Error α} {a : α} :
    (liftM outcome : Step α).Yields c a d ↔ outcome.result = .ok a ∧ c = d := Iff.rfl

@[simp] theorem yields_liftM_except {outcome : Except Error α} {a : α} :
    (liftM outcome : Step α).Yields c a d ↔ outcome = .ok a ∧ c = d := Iff.rfl

@[simp] theorem yields_require {condition : Bool} {e : Error} {u : Unit} :
    (require condition e).Yields c u d ↔ condition = true ∧ c = d := by
  cases condition <;> simp [Yields, require, Logged.require, Logged.fail]

@[simp] theorem yields_note {n : Note} {u : Unit} : (note n).Yields c u d ↔ c = d := by
  simp [Yields, note, Logged.note]

@[simp] theorem yields_current {a : Compiler} : current.Yields c a d ↔ c = a ∧ c = d := by
  simp [Yields]

@[simp] theorem yields_change {f : Compiler → Compiler} {u : Unit} :
    (change f).Yields c u d ↔ f c = d := by
  simp [Yields]

@[simp] theorem not_yields_fail {e : Error} {a : α} :
    ¬ (check (Logged.fail e)).Yields c a d := by
  simp [Yields, Logged.fail]

theorem yields_fillScratch {k : Scalar} {text : String} {count : Nat} :
    (Compiler.fillScratch k text).Yields c count d ↔
      ∃ values, k.readText text = .ok values ∧ values.length = count ∧
        { c with scratch := c.scratch ++ k.bytesOf values } = d := by
  have unfolded : (Compiler.fillScratch k text).run c =
      ⟨{ c with scratch := (k.encodeInto text c.scratch).2 },
        ⟨[], (k.encodeInto text c.scratch).1⟩⟩ := rfl
  rw [Yields, unfolded, Scalar.encodeInto_eq]
  rcases k.readText text with e | values
  · simp
  · simp

theorem yields_encode {k : Scalar} {text : String} {count : Nat} :
    (Compiler.encode k text).Yields c count d ↔
      ∃ values, k.readText text = .ok values ∧ values.length = count ∧
        { c with scratch := k.bytesOf values } = d := by
  simp [Compiler.encode, yields_bind, yields_fillScratch]

end Step

/-! ### How steps fail -/

namespace Step

variable {α β : Type}

/-- Whatever comes of it, the step changes the scratch space at most. -/
def Confined (step : Step α) : Prop :=
  ∀ c, ∃ scratch, (step.run c).compiler = { c with scratch := scratch }

/-- If it fails, the step has changed the scratch space at most. -/
def Guarded (step : Step α) : Prop :=
  ∀ c e, (step.run c).outcome.result = .error e →
    ∃ scratch, (step.run c).compiler = { c with scratch := scratch }

theorem confined_check (outcome : Logged Error α) : Confined (check outcome) :=
  fun c => ⟨c.scratch, rfl⟩

theorem confined_current : Confined current := fun c => ⟨c.scratch, rfl⟩

theorem confined_encode (k : Scalar) (text : String) : Confined (Compiler.encode k text) :=
  fun _ => ⟨_, rfl⟩

theorem Confined.guarded {step : Step α} (h : Confined step) : Guarded step := fun c _ _ => h c

/-- A step that cannot fail is guarded, whatever it changes. -/
theorem guarded_of_ok {step : Step α} {a : Compiler → α}
    (h : ∀ c, (step.run c).outcome.result = .ok (a c)) : Guarded step := by
  intro c e herror
  rw [h c] at herror
  cases herror

/-- Changes beyond the scratch space have to come last. -/
theorem Confined.bind_guarded {first : Step α} {next : α → Step β} (hfirst : Confined first)
    (hnext : ∀ a, Guarded (next a)) : Guarded (first >>= next) := by
  intro c e herror
  have unfolded : (first >>= next).run c = bind first next c := rfl
  obtain ⟨scratch, hscratch⟩ := hfirst c
  rw [unfolded, bind] at herror ⊢
  rcases hrun : first.run c with ⟨middle, notes, e' | a⟩ <;>
    obtain rfl : middle = { c with scratch := scratch } := by simpa [hrun] using hscratch
  · exact ⟨scratch, rfl⟩
  · rw [hrun] at herror
    exact hnext a _ e herror

end Step

end MeshLayout
