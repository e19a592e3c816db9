/-
MeshLayout/Proofs/Strictness.lean

What a stricter policy changes.

A check that is not enforced is made all the same, and a note is taken of
what it finds.  A run under a weak policy therefore knows where a run under
a stronger one would have ended: at the first note of a violation that only
the stronger policy turns into an error.  `Logged.tighten` cuts an outcome
off at that note.  It passes through every bind (`tighten_bind`), and what a
strong policy makes of a violation is the cut of what a weak one makes of it
(`review_of_le`); so the two runs go in lock step up to the cut, and the
whole strong run is the cut of the weak one (`compile_eq_tighten`).

Main result: `compile_of_stricter`.
-/
import MeshLayout.Proofs.Examination

namespace MeshLayout

/-! ### Violations that are passed over -/

/-- Does the strong policy enforce the check, and the weak one not? -/
def Options.adds (weak strong : Options) (check : Check) : Bool :=
  strong.enforces check && !weak.enforces check

/-- The violation that a note passes over, if the strong policy adds its check. -/
def Note.missed? (weak strong : Options) : Note → Option Violation
  | .passedOver violation => if weak.adds strong violation.check then some violation else none
  | _ => none

/-- The noted violations whose checks the strong policy adds to the weak one, in order. -/
def missed (weak strong : Options) (notes : List Note) : List Violation :=
  notes.filterMap (Note.missed? weak strong)

namespace Logged

variable {α β : Type} {weak strong : Options}

/-! ### Cutting an outcome off -/

/-- Goes through the notes, and ends with an error at the first that passes over a violation
whose check the strong policy adds. -/
def cut (weak strong : Options) (result : Except Error α) : List Note → Logged Error α
  | [] => ⟨[], result⟩
  | n :: rest =>
    match n.missed? weak strong with
    | some violation => fail (.violation violation)
    | none => do
      note n
      cut weak strong result rest

/-- The outcome as far as the strong policy lets it come. -/
def tighten (weak strong : Options) (x : Logged Error α) : Logged Error α :=
  cut weak strong x.result x.notes

theorem result_tighten (x : Logged Error α) :
    (x.tighten weak strong).result =
      match missed weak strong x.notes with
      | [] => x.result
      | violation :: _ => .error (.violation violation) := by
  rcases x with ⟨notes, result⟩
  show (cut weak strong result notes).result = _
  induction notes with
  | nil => rfl
  | cons n rest ih =>
    rw [cut, missed]
    rcases hn : n.missed? weak strong with - | violation
    · rw [List.filterMap_cons_none hn]
      exact ih
    · rw [List.filterMap_cons_some hn]
      rfl

theorem result_tighten_eq_ok_iff {x : Logged Error α} {a : α} :
    (x.tighten weak strong).result = .ok a ↔ x.result = .ok a ∧ missed weak strong x.notes = [] := by
  rw [result_tighten]
  rcases missed weak strong x.notes with - | ⟨violation, later⟩
  · simp
  · simp

theorem tighten_note {n : Note} (h : n.missed? weak strong = none) :
    (note n).tighten weak strong = note n := by
  show cut weak strong (.ok ()) [n] = _
  rw [cut, h]
  rfl

theorem tighten_note_of_missed {n : Note} {violation : Violation}
    (h : n.missed? weak strong = some violation) :
    (note n).tighten weak strong = fail (.violation violation) := by
  show cut weak strong (.ok ()) [n] = _
  rw [cut, h]

theorem cut_ok_bind (notes : List Note) (a : α) (next : α → Logged Error β) :
    cut weak strong (next a).result (notes ++ (next a).notes) =
      cut weak strong (.ok a) notes >>= fun a => (next a).tighten weak strong := by
  induction notes with
  | nil => rfl
  | cons n rest ih =>
    rw [List.cons_append, cut, cut]
    rcases n.missed? weak strong with - | violation
    · show (note n >>= fun _ => cut weak strong (next a).result (rest ++ (next a).notes)) = _
      rw [ih, ← bind_assoc]
    · rfl

theorem cut_error_bind (notes : List Note) (e : Error) (next : α → Logged Error β) :
    cut weak strong (.error e) notes = cut weak strong (.error e) notes >>= next := by
  induction notes with
  | nil => rfl
  | cons n rest ih =>
    rw [cut, cut]
    rcases n.missed? weak strong with - | violation
    · show (note n >>= fun _ => cut weak strong (.error e) rest) = _
      rw [ih, ← bind_assoc]
    · rfl

/-- The parts of an outcome are cut off one by one: behind a cut in the first, nothing of the
second is left. -/
theorem tighten_bind (x : Logged Error α) (next : α → Logged Error β) :
    (x >>= next).tighten weak strong =
      x.tighten weak strong >>= fun a => (next a).tighten weak strong := by
  rcases x with ⟨notes, e | a⟩
  · exact cut_error_bind notes e _
  · exact cut_ok_bind notes a next

@[simp] theorem tighten_pure (a : α) :
    (pure a : Logged Error α).tighten weak strong = pure a := rfl

@[simp] theorem tighten_liftM (outcome : Except Error α) :
    (liftM outcome : Logged Error α).tighten weak strong = liftM outcome := rfl

@[simp] theorem tighten_require (condition : Bool) (e : Error) :
    (require condition e).tighten weak strong = require condition e := by
  cases condition <;> rfl

end Logged

namespace Compiler

variable {c d : Compiler} {weak strong : Options}

/-! ### Lock step -/

/-- What a strong policy makes of a violation, a weak one foresees. -/
theorem review_of_le (h : weak ≤ strong) (violation : Option Violation) :
    review strong violation = (review weak violation).tighten weak strong := by
  rcases violation with - | v
  · rfl
  · rw [review, review]
    rcases hweak : weak.enforces v.check with - | -
    · rcases hstrong : strong.enforces v.check with - | -
      · -- neither policy minds: both take the note
        have hquiet : (Note.passedOver v).missed? weak strong = none := by
          simp [Note.missed?, Options.adds, hstrong]
        exact (Logged.tighten_note hquiet).symm
      · -- the weak policy takes the note at which the cut is made
        have hmissed : (Note.passedOver v).missed? weak strong = some v := by
          simp [Note.missed?, Options.adds, hweak, hstrong]
        exact (Logged.tighten_note_of_missed hmissed).symm
    · have hstrong : strong.enforces v.check = true := h v.check hweak
      rw [hstrong]
      rfl

/-- The compiler under another policy. -/
def under (c : Compiler) (options : Options) : Compiler := { c with options := options }

theorem examine_under (h : c.options ≤ strong) (block : Block) :
    (c.under strong).examine block = (c.examine block).tighten c.options strong := by
  match block with
  | .attribute .. =>
    -- each of the three reviews is cut where the strong policy ends it
    simp only [examine, Logged.tighten_bind, Logged.tighten_liftM, Logged.tighten_require,
      Logged.tighten_pure, ← review_of_le h]
    rfl
  | .indices .. =>
    simp only [examine, Logged.tighten_bind, Logged.tighten_liftM, Logged.tighten_require,
      Logged.tighten_pure]
  | .arrays .. =>
    simp only [examine, Logged.tighten_bind, Logged.tighten_liftM, Logged.tighten_pure]

theorem announce_quiet (c : Compiler) (content : Content) :
    (c.announce content).missed? weak strong = none := by
  cases content <;> rfl

/-- Under the stronger policy, an event is answered in the same way up to the cut. -/
theorem respond_under (h : c.options ≤ strong) (event : Event) :
    (c.under strong).respond event =
      (c.respond event).tighten c.options strong >>= fun d => pure (d.under strong) := by
  have hstage : (c.under strong).stage = c.stage := rfl
  rw [respond, respond, hstage, Logged.tighten_bind, Logged.tighten_liftM, Logged.bind_assoc]
  congr
  funext stage
  cases event with
  | block block =>
    have hplace : ∀ content, (c.under strong).place content = (c.place content).under strong := by
      intro content
      cases content <;> rfl
    simp only [examine_under h, hplace, Logged.tighten_bind, Logged.tighten_pure,
      Logged.tighten_note (announce_quiet c _), Logged.bind_assoc, Logged.pure_bind]
    rfl
  | enterMesh | exitMesh => rfl

/-- No push changes the policy. -/
theorem Takes.options_eq {event : Event} (h : c.Takes event d) : d.options = c.options := by
  cases h with
  | enterMesh | exitMesh => rfl
  | block => exact options_place

theorem finish_tighten (c : Compiler) : c.finish.tighten weak strong = c.finish := by
  have hquiet : Note.missed? weak strong (.compiled c.attributes.length c.commands.length
      c.vertices.length c.indices.length) = none := rfl
  simp only [finish, Logged.tighten_bind, Logged.tighten_require, Logged.tighten_note hquiet,
    Logged.tighten_pure]

/-- The runs of both policies go in lock step, up to the cut. -/
theorem pushAll_finish_under (h : c.options ≤ strong) (events : List Event) :
    (c.under strong).pushAll events >>= finish =
      (c.pushAll events >>= finish).tighten c.options strong := by
  induction events generalizing c with
  | nil => exact (finish_tighten c).symm
  | cons event rest ih =>
    show ((c.under strong).push event).next >>= (·.pushAll rest) >>= finish =
      ((c.push event).next >>= (·.pushAll rest) >>= finish).tighten c.options strong
    rw [next_push, respond_under h, ← next_push, Logged.bind_assoc, Logged.bind_assoc,
      Logged.bind_assoc, Logged.tighten_bind]
    apply Logged.bind_congr
    intro d hd
    -- the event is taken under both policies, so the runs can go on
    have htakes : c.Takes event d :=
      push_next_eq_ok_iff.1 (Logged.result_tighten_eq_ok_iff.1 hd).1
    rw [← htakes.options_eq]
    exact ih (htakes.options_eq ▸ h)

end Compiler

/-- **A strong run is a weak run that is cut off**, at the first violation that only the strong
policy minds. -/
theorem compile_eq_tighten {weak strong : Options} (h : weak ≤ strong) (events : List Event) :
    compile strong events = (compile weak events).tighten weak strong :=
  Compiler.pushAll_finish_under (c := .start weak) h events

/-- **Strictness is monotone**, and the notes of a weak run foretell a strong one.  What compiles
under the strong policy is what compiles under the weak one, to the same mesh, without a note
of a violation that the strong policy adds; and if there are such notes, the first is the
error. -/
theorem compile_of_stricter {weak strong : Options} (h : weak ≤ strong) (events : List Event) :
    (∀ mesh, (compile strong events).result = .ok mesh ↔
      (compile weak events).result = .ok mesh ∧
        missed weak strong (compile weak events).notes = []) ∧
      ∀ violation later, missed weak strong (compile weak events).notes = violation :: later →
        (compile strong events).result = .error (.violation violation) := by
  have hresult : (compile strong events).result =
      match missed weak strong (compile weak events).notes with
      | [] => (compile weak events).result
      | violation :: _ => .error (.violation violation) := by
    rw [compile_eq_tighten h, Logged.result_tighten]
  constructor
  · intro mesh
    rw [hresult]
    rcases missed weak strong (compile weak events).notes with - | ⟨violation, later⟩
    · simp
    · simp
  · intro violation later hmissed
    rw [hresult, hmissed]

/-- The second attribute repeats the slot of the first, ends within a vertex and has a vertex less
than the first. -/
def threeViolations : List Event :=
  [.enterMesh, .block (.attribute 0 "ubyte" 1 "1 2"), .block (.attribute 0 "ubyte" 2 "3 4 5"),
   .block (.arrays "points" 0 1), .exitMesh]

/-- The repeated slot does not count here: neither policy enforces its check. -/
theorem compile_threeViolations :
    Options.lenient ≤ Options.standard ∧
      (∃ mesh, (compile .lenient threeViolations).result = .ok mesh) ∧
      missed .lenient .standard (compile .lenient threeViolations).notes =
        [.partialVertex 0 2 3, .vertexCount 0 2 1] ∧
      (compile .standard threeViolations).result = .error (.violation (.partialVertex 0 2 3)) := by
  have hle : Options.lenient ≤ Options.standard := by
    intro check hlenient
    cases check <;> cases hlenient
  obtain ⟨-, hfirst⟩ := compile_of_stricter hle threeViolations
  exact ⟨hle, ⟨_, rfl⟩, rfl, hfirst _ _ rfl⟩

end MeshLayout
