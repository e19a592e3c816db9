/-
MeshLayout/Proofs/Lockstep.lean

A reader and the compiler that it serves, in step.

A compilation asks the reader for an event, pushes the event, and asks again
(`Course`).  Both see to the order of events for themselves.  But each event
that the reader gives may stand where the compiler is (`Handover.InOrder`),
and once it is taken the compiler is where the reader is: this one statement,
carried along the course, leaves the compiler nothing to say about the order.
It may still hold the content of a block against it.

At the end of the tokens only a reader that is behind the root element is
content, so the events that were handed over are then those of a whole
description.  Main result: `reader_keeps_order`.
-/
import MeshLayout.Proofs.Extension

namespace MeshLayout

/-! ### One item of a reader -/

namespace Reader

variable {reader next : Reader} {stage : Stage} {answers rest : List (Option Token)}

theorem next_cons_more (hreader : reader ≠ failed) {token : Token}
    (h : reader.feed (some token) = (next, .more)) :
    reader.next (some token :: rest) = next.next rest := by
  rw [Reader.next, if_neg hreader, h]

theorem next_cons_event (hreader : reader ≠ failed) {token : Token} {event : Event}
    (h : reader.feed (some token) = (next, .event event)) :
    reader.next (some token :: rest) = (some (.ok event), next, rest) := by
  rw [Reader.next, if_neg hreader, h]

theorem next_cons_fail (hreader : reader ≠ failed) {answer : Option Token} {e : Error}
    (h : reader.feed answer = fail e) :
    reader.next (answer :: rest) = (some (.error e), failed, rest) := by
  rw [Reader.next, if_neg hreader, h, fail]

theorem next_failed (answers : List (Option Token)) :
    failed.next answers = (none, failed, answers) := by
  cases answers <;> rfl

/-- Where there are no tokens, a reader is content behind the root element only. -/
theorem feed_none (h : reader.stage? = some stage) :
    (∃ e, reader.feed none = fail e) ∨ stage = .done ∧ reader.feed none = (done, .finished) := by
  cases reader with
  | root | mesh | block => exact .inl ⟨_, rfl⟩
  | done => exact .inr ⟨(Option.some.inj h).symm, rfl⟩
  | failed => cases h

/-- However many answers it takes, the next item of a reader at a stage is an event that may stand
there or an error, or there is none and the root element is closed. -/
theorem next_cases (h : reader.stage? = some stage) (answers : List (Option Token)) :
    (∃ event after rest, stage.after event = .ok after ∧
        reader.next answers = (some (.ok event), after.reader, rest)) ∨
      (∃ e rest, reader.next answers = (some (.error e), failed, rest)) ∨
      ∃ rest, stage = .done ∧ reader.next answers = (none, done, rest) := by
  induction answers generalizing reader with
  | nil =>
    rw [Reader.next, if_neg (ne_failed_iff.2 ⟨stage, h⟩), next.ask]
    rcases feed_none h with ⟨e, hfeed⟩ | ⟨hdone, hfeed⟩ <;> rw [hfeed]
    · exact .inr (.inl ⟨e, [], rfl⟩)
    · exact .inr (.inr ⟨[], hdone, rfl⟩)
  | cons answer rest ih =>
    have hreader := ne_failed_iff.2 ⟨stage, h⟩
    rcases answer with - | token
    · rcases feed_none h with ⟨e, hfeed⟩ | ⟨hdone, hfeed⟩
      · exact .inr (.inl ⟨e, rest, next_cons_fail hreader hfeed⟩)
      · refine .inr (.inr ⟨rest, hdone, ?_⟩)
        rw [Reader.next, if_neg hreader, hfeed]
    · rcases feed_at_cases h token with
        ⟨next, hnext, hfeed⟩ | ⟨event, after, hafter, hfeed⟩ | ⟨e, -, hfeed⟩
      · rw [next_cons_more hreader hfeed]
        exact ih hnext
      · exact .inl ⟨event, after, rest, hafter, next_cons_event hreader hfeed⟩
      · exact .inr (.inl ⟨e, rest, next_cons_fail hreader hfeed⟩)

theorem of_next_eq_none (h : reader.stage? = some stage)
    (hnext : reader.next answers = (none, next, rest)) : stage = .done ∧ next = done := by
  rcases next_cases h answers with
    ⟨event, after, rest, -, hitem⟩ | ⟨e, rest, hitem⟩ | ⟨rest, hdone, hitem⟩
  · cases hitem.symm.trans hnext
  · cases hitem.symm.trans hnext
  · cases hitem.symm.trans hnext
    exact ⟨hdone, rfl⟩

end Reader

/-! ### The course of a compilation -/

/-- An event on its way from a reader to a compiler. -/
structure Handover where
  event : Event
  /-- the reader, once it has given the event -/
  reader : Reader
  /-- the compiler that the event is pushed to -/
  compiler : Compiler

/-- What comes of pushing the event. -/
def Handover.outcome (h : Handover) : Logged Error Compiler := (h.compiler.push h.event).next

/-- How a compilation ends. -/
inductive Ending where
  /-- the reader has failed -/
  | unread (e : Error)
  /-- the compiler has refused an event -/
  | refused (e : Error)
  /-- the reader has no more events, and the compiler has been asked for the mesh -/
  | finished (result : Except Error Mesh)

/-- The result of the compilation. -/
def Ending.result : Ending → Except Error Mesh
  | unread e | refused e => .error e
  | finished result => result

/-- From here on, these are the handovers of a compilation, and this is its end. -/
inductive Course : Pipeline → List (Option Token) → List Handover → Ending → Prop
  | unread {p : Pipeline} {answers rest : List (Option Token)} {e : Error} {reader : Reader}
      (hnext : p.reader.next answers = (some (.error e), reader, rest)) :
      Course p answers [] (.unread e)
  | refused {p : Pipeline} {answers rest : List (Option Token)} {event : Event} {reader : Reader}
      {e : Error} (hnext : p.reader.next answers = (some (.ok event), reader, rest))
      (hpush : (p.compiler.push event).next.result = .error e) :
      Course p answers [⟨event, reader, p.compiler⟩] (.refused e)
  | taken {p : Pipeline} {answers rest : List (Option Token)} {event : Event} {reader : Reader}
      {c : Compiler} {handovers : List Handover} {ending : Ending}
      (hnext : p.reader.next answers = (some (.ok event), reader, rest))
      (hpush : (p.compiler.push event).next.result = .ok c)
      (hrest : Course ⟨reader, c⟩ rest handovers ending) :
      Course p answers (⟨event, reader, p.compiler⟩ :: handovers) ending
  | finished {p : Pipeline} {answers rest : List (Option Token)} {reader : Reader}
      (hnext : p.reader.next answers = (none, reader, rest)) :
      Course p answers [] (.finished p.compiler.finish.result)

namespace Course

variable {p q : Pipeline} {answers answers' : List (Option Token)} {tokens : List Token}
  {handovers handovers' : List Handover} {ending ending' : Ending} {stage : Stage}

/-- The course is a matter of the items that the reader gives. -/
theorem of_next_eq (h : Course p answers handovers ending)
    (hnext : q.reader.next answers' = p.reader.next answers) (hcompiler : q.compiler = p.compiler) :
    Course q answers' handovers ending := by
  cases h with
  | unread h => exact .unread (hnext.trans h)
  | refused h hpush =>
    rw [← hcompiler] at hpush ⊢
    exact .refused (hnext.trans h) hpush
  | taken h hpush hrest =>
    rw [← hcompiler] at hpush ⊢
    exact .taken (hnext.trans h) hpush hrest
  | finished h =>
    rw [← hcompiler]
    exact .finished (hnext.trans h)

/-- There is a course for any tokens, and it ends with what they come to. -/
theorem exists_of_tokens (h : p.reader.stage? = some stage) (tokens : List Token) :
    ∃ handovers ending, Course p (tokens.map some) handovers ending ∧
      (p.takeAll tokens >>= Pipeline.close).result = ending.result := by
  induction tokens generalizing p stage with
  | nil =>
    obtain ⟨reader, c⟩ := p
    cases reader with
    | root | mesh | block => exact ⟨[], _, .unread rfl, rfl⟩
    | done => exact ⟨[], _, .finished rfl, rfl⟩
    | failed => cases h
  | cons token rest ih =>
    have hreader := Reader.ne_failed_iff.2 ⟨stage, h⟩
    rcases Reader.feed_at_cases h token with
      ⟨next, hnext, hfeed⟩ | ⟨event, after, -, hfeed⟩ | ⟨e, -, hfeed⟩
    · obtain ⟨handovers, ending, hcourse, hresult⟩ := ih (p := ⟨next, p.compiler⟩) hnext
      refine ⟨handovers, ending, hcourse.of_next_eq (Reader.next_cons_more hreader hfeed) rfl, ?_⟩
      rw [Pipeline.takeAll, Pipeline.take_of_more hfeed]
      exact hresult
    · have hitem : p.reader.next ((token :: rest).map some) =
          (some (.ok event), after.reader, rest.map some) := Reader.next_cons_event hreader hfeed
      rw [Pipeline.takeAll, Pipeline.take_of_event hfeed]
      simp only [Logged.bind_assoc]
      -- the next event is asked for only if this one has been taken
      rcases hpush : (p.compiler.push event).next.result with e | c
      · exact ⟨_, _, .refused hitem hpush, Logged.result_bind_of_error hpush⟩
      · obtain ⟨handovers, ending, hcourse, hresult⟩ :=
          ih (p := ⟨after.reader, c⟩) (Reader.stage?_reader after)
        exact ⟨_, ending, .taken hitem hpush hcourse,
          (Logged.result_bind_of_ok hpush).trans hresult⟩
    · refine ⟨[], .unread e, .unread (Reader.next_cons_fail hreader hfeed), ?_⟩
      rw [Pipeline.takeAll, Pipeline.take_of_fail hfeed]
      rfl

/-- There is no other. -/
theorem unique (h : Course p answers handovers ending) (h' : Course p answers handovers' ending') :
    handovers = handovers' ∧ ending = ending' := by
  induction h generalizing handovers' ending' with
  | unread hnext =>
    cases h' with
    | unread hnext' =>
      cases hnext.symm.trans hnext'
      exact ⟨rfl, rfl⟩
    | refused hnext' | taken hnext' | finished hnext' => cases hnext.symm.trans hnext'
  | refused hnext hpush =>
    cases h' with
    | refused hnext' hpush' =>
      cases hnext.symm.trans hnext'
      cases hpush.symm.trans hpush'
      exact ⟨rfl, rfl⟩
    | taken hnext' hpush' =>
      cases hnext.symm.trans hnext'
      cases hpush.symm.trans hpush'
    | unread hnext' | finished hnext' => cases hnext.symm.trans hnext'
  | taken hnext hpush _ ih =>
    cases h' with
    | taken hnext' hpush' hrest' =>
      cases hnext.symm.trans hnext'
      cases hpush.symm.trans hpush'
      obtain ⟨rfl, rfl⟩ := ih hrest'
      exact ⟨rfl, rfl⟩
    | refused hnext' hpush' =>
      cases hnext.symm.trans hnext'
      cases hpush.symm.trans hpush'
    | unread hnext' | finished hnext' => cases hnext.symm.trans hnext'
  | finished hnext =>
    cases h' with
    | finished hnext' =>
      cases hnext.symm.trans hnext'
      exact ⟨rfl, rfl⟩
    | unread hnext' | refused hnext' | taken hnext' => cases hnext.symm.trans hnext'

end Course

/-! ### In step -/

/-- The reader has come as far as the compiler. -/
def Pipeline.InStep (p : Pipeline) : Prop := p.reader.stage? = some p.compiler.stage

/-- The event may stand where the compiler is, and leads to where the reader is. -/
def Handover.InOrder (h : Handover) : Prop :=
  ∃ after, h.compiler.stage.after h.event = .ok after ∧ h.reader = after.reader

/-- **What a reader in step hands over** is in order. -/
theorem Pipeline.InStep.handover {p : Pipeline} (hp : p.InStep) {answers rest : List (Option Token)}
    {event : Event} {reader : Reader}
    (hnext : p.reader.next answers = (some (.ok event), reader, rest)) :
    Handover.InOrder ⟨event, reader, p.compiler⟩ := by
  rcases Reader.next_cases hp answers with
    ⟨event, after, rest, hafter, hitem⟩ | ⟨e, rest, hitem⟩ | ⟨rest, -, hitem⟩
  · cases hitem.symm.trans hnext
    exact ⟨after, hafter, rfl⟩
  · cases hitem.symm.trans hnext
  · cases hitem.symm.trans hnext

namespace Handover.InOrder

variable {h : Handover} {c : Compiler}

/-- A compiler that takes the event comes to where the reader is. -/
theorem of_ok (horder : h.InOrder) (hok : h.outcome.result = .ok c) :
    h.compiler.stage.after h.event = .ok c.stage ∧ h.reader = c.stage.reader := by
  obtain ⟨after, hafter, hreader⟩ := horder
  have htakes := Compiler.push_next_eq_ok_iff.1 hok
  obtain rfl : after = c.stage := Except.ok.inj (hafter.symm.trans htakes.after)
  exact ⟨hafter, hreader⟩

theorem inStep (horder : h.InOrder) (hok : h.outcome.result = .ok c) :
    Pipeline.InStep ⟨h.reader, c⟩ := by
  rw [Pipeline.InStep, (horder.of_ok hok).2, Reader.stage?_reader]

/-- A compiler that refuses the event does so for its content. -/
theorem failsWith (horder : h.InOrder) : FailsWith Error.OfContent h.outcome.result := by
  obtain ⟨after, hafter, -⟩ := horder
  rw [Handover.outcome, Compiler.next_push, Compiler.respond, hafter]
  apply Logged.failsWith_bind (.ok after)
  intro stage
  rcases h.event with - | block | -
  · exact .ok _
  · exact Logged.failsWith_bind (h.compiler.failsWith_examine block) fun content => .ok _
  · exact .ok _

end Handover.InOrder

namespace Course

variable {p : Pipeline} {answers : List (Option Token)} {handovers : List Handover}
  {ending : Ending}

/-- **In step to the end**: every event of a course is handed over in order. -/
theorem inOrder (h : Course p answers handovers ending) (hp : p.InStep) :
    ∀ handover ∈ handovers, handover.InOrder := by
  induction h with
  | unread | finished => exact List.forall_mem_nil _
  | refused hnext => exact List.forall_mem_singleton.2 (hp.handover hnext)
  | taken hnext hpush _ ih =>
    have horder := hp.handover hnext
    exact List.forall_mem_cons.2 ⟨horder, ih (horder.inStep hpush)⟩

end Course

/-! ### The events of a course -/

/-- The events that tell blocks, from a stage on to the end of the description. -/
def Stage.outline (blocks : List Block) : Stage → List Event
  | .root => .enterMesh :: closingEvents blocks
  | .mesh => closingEvents blocks
  | .done => []

/-- An event that may stand there is the next of a description. -/
theorem Stage.exists_outline {stage after : Stage} {event : Event}
    (h : stage.after event = .ok after) (blocks : List Block) :
    ∃ blocks', stage.outline blocks' = event :: after.outline blocks := by
  rcases stage with - | - | - <;> rcases event with - | block | - <;> cases h
  · exact ⟨blocks, rfl⟩
  · exact ⟨block :: blocks, rfl⟩
  · exact ⟨[], rfl⟩

/-! ### Errors of order -/

namespace Error

/-- Something stands where it may not, or the description breaks off. -/
inductive OfOrder : Error → Prop
  | missingRoot (found : Found) : OfOrder (.missingRoot found)
  | unexpectedTag (inside : Element) (found : String) : OfOrder (.unexpectedTag inside found)
  | trailingContent : OfOrder .trailingContent
  | unexpectedEnd : OfOrder .unexpectedEnd

variable {e : Error}

theorem OfContent.not_ofOrder (h : e.OfContent) : ¬ e.OfOrder := by
  rintro (_ | _ | _ | _) <;> cases h

theorem OfOrder.eq_unexpectedEnd (h : e.OfOrder) (hend : e.AtEnd) : e = .unexpectedEnd := by
  cases hend with
  | unexpectedEnd => rfl
  | noAttributes | noCommands => cases h

end Error

/-- Behind the root element, the description is not found broken off. -/
theorem Compiler.finish_ne_unexpectedEnd {c : Compiler} (h : c.stage = .done) :
    c.finish.result ≠ .error .unexpectedEnd := by
  rw [finish, Logged.result_bind_of_ok (Logged.require_of_true (by simp [h]))]
  rcases c.attributes with - | ⟨a, attributes⟩
  · exact fun hresult => by cases hresult
  · rcases c.commands with - | ⟨command, commands⟩ <;> exact fun hresult => by cases hresult

namespace Course

variable {p : Pipeline} {answers : List (Option Token)} {handovers : List Handover}
  {ending : Ending}

/-- The events are the beginning of a description, and the whole of one if the reader comes to the
end. -/
theorem exists_outline (h : Course p answers handovers ending) (hp : p.InStep) :
    ∃ blocks rest, p.compiler.stage.outline blocks = handovers.map Handover.event ++ rest ∧
      ∀ result, ending = .finished result → rest = [] := by
  induction h with
  | unread => exact ⟨[], _, rfl, nofun⟩
  | refused hnext =>
    obtain ⟨after, hafter, -⟩ := hp.handover hnext
    obtain ⟨blocks, houtline⟩ := Stage.exists_outline hafter []
    exact ⟨blocks, _, houtline, nofun⟩
  | taken hnext hpush _ ih =>
    have horder := hp.handover hnext
    obtain ⟨blocks, rest, houtline, hrest⟩ := ih (horder.inStep hpush)
    obtain ⟨blocks', houtline'⟩ := Stage.exists_outline (horder.of_ok hpush).1 blocks
    refine ⟨blocks', rest, ?_, hrest⟩
    rw [houtline', houtline]
    rfl
  | finished hnext =>
    obtain ⟨hdone, -⟩ := Reader.of_next_eq_none hp hnext
    refine ⟨[], [], ?_, fun _ _ => rfl⟩
    rw [hdone]
    rfl

/-- **The reader finds the errors of order.** -/
theorem eq_unread (h : Course p answers handovers ending) (hp : p.InStep) {e : Error}
    (he : e.OfOrder) (hresult : ending.result = .error e) : ending = .unread e := by
  induction h with
  | unread =>
    cases hresult
    rfl
  | refused hnext hpush =>
    cases hresult
    have hcontent := (hp.handover hnext).failsWith.of_error hpush
    exact absurd he hcontent.not_ofOrder
  | taken hnext hpush _ ih => exact ih ((hp.handover hnext).inStep hpush) hresult
  | @finished p _ _ _ hnext =>
    -- what a compiler misses at the end is the end itself or some content
    obtain ⟨hdone, -⟩ := Reader.of_next_eq_none hp hnext
    obtain rfl := he.eq_unexpectedEnd (p.compiler.failsWith_finish.of_error hresult)
    exact absurd hresult (Compiler.finish_ne_unexpectedEnd hdone)

end Course

/-! ### Whole compilations -/

/-- **A reader keeps the order for its compiler.**  The events that are handed over are always the
beginning of a description, and all of one if the reader comes to the end without an error.  Once
an event is taken, reader and compiler are at the same stage.  So no push and no `finish` finds
anything wrong with the order, and a compilation that ends with such an error has it from the
reader. -/
theorem reader_keeps_order (options : Options) (tokens : List Token) :
    (∃ handovers ending, Course (.start options) (tokens.map some) handovers ending) ∧
      ∀ handovers ending, Course (.start options) (tokens.map some) handovers ending →
        (compileTokens options tokens).result = ending.result ∧
        (∃ blocks : List Block, handovers.map Handover.event <+:
          .enterMesh :: (blocks.map .block ++ [.exitMesh])) ∧
        (∀ h ∈ handovers, ∀ c, h.outcome.result = .ok c → h.reader = c.stage.reader) ∧
        (∀ h ∈ handovers, ∀ e, h.outcome.result = .error e → ¬ e.OfOrder) ∧
        (∀ result, ending = .finished result → result ≠ .error .unexpectedEnd ∧
          ∃ blocks : List Block, handovers.map Handover.event =
            .enterMesh :: (blocks.map .block ++ [.exitMesh])) ∧
        ∀ e, e.OfOrder → (compileTokens options tokens).result = .error e →
          ending = .unread e := by
  have hstart : (Pipeline.start options).InStep := rfl
  obtain ⟨handovers, ending, hcourse, hresult⟩ := Course.exists_of_tokens hstart tokens
  rw [← Pipeline.compileTokens_eq] at hresult
  refine ⟨⟨handovers, ending, hcourse⟩, ?_⟩
  intro handovers' ending' hcourse'
  obtain ⟨rfl, rfl⟩ := hcourse.unique hcourse'
  obtain ⟨blocks, rest, houtline, hrest⟩ := hcourse.exists_outline hstart
  refine ⟨hresult, ⟨blocks, rest, houtline.symm⟩, ?_, ?_, ?_, ?_⟩
  · intro h hmem c hok
    exact ((hcourse.inOrder hstart h hmem).of_ok hok).2
  · intro h hmem e herror
    exact ((hcourse.inOrder hstart h hmem).failsWith.of_error herror).not_ofOrder
  · rintro result rfl
    refine ⟨?_, blocks, ?_⟩
    · rintro rfl
      cases hcourse.eq_unread hstart .unexpectedEnd rfl
    · rw [hrest result rfl, List.append_nil] at houtline
      exact houtline.symm
  · intro e he herror
    exact hcourse.eq_unread hstart he (hresult.symm.trans herror)

/-- A description with a second closing tag. -/
def closedTwice : List Token := attributeAlone ++ [.closing "mesh"]

/-- The second closing tag comes after the compiler has taken the whole description, and it is the
reader that turns it down. -/
theorem order_closedTwice :
    ∃ handovers, Course (.start .strict) (closedTwice.map some) handovers
        (.unread .trailingContent) ∧
      (∀ h ∈ handovers, ∀ c, h.outcome.result = .ok c → h.reader = c.stage.reader) ∧
      ∃ blocks : List Block,
        handovers.map Handover.event <+: .enterMesh :: (blocks.map .block ++ [.exitMesh]) := by
  have htrailing : (compileTokens .strict closedTwice).result = .error .trailingContent := rfl
  obtain ⟨⟨handovers, ending, hcourse⟩, hcourses⟩ := reader_keeps_order .strict closedTwice
  obtain ⟨-, hevents, hstages, -, -, herrors⟩ := hcourses handovers ending hcourse
  obtain rfl := herrors _ .trailingContent htrailing
  exact ⟨handovers, hcourse, hstages, hevents⟩

end MeshLayout
