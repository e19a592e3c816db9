/-
MeshLayout/Proofs/Extension.lean

Tokens behind the tokens.

A reader and the compiler behind it are one machine, which sees each token
once and has then done with it all that it ever will (`Pipeline`).  So it
comes equally far with tokens whatever stands behind them (`takeAll_append`),
and an error that a token has brought up stays.  The errors that are told at
the end of the tokens are of another kind (`Error.AtEnd`), and only these can
be overcome by further tokens.

Behind the root element the machine stays as it is at blank text, and
anything else is an error.  Main result: `compileTokens_append`.
-/
import MeshLayout.Proofs.Grammar

namespace MeshLayout

/-! ### Reader and compiler together -/

/-- A token reader, and the compiler that its events go to. -/
structure Pipeline where
  reader : Reader
  compiler : Compiler

namespace Pipeline

/-- Before the first token. -/
def start (options : Options) : Pipeline := ⟨.root, .start options⟩

/-- Takes a token, and pushes the event that it completes, if there is one. -/
def take (p : Pipeline) (token : Token) : Logged Error Pipeline :=
  match p.reader.feed (some token) with
  | (reader, .event event) => do
    let c ← (p.compiler.push event).next
    return ⟨reader, c⟩
  | (_, .error e) => Logged.fail e
  | (reader, _) => return ⟨reader, p.compiler⟩

/-- Takes tokens up to the first error. -/
def takeAll (p : Pipeline) : List Token → Logged Error Pipeline
  | [] => pure p
  | token :: rest => do
    let p ← p.take token
    p.takeAll rest

/-- What the description comes to if there are no more tokens. -/
def close (p : Pipeline) : Logged Error Mesh :=
  if p.reader = .done then p.compiler.finish else Logged.fail .unexpectedEnd

variable {p : Pipeline} {token : Token} {tokens more : List Token}

section Take

variable {next : Reader}

theorem take_of_more (h : p.reader.feed (some token) = (next, .more)) :
    p.take token = pure ⟨next, p.compiler⟩ := by
  rw [take, h]

theorem take_of_event {event : Event} (h : p.reader.feed (some token) = (next, .event event)) :
    p.take token = (p.compiler.push event).next >>= fun c => pure ⟨next, c⟩ := by
  rw [take, h]

theorem take_of_fail {e : Error} (h : p.reader.feed (some token) = Reader.fail e) :
    p.take token = Logged.fail e := by
  rw [take, h]
  rfl

end Take

/-- **The machine is the reader with the compiler behind it.** -/
theorem takeAll_close (h : p.reader ≠ .failed) :
    p.takeAll tokens >>= close =
      p.compiler.pushItems (p.reader.itemsFrom tokens) >>= Compiler.finish := by
  induction tokens generalizing p with
  | nil =>
    obtain ⟨reader, c⟩ := p
    cases reader with
    | root | mesh | block | done => rfl
    | failed => exact absurd rfl h
  | cons token rest ih =>
    rcases Reader.feed_some_cases h token with
      ⟨next, hnext, hfeed⟩ | ⟨next, event, hnext, hfeed⟩ | ⟨e, -, hfeed⟩
    · rw [takeAll, take_of_more hfeed, Reader.itemsFrom_cons_more hfeed]
      exact ih hnext
    · rw [takeAll, take_of_event hfeed, Reader.itemsFrom_cons_event hfeed]
      show _ = ((p.compiler.push event).next >>= fun c => c.pushItems _) >>= Compiler.finish
      simp only [Logged.bind_assoc]
      -- the compiler goes on only if it has taken the event
      apply Logged.bind_congr
      intro c _
      exact ih (p := ⟨next, c⟩) hnext
    · rw [takeAll, take_of_fail hfeed, Reader.itemsFrom_cons_error hfeed]
      rfl

theorem compileTokens_eq (options : Options) (tokens : List Token) :
    compileTokens options tokens = (start options).takeAll tokens >>= close :=
  (takeAll_close (p := start options) nofun).symm

/-- Tokens are taken as if nothing stood behind them. -/
theorem takeAll_append : p.takeAll (tokens ++ more) = p.takeAll tokens >>= (·.takeAll more) := by
  induction tokens generalizing p with
  | nil => rfl
  | cons token rest ih =>
    rw [List.cons_append, takeAll, takeAll, Logged.bind_assoc]
    apply Logged.bind_congr
    intro q _
    exact ih

/-! ### Errors of tokens and errors at the end -/

theorem failsWith_take (p : Pipeline) (token : Token) :
    FailsWith (fun e => ¬ e.AtEnd) (p.take token).result := by
  by_cases hfailed : p.reader = .failed
  · rw [take, hfailed]
    exact .ok _
  rcases Reader.feed_some_cases hfailed token with
    ⟨next, -, hfeed⟩ | ⟨next, event, -, hfeed⟩ | ⟨e, hmarkup, hfeed⟩
  · rw [take_of_more hfeed]
    exact .ok _
  · rw [take_of_event hfeed]
    have hpush : FailsWith (fun e => ¬ e.AtEnd) (p.compiler.push event).next.result := by
      apply (p.compiler.failsWith_push event).imp
      rintro e (hmarkup | hcontent)
      · exact hmarkup.not_atEnd
      · exact hcontent.not_atEnd
    exact Logged.failsWith_bind hpush fun c => .ok _
  · rw [take_of_fail hfeed]
    exact .error hmarkup.not_atEnd

theorem failsWith_takeAll (p : Pipeline) (tokens : List Token) :
    FailsWith (fun e => ¬ e.AtEnd) (p.takeAll tokens).result := by
  induction tokens generalizing p with
  | nil => exact .ok p
  | cons token rest ih => exact Logged.failsWith_bind (p.failsWith_take token) ih

theorem failsWith_close (p : Pipeline) : FailsWith Error.AtEnd p.close.result := by
  rw [close]
  split_ifs
  · exact p.compiler.failsWith_finish
  · exact .error .unexpectedEnd

/-! ### Behind the root element -/

variable {c : Compiler}

theorem take_done_of_blank (h : token.IsBlank) :
    (Pipeline.mk .done c).take token = pure ⟨.done, c⟩ := by
  match token, h with
  | .text text, h =>
    apply take_of_more
    exact if_pos (Token.isBlank_text.1 h)

theorem take_done_of_not_blank (h : ¬ token.IsBlank) :
    (Pipeline.mk .done c).take token = Logged.fail .trailingContent := by
  match token, h with
  | .opening .., _ | .closing .., _ => rfl
  | .text text, h =>
    rw [Token.isBlank_text] at h
    apply take_of_fail
    exact if_neg h

theorem takeAll_done_of_blank (h : ∀ token ∈ more, token.IsBlank) :
    (Pipeline.mk .done c).takeAll more = pure ⟨.done, c⟩ := by
  induction more with
  | nil => rfl
  | cons token rest ih =>
    obtain ⟨hblank, hrest⟩ := List.forall_mem_cons.1 h
    rw [takeAll, take_done_of_blank hblank]
    exact ih hrest

theorem takeAll_done_of_not_blank (h : ¬ ∀ token ∈ more, token.IsBlank) :
    (Pipeline.mk .done c).takeAll more = Logged.fail .trailingContent := by
  induction more with
  | nil => exact absurd (List.forall_mem_nil _) h
  | cons token rest ih =>
    rw [List.forall_mem_cons, not_and] at h
    by_cases hblank : token.IsBlank
    · rw [takeAll, take_done_of_blank hblank]
      exact ih (h hblank)
    · rw [takeAll, take_done_of_not_blank hblank]
      rfl

end Pipeline

/-! ### Whole documents -/

variable {options : Options} {tokens : List Token} {outcome : Except Error Mesh}

/-- An error that is not told at the end has been brought up by a token. -/
theorem takeAll_of_error {e : Error} (h : (compileTokens options tokens).result = .error e)
    (he : ¬ e.AtEnd) : ((Pipeline.start options).takeAll tokens).result = .error e := by
  rw [Pipeline.compileTokens_eq] at h
  rcases htake : ((Pipeline.start options).takeAll tokens).result with e' | p
  · rw [Logged.result_bind_of_error htake] at h
    rw [Except.error.inj h]
  · rw [Logged.result_bind_of_ok htake] at h
    exact absurd (p.failsWith_close.of_error h) he

/-- Tokens that lack an attribute or a command, if anything, reach to the end of the root
element. -/
theorem takeAll_of_ended (h : (compileTokens options tokens).result = outcome)
    (houtcome : ∀ e, outcome = .error e → e = .noAttributes ∨ e = .noCommands) :
    ∃ c : Compiler, ((Pipeline.start options).takeAll tokens).result = .ok ⟨.done, c⟩ ∧
      c.finish.result = outcome := by
  rw [Pipeline.compileTokens_eq] at h
  rcases htake : ((Pipeline.start options).takeAll tokens).result with e | ⟨reader, c⟩
  · rw [Logged.result_bind_of_error htake] at h
    have hnot := (Pipeline.failsWith_takeAll _ tokens).of_error htake
    exact absurd (Error.atEnd_iff.2 (.inr (houtcome e h.symm))) hnot
  · rw [Logged.result_bind_of_ok htake, Pipeline.close] at h
    split_ifs at h with hdone
    · obtain rfl : reader = .done := hdone
      exact ⟨c, rfl, h⟩
    · rcases houtcome .unexpectedEnd h.symm with he | he <;> cases he

/-- Whatever the outcome at the end, blank text leaves it and anything else is an error. -/
theorem result_append_of_ended (h : (compileTokens options tokens).result = outcome)
    (houtcome : ∀ e, outcome = .error e → e = .noAttributes ∨ e = .noCommands)
    (more : List Token) :
    ((∀ token ∈ more, token.IsBlank) →
        (compileTokens options (tokens ++ more)).result = outcome) ∧
      ((¬ ∀ token ∈ more, token.IsBlank) →
        (compileTokens options (tokens ++ more)).result = .error .trailingContent) := by
  obtain ⟨c, htake, hfinish⟩ := takeAll_of_ended h houtcome
  rw [Pipeline.compileTokens_eq, Pipeline.takeAll_append, Logged.bind_assoc,
    Logged.result_bind_of_ok htake]
  constructor
  · intro hblank
    rw [Pipeline.takeAll_done_of_blank hblank]
    exact hfinish
  · intro hmore
    rw [Pipeline.takeAll_done_of_not_blank hmore]
    rfl

/-- **Further tokens change nothing but what is told at the end.**  An error that the tokens bring
up stays, whatever stands behind them.  Behind the root element, whether the description lacks
something or not, blank text makes no difference, and anything else is trailing content. -/
theorem compileTokens_append (options : Options) (tokens more : List Token) :
    (∀ e, (compileTokens options tokens).result = .error e →
        e ≠ .unexpectedEnd → e ≠ .noAttributes → e ≠ .noCommands →
        (compileTokens options (tokens ++ more)).result = .error e) ∧
      (∀ mesh, (compileTokens options tokens).result = .ok mesh →
        ((∀ token ∈ more, token.IsBlank) →
          (compileTokens options (tokens ++ more)).result = .ok mesh) ∧
        ((¬ ∀ token ∈ more, token.IsBlank) →
          (compileTokens options (tokens ++ more)).result = .error .trailingContent)) ∧
      ∀ e, e = .noAttributes ∨ e = .noCommands →
        (compileTokens options tokens).result = .error e →
        ((∀ token ∈ more, token.IsBlank) →
          (compileTokens options (tokens ++ more)).result = .error e) ∧
        ((¬ ∀ token ∈ more, token.IsBlank) →
          (compileTokens options (tokens ++ more)).result = .error .trailingContent) := by
  refine ⟨?_, ?_, ?_⟩
  · intro e h hend hattributes hcommands
    have he : ¬ e.AtEnd := by
      rw [Error.atEnd_iff]
      simp [hend, hattributes, hcommands]
    have htake := takeAll_of_error h he
    rw [Pipeline.compileTokens_eq, Pipeline.takeAll_append, Logged.bind_assoc]
    exact Logged.result_bind_of_error htake
  · intro mesh h
    exact result_append_of_ended h nofun more
  · intro e he h
    apply result_append_of_ended h
    rintro _ ⟨⟩
    exact he

/-- A description that lacks a command. -/
def attributeAlone : List Token :=
  [.opening "mesh" [],
   .opening "attribute" [("index", "0"), ("type", "ubyte"), ("size", "1")], .text "7",
   .closing "attribute", .closing "mesh"]

/-- Only blanks may stand behind a description, what stands behind does not supply a command, and a
wrong root element is not made good. -/
theorem compileTokens_append_scattered :
    (∃ mesh, (compileTokens .strict scattered).result = .ok mesh ∧
      (compileTokens .strict (scattered ++ [.text " ", .text ""])).result = .ok mesh ∧
      (compileTokens .strict (scattered ++ scattered)).result = .error .trailingContent) ∧
      ((compileTokens .strict (attributeAlone ++ [.text "\n"])).result = .error .noCommands ∧
        (compileTokens .strict (attributeAlone ++ scattered)).result = .error .trailingContent) ∧
      (compileTokens .strict (.opening "vertex" [] :: scattered)).result =
        .error (.missingRoot (.opening "vertex")) := by
  have hblank : ∀ text, isBlankText text = true → Token.IsBlank (.text text) :=
    fun text h => Token.isBlank_text.2 h
  have hscattered : ¬ ∀ token ∈ scattered, token.IsBlank := by
    intro h
    exact (h (.closing "mesh") (by decide)).elim
  have hmesh : (compileTokens .strict scattered).result = .ok _ := rfl
  have hcommands : (compileTokens .strict attributeAlone).result = .error .noCommands := rfl
  have hroot : (compileTokens .strict [.opening "vertex" []]).result =
      .error (.missingRoot (.opening "vertex")) := rfl
  obtain ⟨-, hok, -⟩ := compileTokens_append .strict scattered [.text " ", .text ""]
  obtain ⟨-, hok', -⟩ := compileTokens_append .strict scattered scattered
  obtain ⟨-, -, hend⟩ := compileTokens_append .strict attributeAlone [.text "\n"]
  obtain ⟨-, -, hend'⟩ := compileTokens_append .strict attributeAlone scattered
  obtain ⟨herror, -, -⟩ := compileTokens_append .strict [.opening "vertex" []] scattered
  refine ⟨⟨_, hmesh, (hok _ hmesh).1 ?_, (hok' _ hmesh).2 hscattered⟩, ⟨?_, ?_⟩, ?_⟩
  · rw [List.forall_mem_cons, List.forall_mem_singleton]
    exact ⟨hblank _ (by decide), hblank _ (by decide)⟩
  · apply (hend _ (.inr rfl) hcommands).1
    rw [List.forall_mem_singleton]
    exact hblank _ (by decide)
  · exact (hend' _ (.inr rfl) hcommands).2 hscattered
  · exact herror _ hroot nofun nofun nofun

end MeshLayout
