/-
MeshLayout/Proofs/Rendering.lean

A description compiles in the same way from its events and from its tokens.

The order of events is checked twice: a token reader checks it and a
compiler checks it again.  `Stage.after` says once what both do with an
event at a stage of the description.  The reader gives the event back, or
reports the error that `Stage.after` names (`itemsFrom_tokens`); so does the
compiler (`push_of_disorder`, `Takes.after`).  The two therefore stay at the
same stage as long as nothing fails.

Numbers pass through decimal numerals on the way (`lookupNumber_toString`).
-/
import MeshLayout.Proofs.Push
import MeshLayout.Proofs.Tags

namespace MeshLayout

/-! ### Reading blocks -/

/-- A number that is written into a tag is read from it again. -/
theorem lookupNumber_toString {tag : Element} {key : String} {attributes : List (String × String)}
    {n : UInt32} (h : lookup tag key attributes = .ok (toString n.toNat)) :
    lookupNumber tag key attributes = .ok n := by
  have hvalue := lookup_eq_ok_iff.1 h
  exact lookupNumber_eq_ok_iff.2 ⟨toString n.toNat, hvalue, numeral_toString n⟩

/-- What the opening tag of a block says. -/
def Block.header : Block → Header
  | .attribute slot typeName components _ => .attribute slot typeName components
  | .indices primitiveName typeName _ => .indices primitiveName typeName
  | .arrays primitiveName first count => .arrays primitiveName first count

theorem Header.ofTag_tag (b : Block) : ofTag b.element.name b.tag = .ok b.header := by
  match b with
  | .attribute slot typeName components text =>
    have hslot : lookupNumber .attribute "index"
        (Block.attribute slot typeName components text).tag = .ok slot :=
      lookupNumber_toString rfl
    have hcomponents : lookupNumber .attribute "size"
        (Block.attribute slot typeName components text).tag = .ok components :=
      lookupNumber_toString rfl
    rw [ofTag, if_pos (by rfl), hslot, hcomponents]
    rfl
  | .indices .. => rfl
  | .arrays primitiveName first count =>
    have hfirst : lookupNumber .arrays "start"
        (Block.arrays primitiveName first count).tag = .ok first := lookupNumber_toString rfl
    have hcount : lookupNumber .arrays "count"
        (Block.arrays primitiveName first count).tag = .ok count := lookupNumber_toString rfl
    show ofTag "arrays" _ = _
    rw [ofTag, if_neg (by decide), if_neg (by decide), if_pos (by rfl), hfirst, hcount]
    rfl

namespace Reader

theorem itemsFrom_cons_more {reader next : Reader} {token : Token} {rest : List Token}
    (h : reader.feed (some token) = (next, .more)) :
    reader.itemsFrom (token :: rest) = next.itemsFrom rest := by
  rw [itemsFrom, h]

theorem itemsFrom_cons_event {reader next : Reader} {token : Token} {rest : List Token}
    {event : Event} (h : reader.feed (some token) = (next, .event event)) :
    reader.itemsFrom (token :: rest) = .ok event :: next.itemsFrom rest := by
  rw [itemsFrom, h]

theorem itemsFrom_cons_error {reader next : Reader} {token : Token} {rest : List Token}
    {e : Error} (h : reader.feed (some token) = (next, .error e)) :
    reader.itemsFrom (token :: rest) = [.error e] := by
  rw [itemsFrom, h]

/-- The text of a block is collected behind the empty text that a block starts with. -/
theorem itemsFrom_inner (b : Block) (rest : List Token) :
    itemsFrom (block b.header "") (b.inner ++ .closing b.element.name :: rest) =
      .ok (.block b) :: itemsFrom mesh rest := by
  match b with
  | .attribute .. | .indices .. =>
    rw [Block.inner, List.cons_append, List.nil_append, itemsFrom_cons_more rfl,
      String.empty_append]
    exact itemsFrom_cons_event rfl
  | .arrays .. => exact itemsFrom_cons_event rfl

/-- In the root element, a block that is written is read again. -/
theorem itemsFrom_block (b : Block) (rest : List Token) :
    itemsFrom mesh (b.tokens ++ rest) = .ok (.block b) :: itemsFrom mesh rest := by
  have hopen : feed mesh (some (.opening b.element.name b.tag)) = (block b.header "", .more) := by
    rw [feed, feedMesh, Header.ofTag_tag]
  rw [Block.tokens, List.cons_append, itemsFrom_cons_more hopen, List.append_assoc]
  exact itemsFrom_inner b rest

end Reader

/-! ### Readers and stages -/

/-- The reader that has come as far as a stage. -/
def Stage.reader : Stage → Reader
  | .root => .root
  | .mesh => .mesh
  | .done => .done

/-- A reader gives an event back if it may stand there, and otherwise says what is wrong. -/
theorem Reader.itemsFrom_tokens (stage : Stage) (event : Event) (rest : List Token) :
    stage.reader.itemsFrom (event.tokens ++ rest) =
      match stage.after event with
      | .ok next => .ok event :: next.reader.itemsFrom rest
      | .error e => [.error e] := by
  rcases stage with - | - | -
  · rcases event with - | block | -
    · exact itemsFrom_cons_event rfl
    · -- whatever the block, its first token is the opening tag
      match block with
      | .attribute .. | .indices .. | .arrays .. => exact itemsFrom_cons_error rfl
    · exact itemsFrom_cons_error rfl
  · rcases event with - | block | -
    · exact itemsFrom_cons_error rfl
    · exact itemsFrom_block block rest
    · exact itemsFrom_cons_event rfl
  · rcases event with - | block | -
    · exact itemsFrom_cons_error rfl
    · exact itemsFrom_cons_error rfl
    · exact itemsFrom_cons_error rfl

theorem Reader.itemsFrom_nil (stage : Stage) :
    stage.reader.itemsFrom [] = if stage = .done then [] else [.error .unexpectedEnd] := by
  cases stage <;> rfl

namespace Compiler

variable {c d : Compiler}

/-! ### Both ways together -/

theorem finish_of_ne_done (h : c.stage ≠ .done) : c.finish = ⟨[], .error .unexpectedEnd⟩ := by
  rw [finish, Logged.require, if_neg (by simpa using h)]
  rfl

/-- A compiler does not see whether events are handed over by a reader. -/
theorem pushItems_map_ok (events : List Event) :
    c.pushItems (events.map .ok) = c.pushAll events := by
  induction events generalizing c with
  | nil => rfl
  | cons event rest ih =>
    rw [List.map_cons, pushItems, pushAll]
    show (c.push event).next >>= (fun d => d.pushItems (rest.map .ok)) = _
    exact Logged.bind_congr fun d _ => ih

/-- Nothing but events can be pushed without an error. -/
theorem exists_events_of_pushItems {items : List (Except Error Event)}
    (h : (c.pushItems items).result = .ok d) : ∃ events : List Event, items = events.map .ok := by
  induction items generalizing c with
  | nil => exact ⟨[], rfl⟩
  | cons item rest ih =>
    rw [pushItems] at h
    rcases item with e | event
    · cases h
    · obtain ⟨_, -, h⟩ := Logged.bind_eq_ok_iff.1 h
      obtain ⟨c', -, hrest⟩ := Logged.bind_eq_ok_iff.1 h
      obtain ⟨events, rfl⟩ := ih hrest
      exact ⟨event :: events, rfl⟩

/-- From the same stage on, the events and their tokens come to the same. -/
theorem pushItems_finish (events : List Event) :
    c.pushItems (c.stage.reader.itemsFrom (events.flatMap Event.tokens)) >>= finish =
      c.pushAll events >>= finish := by
  induction events generalizing c with
  | nil =>
    rw [List.flatMap_nil, Reader.itemsFrom_nil]
    by_cases hdone : c.stage = .done
    · rw [if_pos hdone]
      rfl
    · rw [if_neg hdone]
      show ⟨[], .error .unexpectedEnd⟩ = c.finish
      rw [finish_of_ne_done hdone]
  | cons event rest ih =>
    rw [List.flatMap_cons, Reader.itemsFrom_tokens, pushAll]
    rcases hafter : c.stage.after event with e | stage
    · -- both sides stop here, the reader before the compiler is asked
      rw [push_of_disorder hafter]
      rfl
    · -- the compiler may still refuse the event; if not, it is at the reader's stage
      show ((c.push event).next >>= fun d => d.pushItems _) >>= finish = _
      rw [Logged.bind_assoc, Logged.bind_assoc]
      apply Logged.bind_congr
      intro d hnext
      have htakes := push_next_eq_ok_iff.1 hnext
      obtain rfl : stage = d.stage := Except.ok.inj (hafter.symm.trans htakes.after)
      exact ih

end Compiler

section

variable {options : Options} {tokens : List Token} {events : List Event} {mesh : Mesh}

/-- If a reader gives events only, they may as well be compiled themselves. -/
theorem compileTokens_of_items (h : Reader.items tokens = events.map .ok) :
    compileTokens options tokens = compile options events := by
  rw [compileTokens, Compiler.compileTokens, h, Compiler.pushItems_map_ok]
  rfl

/-- A reader of tokens that compile gives events only. -/
theorem exists_events_of_compileTokens (h : (compileTokens options tokens).result = .ok mesh) :
    ∃ events : List Event, Reader.items tokens = events.map .ok := by
  obtain ⟨c, hpush, -⟩ := Logged.bind_eq_ok_iff.1 h
  exact Compiler.exists_events_of_pushItems hpush

/-- A mesh that comes of tokens also comes of events. -/
theorem exists_compile_of_compileTokens (h : (compileTokens options tokens).result = .ok mesh) :
    ∃ events, (compile options events).result = .ok mesh := by
  obtain ⟨events, hevents⟩ := exists_events_of_compileTokens h
  rw [compileTokens_of_items hevents] at h
  exact ⟨events, h⟩

end

/-- **Both ways into a compiler agree**, whatever the events and in whatever order. -/
theorem compileTokens_tokens (options : Options) (events : List Event) :
    compileTokens options (events.flatMap Event.tokens) = compile options events :=
  Compiler.pushItems_finish (c := .start options) events

end MeshLayout
