/-
MeshLayout/Proofs/Grammar.lean

The grammar of a description in tokens, and the reader.

With `B` for blank text, a description is

    B*  <mesh …>  (B | block)*  </mesh>  B*

and a block is a tag, text and the closing tag (`Describes`, `Inside`,
`Block.Written`).  A reader sees each token once and takes nothing back, so
`Reader.Rest` says for each of its states what it still demands of the
tokens to come.  One token leads from one demand to the next (`rest_cons`),
as it leads from one state to the next; by induction over the tokens a
reader fails if and only if its demands are not met (`itemsFrom_eq_iff`).
Main result: `reader_accepts`.
-/
import Mathlib.Data.Set.List
import MeshLayout.Proofs.Faults
import MeshLayout.Proofs.Rendering

namespace MeshLayout

/-! ### The grammar -/

/-- The token is blank text. -/
def Token.IsBlank : Token → Prop
  | .text chars => MeshLayout.IsBlank chars.toList
  | _ => False

/-- The block is written as an element.  Its text may come in any number of pieces; an `arrays`
element has none to speak of. -/
inductive Block.Written : List Token → Block → Prop
  | attribute {attributes : List (String × String)} {texts : List String} {slot : UInt32}
      {typeName : String} {components : UInt32} (hslot : FirstNumber attributes "index" slot)
      (htype : FirstValue attributes "type" typeName)
      (hcomponents : FirstNumber attributes "size" components) :
      Written (.opening "attribute" attributes :: (texts.map .text ++ [.closing "attribute"]))
        (.attribute slot typeName components (String.join texts))
  | indices {attributes : List (String × String)} {texts : List String}
      {primitiveName typeName : String} (hprimitive : FirstValue attributes "cmd" primitiveName)
      (htype : FirstValue attributes "type" typeName) :
      Written (.opening "indices" attributes :: (texts.map .text ++ [.closing "indices"]))
        (.indices primitiveName typeName (String.join texts))
  | arrays {attributes : List (String × String)} {texts : List String} {primitiveName : String}
      {first count : UInt32} (hprimitive : FirstValue attributes "cmd" primitiveName)
      (hfirst : FirstNumber attributes "start" first)
      (hcount : FirstNumber attributes "count" count)
      (hblank : IsBlank (String.join texts).toList) :
      Written (.opening "arrays" attributes :: (texts.map .text ++ [.closing "arrays"]))
        (.arrays primitiveName first count)

/-- Blank text and blocks, as they stand in the root element. -/
inductive Inside : List Token → List Block → Prop
  | nil : Inside [] []
  | blank {token : Token} {tokens : List Token} {blocks : List Block} (hblank : token.IsBlank)
      (h : Inside tokens blocks) : Inside (token :: tokens) blocks
  | block {element tokens : List Token} {b : Block} {blocks : List Block}
      (hblock : b.Written element) (h : Inside tokens blocks) :
      Inside (element ++ tokens) (b :: blocks)

/-- The tokens are a description with these blocks. -/
def Describes (tokens : List Token) (blocks : List Block) : Prop :=
  ∃ before attributes inside after,
    tokens = before ++ .opening "mesh" attributes :: (inside ++ .closing "mesh" :: after) ∧
      (∀ token ∈ before, token.IsBlank) ∧ Inside inside blocks ∧ ∀ token ∈ after, token.IsBlank

/-- The tokens are a description from behind the opening tag of the root element on. -/
def Closes (tokens : List Token) (blocks : List Block) : Prop :=
  ∃ inside after, tokens = inside ++ .closing "mesh" :: after ∧
    Inside inside blocks ∧ ∀ token ∈ after, token.IsBlank

/-- The tokens begin with the rest of an element, of which some text has been seen. -/
def Finishes (header : Header) (text : String) (tokens : List Token) (b : Block)
    (blocks : List Block) : Prop :=
  ∃ (texts : List String) (rest : List Token),
    tokens = texts.map .text ++ .closing header.element.name :: rest ∧
    header.complete (text ++ String.join texts) = .ok b ∧ Closes rest blocks

/-! ### One token of a description -/

variable {token : Token} {tokens rest : List Token} {b : Block} {blocks : List Block}

@[simp] theorem Token.isBlank_text {text : String} :
    (Token.text text).IsBlank ↔ isBlankText text = true := isBlankText_iff.symm

@[simp] theorem Token.not_isBlank_opening {name : String} {attributes : List (String × String)} :
    ¬ (opening name attributes).IsBlank := id

@[simp] theorem Token.not_isBlank_closing {name : String} : ¬ (closing name).IsBlank := id

/-- A block is written by its header and its text. -/
theorem Block.written_iff {element : List Token} :
    b.Written element ↔ ∃ (header : Header) (name : String) (attributes : List (String × String))
        (texts : List String),
      element = .opening name attributes :: (texts.map .text ++ [.closing header.element.name]) ∧
        header.Tagged name attributes ∧ header.complete (String.join texts) = .ok b := by
  constructor
  · rintro (⟨hslot, htype, hcomponents⟩ | ⟨hprimitive, htype⟩ |
      ⟨hprimitive, hfirst, hcount, hblank⟩)
    · exact ⟨.attribute .., _, _, _, rfl, ⟨rfl, hslot, htype, hcomponents⟩, rfl⟩
    · exact ⟨.indices .., _, _, _, rfl, ⟨rfl, hprimitive, htype⟩, rfl⟩
    · refine ⟨.arrays .., _, _, _, rfl, ⟨rfl, hprimitive, hfirst, hcount⟩, ?_⟩
      rw [Header.complete, if_pos (isBlankText_iff.2 hblank)]
  · rintro ⟨header, name, attributes, texts, rfl, htagged, hcomplete⟩
    match header with
    | .attribute .. =>
      obtain ⟨rfl, hslot, htype, hcomponents⟩ := htagged
      cases hcomplete
      exact .attribute hslot htype hcomponents
    | .indices .. =>
      obtain ⟨rfl, hprimitive, htype⟩ := htagged
      cases hcomplete
      exact .indices hprimitive htype
    | .arrays .. =>
      obtain ⟨rfl, hprimitive, hfirst, hcount⟩ := htagged
      rw [Header.complete] at hcomplete
      split at hcomplete
      · next hblank =>
        cases hcomplete
        exact .arrays hprimitive hfirst hcount (isBlankText_iff.1 hblank)
      · cases hcomplete

theorem describes_cons :
    Describes (token :: rest) blocks ↔ (token.IsBlank ∧ Describes rest blocks) ∨
      ∃ attributes, token = .opening "mesh" attributes ∧ Closes rest blocks := by
  constructor
  · rintro ⟨before, attributes, inside, after, htokens, hbefore, hinside, hafter⟩
    -- the first token is the opening tag, unless blanks stand before it
    match before, htokens with
    | [], htokens =>
      obtain ⟨rfl, rfl⟩ := List.cons.inj htokens
      exact .inr ⟨attributes, rfl, inside, after, rfl, hinside, hafter⟩
    | blank :: before, htokens =>
      obtain ⟨rfl, rfl⟩ := List.cons.inj htokens
      obtain ⟨hblank, hbefore⟩ := List.forall_mem_cons.1 hbefore
      exact .inl ⟨hblank, before, attributes, inside, after, rfl, hbefore, hinside, hafter⟩
  · rintro (⟨hblank, before, attributes, inside, after, rfl, hbefore, hinside, hafter⟩ |
      ⟨attributes, rfl, inside, after, rfl, hinside, hafter⟩)
    · exact ⟨token :: before, attributes, inside, after, rfl,
        List.forall_mem_cons.2 ⟨hblank, hbefore⟩, hinside, hafter⟩
    · exact ⟨[], attributes, inside, after, rfl, List.forall_mem_nil _, hinside, hafter⟩

theorem closes_cons :
    Closes (token :: rest) blocks ↔ (token.IsBlank ∧ Closes rest blocks) ∨
      (token = .closing "mesh" ∧ (∀ t ∈ rest, t.IsBlank) ∧ blocks = []) ∨
      ∃ name attributes header b later, token = .opening name attributes ∧
        header.Tagged name attributes ∧ Finishes header "" rest b later ∧ blocks = b :: later := by
  constructor
  · rintro ⟨inside, after, htokens, hinside, hafter⟩
    cases hinside with
    | nil =>
      obtain ⟨rfl, rfl⟩ := List.cons.inj htokens
      exact .inr (.inl ⟨rfl, hafter, rfl⟩)
    | blank hblank hinside =>
      obtain ⟨rfl, rfl⟩ := List.cons.inj htokens
      exact .inl ⟨hblank, _, after, rfl, hinside, hafter⟩
    | block hblock hinside =>
      obtain ⟨header, name, attributes, texts, rfl, htagged, hcomplete⟩ :=
        Block.written_iff.1 hblock
      obtain ⟨rfl, rfl⟩ := List.cons.inj htokens
      refine .inr (.inr ⟨name, attributes, header, _, _, rfl, htagged, ?_, rfl⟩)
      refine ⟨texts, _, ?_, ?_, _, after, rfl, hinside, hafter⟩
      · simp
      · rwa [String.empty_append]
  · rintro (⟨hblank, inside, after, rfl, hinside, hafter⟩ | ⟨rfl, hrest, rfl⟩ |
      ⟨name, attributes, header, b, later, rfl, htagged, ⟨texts, _, rfl, hcomplete, inside, after,
        rfl, hinside, hafter⟩, rfl⟩)
    · exact ⟨token :: inside, after, rfl, .blank hblank hinside, hafter⟩
    · exact ⟨[], rest, rfl, .nil, hrest⟩
    · rw [String.empty_append] at hcomplete
      have hblock := Block.written_iff.2 ⟨header, name, attributes, texts, rfl, htagged, hcomplete⟩
      refine ⟨_, after, ?_, .block hblock hinside, hafter⟩
      simp

theorem finishes_cons {header : Header} {text : String} :
    Finishes header text (token :: rest) b blocks ↔
      (∃ more, token = .text more ∧ Finishes header (text ++ more) rest b blocks) ∨
      token = .closing header.element.name ∧ header.complete text = .ok b ∧ Closes rest blocks := by
  constructor
  · rintro ⟨texts, later, htokens, hcomplete, hcloses⟩
    match texts, htokens with
    | [], htokens =>
      obtain ⟨rfl, rfl⟩ := List.cons.inj htokens
      rw [String.join_nil, String.append_empty] at hcomplete
      exact .inr ⟨rfl, hcomplete, hcloses⟩
    | more :: texts, htokens =>
      obtain ⟨rfl, rfl⟩ := List.cons.inj htokens
      -- the piece belongs to what has been seen now
      rw [String.join_cons, ← String.append_assoc] at hcomplete
      exact .inl ⟨more, rfl, texts, later, rfl, hcomplete, hcloses⟩
  · rintro (⟨more, rfl, texts, later, rfl, hcomplete, hcloses⟩ | ⟨rfl, hcomplete, hcloses⟩)
    · refine ⟨more :: texts, later, rfl, ?_, hcloses⟩
      rwa [String.join_cons, ← String.append_assoc]
    · refine ⟨[], rest, rfl, ?_, hcloses⟩
      rwa [String.join_nil, String.append_empty]

/-! ### One token for a reader -/

/-- The events that blocks are told by, up to the end of the root element. -/
def closingEvents (blocks : List Block) : List Event := blocks.map .block ++ [.exitMesh]

/-- What a reader demands of the tokens to come, and the events that it will give for them. -/
def Reader.Rest : Reader → List Token → List Event → Prop
  | root, tokens, events =>
    ∃ blocks, Describes tokens blocks ∧ events = .enterMesh :: closingEvents blocks
  | mesh, tokens, events => ∃ blocks, Closes tokens blocks ∧ events = closingEvents blocks
  | block header text, tokens, events =>
    ∃ b blocks, Finishes header text tokens b blocks ∧ events = closingEvents (b :: blocks)
  | done, tokens, events => (∀ token ∈ tokens, token.IsBlank) ∧ events = []
  | failed, _, events => events = []

/-- Events that are given from a signal on, if those after it are as `later` says. -/
def Signal.Leads (later : List Event → Prop) : Signal → List Event → Prop
  | more, events => later events
  | event first, events => ∃ rest, events = first :: rest ∧ later rest
  | error _, _ => False
  | finished, events => events = []

variable {events : List Event}

/-- An event is given first, whatever it is that determines the others. -/
theorem Signal.leads_event_iff {α : Type} {P : α → Prop} {given : α → List Event} {first : Event} :
    (event first).Leads (fun later => ∃ a, P a ∧ later = given a) events ↔
      ∃ a, P a ∧ events = first :: given a := by
  constructor
  · rintro ⟨_, rfl, a, ha, rfl⟩
    exact ⟨a, ha, rfl⟩
  · rintro ⟨a, ha, rfl⟩
    exact ⟨given a, rfl, a, ha, rfl⟩

namespace Reader

theorem rest_root_cons : Rest root (token :: rest) events ↔
    (feedRoot token).2.Leads ((feedRoot token).1.Rest rest) events := by
  simp only [Rest, describes_cons]
  rcases token with ⟨name, attributes⟩ | text | name
  · by_cases hname : name = "mesh"
    · have hfeed : feedRoot (.opening name attributes) = (mesh, .event .enterMesh) := if_pos hname
      rw [hfeed]
      -- what is demanded behind the opening tag determines the events behind the first
      refine Iff.trans ?_ Signal.leads_event_iff.symm
      simp [hname]
    · have hfeed : feedRoot (.opening name attributes) = fail (.missingRoot (.opening name)) :=
        if_neg hname
      rw [hfeed]
      simp [Signal.Leads, fail, hname]
  · by_cases hblank : isBlankText text = true
    · have hfeed : feedRoot (.text text) = (root, .more) := if_pos hblank
      rw [hfeed]
      simp [Signal.Leads, Rest, hblank]
    · have hfeed : feedRoot (.text text) = fail (.missingRoot .text) := if_neg hblank
      rw [hfeed]
      simp [Signal.Leads, fail, hblank]
  · simp [Signal.Leads, feedRoot, fail]

theorem rest_mesh_cons : Rest mesh (token :: rest) events ↔
    (feedMesh token).2.Leads ((feedMesh token).1.Rest rest) events := by
  simp only [Rest, closes_cons]
  rcases token with ⟨name, attributes⟩ | text | name
  · rcases hheader : Header.ofTag name attributes with e | header
    · have hfeed : feedMesh (.opening name attributes) = fail e := by rw [feedMesh, hheader]
      rw [hfeed]
      simp [Signal.Leads, fail, ← Header.ofTag_eq_ok_iff, hheader]
    · have hfeed : feedMesh (.opening name attributes) = (block header "", .more) := by
        rw [feedMesh, hheader]
      rw [hfeed]
      simp only [Signal.Leads, Rest, ← Header.ofTag_eq_ok_iff]
      constructor
      · rintro ⟨_, ⟨⟨⟩, -⟩ | ⟨⟨⟩, -⟩ | ⟨_, _, header', b, later, ⟨⟩, hheader', hfinishes, rfl⟩, rfl⟩
        -- the tag has one header only
        obtain rfl := Except.ok.inj (hheader.symm.trans hheader')
        exact ⟨b, later, hfinishes, rfl⟩
      · rintro ⟨b, later, hfinishes, rfl⟩
        exact ⟨_, .inr (.inr ⟨_, _, header, b, later, rfl, hheader, hfinishes, rfl⟩), rfl⟩
  · by_cases hblank : isBlankText text = true
    · have hfeed : feedMesh (.text text) = (mesh, .more) := if_pos hblank
      rw [hfeed]
      simp [Signal.Leads, Rest, hblank]
    · have hfeed : feedMesh (.text text) = fail (.unexpectedText .mesh) := if_neg hblank
      rw [hfeed]
      simp [Signal.Leads, fail, hblank]
  · by_cases hname : name = "mesh"
    · have hfeed : feedMesh (.closing name) = (done, .event .exitMesh) := if_pos hname
      rw [hfeed]
      simp only [Signal.Leads, Rest]
      -- of what may stand in the root element, only its end is a closing tag
      constructor
      · rintro ⟨_, ⟨⟨⟩, -⟩ | ⟨-, hblank, rfl⟩ | ⟨_, _, _, _, _, ⟨⟩, -⟩, rfl⟩
        exact ⟨[], rfl, hblank, rfl⟩
      · rintro ⟨_, rfl, hblank, rfl⟩
        exact ⟨[], .inr (.inl ⟨congrArg _ hname, hblank, rfl⟩), rfl⟩
    · have hfeed : feedMesh (.closing name) = fail (.mismatchedClose .mesh name) := if_neg hname
      rw [hfeed]
      simp [Signal.Leads, fail, hname]

theorem rest_block_cons {header : Header} {text : String} :
    Rest (block header text) (token :: rest) events ↔
      (feedBlock header text token).2.Leads ((feedBlock header text token).1.Rest rest) events := by
  simp only [Rest, finishes_cons]
  rcases token with ⟨name, attributes⟩ | more | name
  · simp [Signal.Leads, feedBlock, fail]
  · simp [Signal.Leads, Rest, feedBlock]
  · by_cases hname : name = header.element.name
    · rcases hcomplete : header.complete text with e | b
      · have hfeed : feedBlock header text (.closing name) = fail e := by
          rw [feedBlock, if_pos hname, hcomplete]
        rw [hfeed]
        simp [Signal.Leads, fail]
      · have hfeed : feedBlock header text (.closing name) = (mesh, .event (.block b)) := by
          rw [feedBlock, if_pos hname, hcomplete]
        rw [hfeed]
        refine Iff.trans ?_ Signal.leads_event_iff.symm
        simp [hname, closingEvents, and_assoc]
    · have hfeed : feedBlock header text (.closing name) =
          fail (.mismatchedClose header.element name) := if_neg hname
      rw [hfeed]
      simp [Signal.Leads, fail, hname]

theorem rest_done_cons : Rest done (token :: rest) events ↔
    (feedDone token).2.Leads ((feedDone token).1.Rest rest) events := by
  simp only [Rest, List.forall_mem_cons]
  rcases token with ⟨name, attributes⟩ | text | name
  · simp [Signal.Leads, feedDone, fail]
  · by_cases hblank : isBlankText text = true
    · have hfeed : feedDone (.text text) = (done, .more) := if_pos hblank
      rw [hfeed]
      simp [Signal.Leads, Rest, hblank]
    · have hfeed : feedDone (.text text) = fail .trailingContent := if_neg hblank
      rw [hfeed]
      simp [Signal.Leads, fail, hblank]
  · simp [Signal.Leads, feedDone, fail]

/-- **One token**: what a reader demands of it, and of the tokens behind it, is what the next
reader demands of those. -/
theorem rest_cons (reader : Reader) : reader.Rest (token :: rest) events ↔
    (reader.feed (some token)).2.Leads ((reader.feed (some token)).1.Rest rest) events := by
  cases reader with
  | root => exact rest_root_cons
  | mesh => exact rest_mesh_cons
  | block header text => exact rest_block_cons
  | done => exact rest_done_cons
  | failed => exact Iff.rfl

/-- No event stands for an error. -/
theorem error_ne_map_ok {e : Error} : [.error e] ≠ events.map (Except.ok (ε := Error)) := by
  rcases events with - | ⟨event, rest⟩ <;> simp

theorem itemsFrom_nil_eq_iff (reader : Reader) :
    reader.itemsFrom [] = events.map .ok ↔ reader.Rest [] events := by
  cases reader with
  | root => simp [Rest, Describes, itemsFrom, feed, fail, error_ne_map_ok]
  | mesh => simp [Rest, Closes, itemsFrom, feed, fail, error_ne_map_ok]
  | block header text => simp [Rest, Finishes, itemsFrom, feed, fail, error_ne_map_ok]
  | done => simp [Rest, itemsFrom, feed, eq_comm]
  | failed => simp [Rest, itemsFrom, feed, eq_comm]

/-- **A reader gives the events that its demands determine**, and no error, if and only if its
demands are met. -/
theorem itemsFrom_eq_iff (reader : Reader) (tokens : List Token) (events : List Event) :
    reader.itemsFrom tokens = events.map .ok ↔ reader.Rest tokens events := by
  -- the reader is another one after each token
  induction tokens generalizing reader events with
  | nil => exact itemsFrom_nil_eq_iff reader
  | cons token rest ih =>
    rw [rest_cons, itemsFrom]
    rcases hfeed : reader.feed (some token) with ⟨next, - | event | e | -⟩
    · exact ih next events
    · show Except.ok event :: next.itemsFrom rest = _ ↔
        ∃ later, events = event :: later ∧ next.Rest rest later
      constructor
      · intro hitems
        obtain ⟨_, later, rfl, hfirst, hlater⟩ := List.map_eq_cons_iff.1 hitems.symm
        cases hfirst
        exact ⟨later, rfl, (ih next later).1 hlater.symm⟩
      · rintro ⟨later, rfl, hrest⟩
        rw [(ih next later).2 hrest]
        rfl
    · show [Except.error e] = _ ↔ False
      exact iff_of_false error_ne_map_ok id
    · show [] = events.map _ ↔ events = []
      rw [eq_comm, List.map_eq_nil_iff]

/-! ### One item at a time -/

/-- The stage of the description that a reader has come to, unless it has failed. -/
def stage? : Reader → Option Stage
  | root => some .root
  | mesh | block .. => some .mesh
  | done => some .done
  | failed => none

@[simp] theorem stage?_reader (stage : Stage) : stage.reader.stage? = some stage := by
  cases stage <;> rfl

theorem ne_failed_iff {reader : Reader} :
    reader ≠ failed ↔ ∃ stage, reader.stage? = some stage := by
  cases reader <;> simp [stage?]

/-- A reader at a stage takes another token and stays there, or gives an event that may stand there,
unless the markup is at fault. -/
theorem feed_at_cases {reader : Reader} {stage : Stage} (h : reader.stage? = some stage)
    (token : Token) :
    (∃ next, next.stage? = some stage ∧ reader.feed (some token) = (next, .more)) ∨
      (∃ event after, stage.after event = .ok after ∧
        reader.feed (some token) = (after.reader, .event event)) ∨
      ∃ e : Error, e.OfMarkup ∧ reader.feed (some token) = fail e := by
  cases reader with
  | root =>
    obtain rfl := Option.some.inj h
    rcases token with ⟨name, attributes⟩ | text | name
    · by_cases hname : name = Element.mesh.name
      · exact .inr (.inl ⟨.enterMesh, .mesh, rfl, if_pos hname⟩)
      · exact .inr (.inr ⟨_, .missingRoot _, if_neg hname⟩)
    · by_cases hblank : isBlankText text = true
      · exact .inl ⟨root, rfl, if_pos hblank⟩
      · exact .inr (.inr ⟨_, .missingRoot _, if_neg hblank⟩)
    · exact .inr (.inr ⟨_, .missingRoot _, rfl⟩)
  | mesh =>
    obtain rfl := Option.some.inj h
    rcases token with ⟨name, attributes⟩ | text | name
    · have htag := (Header.failsWith_ofTag attributes name).imp fun _ => Error.OfTag.ofMarkup
      rw [feed, feedMesh]
      generalize Header.ofTag name attributes = outcome at htag ⊢
      cases htag with
      | ok header => exact .inl ⟨block header "", rfl, rfl⟩
      | error hmarkup => exact .inr (.inr ⟨_, hmarkup, rfl⟩)
    · by_cases hblank : isBlankText text = true
      · exact .inl ⟨mesh, rfl, if_pos hblank⟩
      · exact .inr (.inr ⟨_, .unexpectedText _, if_neg hblank⟩)
    · by_cases hname : name = Element.mesh.name
      · exact .inr (.inl ⟨.exitMesh, .done, rfl, if_pos hname⟩)
      · exact .inr (.inr ⟨_, .mismatchedClose _ name, if_neg hname⟩)
  | block header text =>
    obtain rfl := Option.some.inj h
    rcases token with ⟨name, attributes⟩ | more | name
    · exact .inr (.inr ⟨_, .unexpectedTag _ name, rfl⟩)
    · exact .inl ⟨block header (text ++ more), rfl, rfl⟩
    · rw [feed, feedBlock]
      by_cases hname : name = header.element.name
      · rw [if_pos hname]
        have hcomplete : FailsWith Error.OfMarkup (header.complete text) :=
          (header.failsWith_complete text).imp fun e he => he ▸ .unexpectedText .arrays
        generalize header.complete text = outcome at hcomplete ⊢
        cases hcomplete with
        | ok b => exact .inr (.inl ⟨.block b, .mesh, rfl, rfl⟩)
        | error hmarkup => exact .inr (.inr ⟨_, hmarkup, rfl⟩)
      · exact .inr (.inr ⟨_, .mismatchedClose _ name, if_neg hname⟩)
  | done =>
    obtain rfl := Option.some.inj h
    rcases token with ⟨name, attributes⟩ | text | name
    · exact .inr (.inr ⟨_, .trailingContent, rfl⟩)
    · by_cases hblank : isBlankText text = true
      · exact .inl ⟨done, rfl, if_pos hblank⟩
      · exact .inr (.inr ⟨_, .trailingContent, if_neg hblank⟩)
    · exact .inr (.inr ⟨_, .trailingContent, rfl⟩)
  | failed => cases h

/-- A reader that has not failed takes another token, unless the markup is at fault. -/
theorem feed_some_cases {reader : Reader} (h : reader ≠ failed) (token : Token) :
    (∃ next, next ≠ failed ∧ reader.feed (some token) = (next, .more)) ∨
      (∃ next event, next ≠ failed ∧ reader.feed (some token) = (next, .event event)) ∨
      ∃ e : Error, e.OfMarkup ∧ reader.feed (some token) = fail e := by
  obtain ⟨stage, hstage⟩ := ne_failed_iff.1 h
  rcases feed_at_cases hstage token with ⟨next, hnext, hfeed⟩ | ⟨event, after, -, hfeed⟩ | hfails
  · exact .inl ⟨next, ne_failed_iff.2 ⟨stage, hnext⟩, hfeed⟩
  · exact .inr (.inl ⟨_, event, ne_failed_iff.2 ⟨after, stage?_reader after⟩, hfeed⟩)
  · exact .inr (.inr hfails)

/-- The next item is the first of those that are left, and leaves the others. -/
theorem next_some (reader : Reader) (tokens : List Token) :
    ∃ reader' rest, reader.next (tokens.map some) =
        ((reader.itemsFrom tokens).head?, reader', rest.map some) ∧
      reader'.itemsFrom rest = (reader.itemsFrom tokens).tail := by
  induction tokens generalizing reader with
  | nil => cases reader <;> exact ⟨_, [], rfl, rfl⟩
  | cons token rest ih =>
    by_cases hfailed : reader = failed
    · -- no token is taken any more
      subst hfailed
      exact ⟨failed, token :: rest, rfl, rfl⟩
    rw [List.map_cons, next, if_neg hfailed]
    rcases feed_some_cases hfailed token with
      ⟨next, -, hfeed⟩ | ⟨next, event, -, hfeed⟩ | ⟨e, -, hfeed⟩
    · rw [hfeed, itemsFrom_cons_more hfeed]
      exact ih next
    · rw [hfeed, itemsFrom_cons_event hfeed]
      exact ⟨next, rest, rfl, rfl⟩
    · rw [hfeed, itemsFrom_cons_error hfeed]
      have hnone : failed.itemsFrom rest = [] := by cases rest <;> rfl
      exact ⟨failed, rest, rfl, hnone⟩

theorem poll_some (reader : Reader) (tokens : List Token) (count : Nat) :
    reader.poll (tokens.map some) ((reader.itemsFrom tokens).length + count) =
      (reader.itemsFrom tokens).map some ++ List.replicate count none := by
  generalize hitems : reader.itemsFrom tokens = items
  induction items generalizing reader tokens with
  | nil =>
    -- all items have been given, and asking again gives none
    rw [List.length_nil, Nat.zero_add]
    induction count generalizing reader tokens with
    | zero => rfl
    | succ count ih =>
      obtain ⟨reader', rest, hnext, hrest⟩ := reader.next_some tokens
      rw [hitems] at hnext hrest
      rw [poll, hnext]
      exact congrArg _ (ih reader' rest hrest)
  | cons item items ih =>
    obtain ⟨reader', rest, hnext, hrest⟩ := reader.next_some tokens
    rw [hitems] at hnext hrest
    rw [List.length_cons, Nat.add_right_comm, poll, hnext]
    exact congrArg _ (ih reader' rest hrest)

end Reader

/-! ### Readers and the grammar -/

/-- **A reader accepts descriptions, and nothing else.**  Asked for items until there are no more,
it gives events only, if and only if its tokens are a description; and these are the events of its
blocks in order, in the root element. -/
theorem reader_accepts (tokens : List Token) :
    (∀ count, Reader.root.poll (tokens.map some) ((Reader.items tokens).length + count) =
        (Reader.items tokens).map some ++ List.replicate count none) ∧
      ((∀ item ∈ Reader.items tokens, ∃ event, item = .ok event) ↔
        ∃ blocks, Describes tokens blocks) ∧
      ∀ blocks, Describes tokens blocks →
        Reader.items tokens = (.enterMesh :: (blocks.map .block ++ [.exitMesh])).map .ok := by
  have hgives : ∀ events, Reader.items tokens = events.map .ok ↔
      ∃ blocks, Describes tokens blocks ∧ events = .enterMesh :: closingEvents blocks :=
    Reader.itemsFrom_eq_iff .root tokens
  refine ⟨Reader.poll_some .root tokens, ⟨?_, ?_⟩, ?_⟩
  · intro hok
    have hrange : Reader.items tokens ∈ Set.range (List.map Except.ok) := by
      rw [Set.range_list_map]
      intro item hitem
      obtain ⟨event, rfl⟩ := hok item hitem
      exact ⟨event, rfl⟩
    obtain ⟨events, hevents⟩ := hrange
    obtain ⟨blocks, hblocks, -⟩ := (hgives events).1 hevents.symm
    exact ⟨blocks, hblocks⟩
  · rintro ⟨blocks, hblocks⟩ item hitem
    rw [(hgives _).2 ⟨blocks, hblocks, rfl⟩] at hitem
    obtain ⟨event, -, rfl⟩ := List.mem_map.1 hitem
    exact ⟨event, rfl⟩
  · intro blocks hblocks
    exact (hgives _).2 ⟨blocks, hblocks, rfl⟩

/-- A description with blanks wherever they may stand, a repeated key, and text in pieces. -/
def scattered : List Token :=
  [.text " ", .opening "mesh" [("name", "m")], .text "",
   .opening "attribute" [("size", "02"), ("index", " 7"), ("index", "x"), ("type", "float")],
   .text "1 2", .text " 3 4", .closing "attribute", .text "\n",
   .opening "arrays" [("cmd", "points"), ("start", "0 "), ("count", "2")], .text " ", .text "",
   .closing "arrays", .closing "mesh", .text "\n"]

theorem reader_scattered :
    Describes scattered [.attribute 7 "float" 2 "1 2 3 4", .arrays "points" 0 2] ∧
      Reader.items scattered =
        [.ok .enterMesh, .ok (.block (.attribute 7 "float" 2 "1 2 3 4")),
          .ok (.block (.arrays "points" 0 2)), .ok .exitMesh] := by
  have hspace : Token.IsBlank (.text " ") := by
    rw [Token.isBlank_text]
    decide
  have hempty : Token.IsBlank (.text "") := by
    rw [Token.isBlank_text]
    decide
  have hline : Token.IsBlank (.text "\n") := by
    rw [Token.isBlank_text]
    decide
  have hslot : Numeral " 7" 7 := ⟨[' '], ['7'], [], rfl, by decide, by decide, by decide,
    List.all_eq_true.1 (by decide), by decide⟩
  have hcomponents : Numeral "02" 2 := ⟨[], ['0', '2'], [], rfl, by decide, by decide, by decide,
    List.all_eq_true.1 (by decide), by decide⟩
  have hfirst : Numeral "0 " 0 := ⟨[], ['0'], [' '], rfl, by decide, by decide, by decide,
    List.all_eq_true.1 (by decide), by decide⟩
  have hcount : Numeral "2" 2 := ⟨[], ['2'], [], rfl, by decide, by decide, by decide,
    List.all_eq_true.1 (by decide), by decide⟩
  have hattribute := @Block.Written.attribute
    [("size", "02"), ("index", " 7"), ("index", "x"), ("type", "float")] ["1 2", " 3 4"]
    7 "float" 2
    ⟨" 7", ⟨[("size", "02")], _, rfl, by decide⟩, hslot⟩
    ⟨[("size", "02"), ("index", " 7"), ("index", "x")], _, rfl, by decide⟩
    ⟨"02", ⟨[], _, rfl, by decide⟩, hcomponents⟩
  have harrays := @Block.Written.arrays
    [("cmd", "points"), ("start", "0 "), ("count", "2")] [" ", ""] "points" 0 2
    ⟨[], _, rfl, by decide⟩
    ⟨"0 ", ⟨[("cmd", "points")], _, rfl, by decide⟩, hfirst⟩
    ⟨"2", ⟨[("cmd", "points"), ("start", "0 ")], _, rfl, by decide⟩, hcount⟩
    (by decide)
  have hinside := Inside.blank hempty (.block hattribute (.blank hline (.block harrays .nil)))
  have hjoin : String.join ["1 2", " 3 4"] = "1 2 3 4" := by decide
  rw [hjoin] at hinside
  have hdescribes : Describes scattered [.attribute 7 "float" 2 "1 2 3 4", .arrays "points" 0 2] :=
    ⟨[.text " "], _, _, [.text "\n"], rfl, List.forall_mem_singleton.2 hspace, hinside,
      List.forall_mem_singleton.2 hline⟩
  obtain ⟨-, -, hitems⟩ := reader_accepts scattered
  exact ⟨hdescribes, hitems _ hdescribes⟩

end MeshLayout
