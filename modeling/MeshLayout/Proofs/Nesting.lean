/-
MeshLayout/Proofs/Nesting.lean

The tokens of a document are well nested.

A closing token closes the last element that is open in front of it
(`WellNested`).  What is open is told without a stack: behind the opening
token there are only texts and whole elements (`Balanced`, `Innermost`).

A document is read with a stack of names.  `LeavesOpen` says what the stack
holds, every piece keeps to it (`pieceTokens_nested`), and so by induction
the tokens of all pieces are well nested.  A reader of tokens has a stack as
well: where it stands tells which elements are open (`Reader.names`).  The two
stacks agree, so no reader of a document finds a closing tag that does not
match.  Main result: `wellNested_of_tokens`.
-/
import MeshLayout.Proofs.Grammar
import MeshLayout.Proofs.Writing

namespace MeshLayout

/-! ### Elements -/

section

variable {tokens more before outer inner : List Token} {name : String} {names : List String}

/-- Texts, and elements that are opened and closed again. -/
inductive Balanced : List Token → Prop
  | nil : Balanced []
  | text {text : String} {rest : List Token} (hrest : Balanced rest) : Balanced (.text text :: rest)
  | element {name : String} {attributes : List (String × String)} {inner rest : List Token}
      (hinner : Balanced inner) (hrest : Balanced rest) :
      Balanced (.opening name attributes :: (inner ++ .closing name :: rest))

/-- The last element that is opened and not closed again has this name. -/
def Innermost (tokens : List Token) (name : String) : Prop :=
  ∃ outer attributes inner, tokens = outer ++ .opening name attributes :: inner ∧ Balanced inner

/-- Every closing token closes the last element that is open in front of it. -/
def WellNested (tokens : List Token) : Prop :=
  ∀ before name after, tokens = before ++ .closing name :: after → Innermost before name

/-- The same for tokens that stand behind others. -/
def NestedBehind (before tokens : List Token) : Prop :=
  ∀ inner name after, tokens = inner ++ .closing name :: after → Innermost (before ++ inner) name

/-- The elements with these names are open behind the tokens, the last one first. -/
inductive LeavesOpen : List Token → List String → Prop
  | balanced {tokens : List Token} (h : Balanced tokens) : LeavesOpen tokens []
  | opening {outer inner : List Token} {name : String} {attributes : List (String × String)}
      {names : List String} (houter : LeavesOpen outer names) (hinner : Balanced inner) :
      LeavesOpen (outer ++ .opening name attributes :: inner) (name :: names)

theorem Balanced.append (h : Balanced tokens) (hmore : Balanced more) :
    Balanced (tokens ++ more) := by
  induction h with
  | nil => exact hmore
  | text _ ih => exact .text ih
  | element hinner _ _ ih =>
    rw [List.cons_append, List.append_assoc, List.cons_append]
    exact .element hinner ih

theorem LeavesOpen.append (h : LeavesOpen tokens names) (hmore : Balanced more) :
    LeavesOpen (tokens ++ more) names := by
  cases h with
  | balanced h => exact .balanced (h.append hmore)
  | opening houter hinner =>
    rw [List.append_assoc, List.cons_append]
    exact .opening houter (hinner.append hmore)

/-- The last element may be closed. -/
theorem LeavesOpen.close (h : LeavesOpen tokens (name :: names)) :
    LeavesOpen (tokens ++ [.closing name]) names := by
  cases h with
  | opening houter hinner =>
    rw [List.append_assoc, List.cons_append]
    exact houter.append (.element hinner .nil)

theorem LeavesOpen.innermost (h : LeavesOpen tokens (name :: names)) : Innermost tokens name := by
  cases h with
  | opening houter hinner => exact ⟨_, _, _, rfl, hinner⟩

theorem nestedBehind_nil : NestedBehind before [] := by
  intro inner name after h
  cases inner <;> cases h

theorem nestedBehind_cons {token : Token} :
    NestedBehind before (token :: more) ↔
      (∀ name, token = .closing name → Innermost before name) ∧
        NestedBehind (before ++ [token]) more := by
  constructor
  · intro h
    constructor
    · rintro name rfl
      have hinner := h [] name more rfl
      rwa [List.append_nil] at hinner
    · rintro inner name after rfl
      rw [List.append_assoc]
      exact h (token :: inner) name after rfl
  · rintro ⟨htoken, hmore⟩ inner name after htokens
    rcases inner with - | ⟨first, inner⟩
    · obtain ⟨rfl, -⟩ := List.cons.inj htokens
      rw [List.append_nil]
      exact htoken name rfl
    · obtain ⟨rfl, rfl⟩ := List.cons.inj htokens
      have hinner := hmore inner name after rfl
      rwa [List.append_assoc] at hinner

theorem NestedBehind.append (h : NestedBehind before tokens)
    (hmore : NestedBehind (before ++ tokens) more) : NestedBehind before (tokens ++ more) := by
  induction tokens generalizing before with
  | nil => rwa [List.append_nil] at hmore
  | cons token rest ih =>
    obtain ⟨htoken, hrest⟩ := nestedBehind_cons.1 h
    rw [List.append_cons] at hmore
    exact nestedBehind_cons.2 ⟨htoken, ih hrest hmore⟩

/-- A token that closes nothing. -/
theorem nestedBehind_singleton {token : Token} (h : ∀ name, token ≠ .closing name) :
    NestedBehind before [token] :=
  nestedBehind_cons.2 ⟨fun name hname => absurd hname (h name), nestedBehind_nil⟩

end

/-! ### Documents -/

namespace Markup

variable {opened others : List String} {before tokens : List Token}

theorem closeElement_eq_ok_iff {name : String} :
    closeElement opened name = .ok others ↔ opened = name :: others := by
  rcases opened with - | ⟨innermost, rest⟩
  · simp [closeElement]
  · by_cases h : innermost = name
    · simp [closeElement, h]
    · simp [closeElement, h]

/-- **A piece** keeps to the elements that are open. -/
theorem pieceTokens_nested {piece : Piece} (h : pieceTokens opened piece = .ok (tokens, others))
    (hopen : LeavesOpen before opened) :
    NestedBehind before tokens ∧ LeavesOpen (before ++ tokens) others := by
  cases piece with
  | text chars =>
    obtain ⟨text, -, hresult⟩ := except_bind_eq_ok_iff.1 h
    obtain ⟨rfl, rfl⟩ := Prod.mk.inj (Except.ok.inj hresult)
    exact ⟨nestedBehind_singleton nofun, hopen.append (.text .nil)⟩
  | cdata chars =>
    obtain ⟨rfl, rfl⟩ := Prod.mk.inj (Except.ok.inj h)
    exact ⟨nestedBehind_singleton nofun, hopen.append (.text .nil)⟩
  | opening content =>
    obtain ⟨tag, -, hresult⟩ := except_bind_eq_ok_iff.1 h
    have hopened : LeavesOpen (before ++ [.opening tag.name tag.attributes]) (tag.name :: opened) :=
      .opening hopen .nil
    split at hresult
    · -- the element is closed at once
      obtain ⟨rfl, rfl⟩ := Prod.mk.inj (Except.ok.inj hresult)
      rw [List.append_cons]
      refine ⟨nestedBehind_cons.2 ⟨nofun, nestedBehind_cons.2 ⟨?_, nestedBehind_nil⟩⟩, ?_⟩
      · rintro name ⟨⟩
        exact hopened.innermost
      · exact hopened.close
    · obtain ⟨rfl, rfl⟩ := Prod.mk.inj (Except.ok.inj hresult)
      exact ⟨nestedBehind_singleton nofun, hopened⟩
  | closing content =>
    obtain ⟨rest, hclose, hresult⟩ := except_bind_eq_ok_iff.1 h
    obtain ⟨rfl, rfl⟩ := Prod.mk.inj (Except.ok.inj hresult)
    obtain rfl := closeElement_eq_ok_iff.1 hclose
    refine ⟨nestedBehind_cons.2 ⟨?_, nestedBehind_nil⟩, hopen.close⟩
    rintro name ⟨⟩
    exact hopen.innermost

theorem tokensFrom_nested {items : List (Except Error Piece)}
    (h : tokensFrom opened items = .ok tokens) (hopen : LeavesOpen before opened) :
    NestedBehind before tokens := by
  induction items generalizing opened before tokens with
  | nil =>
    obtain rfl := Except.ok.inj h
    exact nestedBehind_nil
  | cons item rest ih =>
    obtain ⟨piece, -, h⟩ := except_bind_eq_ok_iff.1 h
    obtain ⟨⟨first, inner⟩, hpiece, h⟩ := except_bind_eq_ok_iff.1 h
    obtain ⟨more, hmore, hresult⟩ := except_bind_eq_ok_iff.1 h
    obtain rfl := Except.ok.inj hresult
    obtain ⟨hfirst, hinner⟩ := pieceTokens_nested hpiece hopen
    exact hfirst.append (ih hmore hinner)

theorem wellNested_tokens {document : String} (h : Markup.tokens document = .ok tokens) :
    WellNested tokens :=
  tokensFrom_nested h (.balanced .nil)

end Markup

/-! ### Readers -/

namespace Error

/-- A closing tag that does not match. -/
inductive OfNesting : Error → Prop
  | mismatchedClose (expected : Element) (found : String) :
    OfNesting (.mismatchedClose expected found)

variable {e : Error}

@[simp] theorem ofNesting_iff :
    e.OfNesting ↔ ∃ expected found, e = .mismatchedClose expected found := by
  constructor
  · rintro ⟨expected, found⟩
    exact ⟨expected, found, rfl⟩
  · rintro ⟨expected, found, rfl⟩
    exact .mismatchedClose expected found

theorem OfTag.not_ofNesting (h : e.OfTag) : ¬ e.OfNesting := by
  rintro ⟨⟩
  cases h

theorem OfContent.not_ofNesting (h : e.OfContent) : ¬ e.OfNesting := by
  rintro ⟨⟩
  cases h

theorem AtEnd.not_ofNesting (h : e.AtEnd) : ¬ e.OfNesting := by
  rintro ⟨⟩
  cases h

end Error

/-- The names of the elements that are open behind a token. -/
def openBehind (opened : List String) : Token → List String
  | .opening name _ => name :: opened
  | .text _ => opened
  | .closing _ => opened.tail

theorem Balanced.foldl_openBehind {tokens : List Token} (h : Balanced tokens)
    (opened : List String) : tokens.foldl openBehind opened = opened := by
  induction h generalizing opened with
  | nil => rfl
  | text _ ih => exact ih opened
  | element _ _ ihinner ihrest =>
    rw [List.foldl_cons, List.foldl_append, ihinner, List.foldl_cons]
    exact ihrest opened

theorem Innermost.head?_foldl {tokens : List Token} {name : String} (h : Innermost tokens name) :
    (tokens.foldl openBehind []).head? = some name := by
  obtain ⟨outer, attributes, inner, rfl, hinner⟩ := h
  rw [List.foldl_append, List.foldl_cons, hinner.foldl_openBehind]
  rfl

namespace Header

theorem Tagged.element_name {header : Header} {name : String}
    {attributes : List (String × String)} (h : header.Tagged name attributes) :
    header.element.name = name := by
  match header, h with
  | .attribute .., ⟨hname, _⟩ => exact hname.symm
  | .indices .., ⟨hname, _⟩ => exact hname.symm
  | .arrays .., ⟨hname, _⟩ => exact hname.symm

end Header

namespace Reader

variable {reader : Reader} {token : Token} {before tokens : List Token}

/-- The names of the elements that are open where a reader stands. -/
def names : Reader → List String
  | root | done | failed => []
  | mesh => [Element.mesh.name]
  | block header _ => [header.element.name, Element.mesh.name]

/-- **One token** that closes nothing but the last element: a reader goes along with the elements,
or has something else against the token. -/
theorem feed_nested_cases (hreader : reader ≠ failed)
    (htoken : ∀ name, token = .closing name → reader.names.head? = some name) :
    (∃ next, next.names = openBehind reader.names token ∧
        (reader.feed (some token) = (next, .more) ∨
          ∃ event, reader.feed (some token) = (next, .event event))) ∨
      ∃ e : Error, ¬ e.OfNesting ∧ reader.feed (some token) = fail e := by
  cases reader with
  | root =>
    rcases token with ⟨name, attributes⟩ | text | name
    · by_cases hname : name = Element.mesh.name
      · exact .inl ⟨mesh, by rw [hname]; rfl, .inr ⟨_, if_pos hname⟩⟩
      · exact .inr ⟨.missingRoot _, by simp, if_neg hname⟩
    · by_cases hblank : isBlankText text = true
      · exact .inl ⟨root, rfl, .inl (if_pos hblank)⟩
      · exact .inr ⟨.missingRoot _, by simp, if_neg hblank⟩
    · exact .inr ⟨.missingRoot _, by simp, rfl⟩
  | mesh =>
    rcases token with ⟨name, attributes⟩ | text | name
    · rcases hheader : Header.ofTag name attributes with e | header
      · have htag := (Header.failsWith_ofTag attributes name).of_error hheader
        exact .inr ⟨e, htag.not_ofNesting, by rw [feed, feedMesh, hheader]⟩
      · have hname := (Header.tagged_of_ofTag hheader).element_name
        refine .inl ⟨block header "", ?_, .inl (by rw [feed, feedMesh, hheader])⟩
        exact congrArg (· :: _) hname
    · by_cases hblank : isBlankText text = true
      · exact .inl ⟨mesh, rfl, .inl (if_pos hblank)⟩
      · exact .inr ⟨.unexpectedText .mesh, by simp, if_neg hblank⟩
    · have hname : name = Element.mesh.name := (Option.some.inj (htoken name rfl)).symm
      exact .inl ⟨done, rfl, .inr ⟨_, if_pos hname⟩⟩
  | block header text =>
    rcases token with ⟨name, attributes⟩ | more | name
    · exact .inr ⟨.unexpectedTag _ name, by simp, rfl⟩
    · exact .inl ⟨block header (text ++ more), rfl, .inl rfl⟩
    · have hname : name = header.element.name := (Option.some.inj (htoken name rfl)).symm
      rw [feed, feedBlock, if_pos hname]
      rcases hcomplete : header.complete text with e | b
      · obtain rfl := (header.failsWith_complete text).of_error hcomplete
        exact .inr ⟨.unexpectedText .arrays, by simp, rfl⟩
      · exact .inl ⟨mesh, rfl, .inr ⟨_, rfl⟩⟩
  | done =>
    rcases token with ⟨name, attributes⟩ | text | name
    · exact .inr ⟨.trailingContent, by simp, rfl⟩
    · by_cases hblank : isBlankText text = true
      · exact .inl ⟨done, rfl, .inl (if_pos hblank)⟩
      · exact .inr ⟨.trailingContent, by simp, if_neg hblank⟩
    · exact .inr ⟨.trailingContent, by simp, rfl⟩
  | failed => exact absurd rfl hreader

/-- A reader that stands where its tokens do finds no closing tag that does not match. -/
theorem not_ofNesting_of_mem_itemsFrom (hnested : NestedBehind before tokens)
    (hnames : reader.names = before.foldl openBehind []) {e : Error}
    (he : .error e ∈ reader.itemsFrom tokens) : ¬ e.OfNesting := by
  induction tokens generalizing reader before with
  | nil =>
    cases reader with
    | root | mesh | block =>
      cases List.mem_singleton.1 he
      nofun
    | done | failed => cases he
  | cons token rest ih =>
    by_cases hreader : reader = failed
    · subst hreader
      cases he
    obtain ⟨htoken, hrest⟩ := nestedBehind_cons.1 hnested
    have hcloses : ∀ name, token = .closing name → reader.names.head? = some name := by
      intro name hname
      rw [hnames]
      exact (htoken name hname).head?_foldl
    rcases feed_nested_cases hreader hcloses with
      ⟨next, hnext, hfeed | ⟨event, hfeed⟩⟩ | ⟨e', he', hfeed⟩
    · have hbehind : next.names = (before ++ [token]).foldl openBehind [] := by
        rw [hnext, hnames, List.foldl_append]
        rfl
      rw [itemsFrom_cons_more hfeed] at he
      exact ih hrest hbehind he
    · have hbehind : next.names = (before ++ [token]).foldl openBehind [] := by
        rw [hnext, hnames, List.foldl_append]
        rfl
      rw [itemsFrom_cons_event hfeed] at he
      exact ih hrest hbehind ((List.mem_cons.1 he).resolve_left nofun)
    · rw [itemsFrom_cons_error hfeed] at he
      cases List.mem_singleton.1 he
      exact he'

end Reader

/-! ### Compilations -/

namespace Compiler

variable {P : Error → Prop}

/-- A compilation fails with the errors of the items, or with those of pushes. -/
theorem failsWith_pushItems (hpush : ∀ c event, FailsWith P (push c event).next.result)
    {items : List (Except Error Event)} (hitems : ∀ e, .error e ∈ items → P e) (c : Compiler) :
    FailsWith P (c.pushItems items).result := by
  induction items generalizing c with
  | nil => exact .ok c
  | cons item rest ih =>
    have hrest := ih fun e he => hitems e (List.mem_cons_of_mem _ he)
    rcases item with e | event
    · exact .error (hitems e List.mem_cons_self)
    · apply Logged.failsWith_bind (.ok event)
      intro event
      exact Logged.failsWith_bind (hpush c event) hrest

end Compiler

theorem Stage.failsWith_after_not_ofNesting (stage : Stage) (event : Event) :
    FailsWith (fun e => ¬ e.OfNesting) (stage.after event) := by
  rcases stage with - | - | - <;> rcases event with - | block | - <;>
    first | exact .ok _ | exact .error nofun

/-- **A document is well nested**: each closing token of it closes the last element that is open,
and there is one.  So no compilation of a document ends at a closing tag that does not match. -/
theorem wellNested_of_tokens {document : String} {tokens : List Token}
    (h : Markup.tokens document = .ok tokens) :
    WellNested tokens ∧ ∀ options expected found,
      (compileTokens options tokens).result ≠ .error (.mismatchedClose expected found) := by
  have hnested := Markup.wellNested_tokens h
  refine ⟨hnested, fun options expected found herror => ?_⟩
  have hbehind : NestedBehind [] tokens := hnested
  have hitems : ∀ e, .error e ∈ Reader.items tokens → ¬ e.OfNesting := fun e =>
    Reader.not_ofNesting_of_mem_itemsFrom hbehind rfl
  have hfails : FailsWith (fun e => ¬ e.OfNesting) (compileTokens options tokens).result := by
    apply Logged.failsWith_bind
    · refine Compiler.failsWith_pushItems (fun c event => ?_) hitems _
      exact c.failsWith_push_of (c.stage.failsWith_after_not_ofNesting event)
        fun e he => he.not_ofNesting
    · exact fun c => c.failsWith_finish.imp fun e he => he.not_ofNesting
  exact hfails.of_error herror (.mismatchedClose expected found)

/-- A document that breaks off behind an element that closes itself. -/
def unfinished : String :=
  String.ofList ("<mesh>".toList ++ Markup.writeEmptyElement "arrays" [("cmd", "points")])

theorem wellNested_unfinished :
    Markup.tokens unfinished = .ok [.opening "mesh" [], .opening "arrays" [("cmd", "points")],
        .closing "arrays"] ∧
      Innermost [.opening "mesh" [], .opening "arrays" [("cmd", "points")]] "arrays" ∧
      ∀ expected found, (compileTokens .strict [.opening "mesh" [],
        .opening "arrays" [("cmd", "points")], .closing "arrays"]).result ≠
          .error (.mismatchedClose expected found) := by
  have htokens : Markup.tokens unfinished = .ok [.opening "mesh" [],
      .opening "arrays" [("cmd", "points")], .closing "arrays"] := by
    have hchars : unfinished.toList = _ := String.toList_ofList
    rw [Markup.tokens, hchars]
    rfl
  obtain ⟨hnested, hcompile⟩ := wellNested_of_tokens htokens
  exact ⟨htokens, hnested [_, _] "arrays" [] rfl, hcompile .strict⟩

end MeshLayout
