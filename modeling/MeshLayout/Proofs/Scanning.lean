/-
MeshLayout/Proofs/Scanning.lean

Elements that are read back as they were written.

Markup is read in two layers, and so is the argument: the machine of modes
cuts characters into pieces (`Cuts`), and pieces are resolved and nested into
tokens (`Yields`).  Each can be put together from consecutive parts, and so can
the two in one (`Scans`).  The machine collects characters until one comes that
ends what it is in, and no such character is among those that are written there
(`cuts_text`, `cuts_value`, `cuts_section`).

Where runs of text meet, the pieces need not: character data goes on through
several runs and is complete at the next bracket.  Main results: `scans_runs`,
`scans_element` and `tokens_of_scans`, which takes them to whole documents.
-/
import MeshLayout.Proofs.Writing

namespace MeshLayout

namespace Markup

/-! ### Pieces -/

section Pieces

variable {mode next last : Mode} {c : Char} {chars more read : List Char}
  {pieces others : List Piece}

/-- From one mode to another, the machine cuts the characters into the pieces. -/
def Cuts (mode : Mode) (chars : List Char) (pieces : List Piece) (next : Mode) : Prop :=
  ∀ rest, piecesFrom mode (chars ++ rest) = pieces.map .ok ++ piecesFrom next rest

theorem cuts_nil : Cuts mode [] [] mode := fun _ => rfl

theorem Cuts.append (h : Cuts mode chars pieces next) (hmore : Cuts next more others last) :
    Cuts mode (chars ++ more) (pieces ++ others) last := by
  intro rest
  rw [List.append_assoc, h, hmore, List.map_append, List.append_assoc]

theorem cuts_step {piece : Option Piece} (h : mode.step c = .ok (next, piece)) :
    Cuts mode [c] piece.toList next := by
  intro rest
  rw [List.singleton_append, piecesFrom, h]
  rfl

/-- A character that completes nothing. -/
theorem Cuts.pass (h : mode.step c = .ok (next, none)) (hmore : Cuts next more others last) :
    Cuts mode (c :: more) others last := (cuts_step h).append hmore

/-- Characters that are collected.  What the machine makes of a character may depend on those
before it. -/
theorem cuts_collect {collect : List Char → Mode}
    (h : ∀ before c after, chars = before ++ c :: after →
      (collect (before.reverse ++ read)).step c =
        .ok (collect (c :: (before.reverse ++ read)), none)) :
    Cuts (collect read) chars [] (collect (chars.reverse ++ read)) := by
  induction chars generalizing read with
  | nil => exact cuts_nil
  | cons c chars ih =>
    have hmore : Cuts (collect (c :: read)) chars [] (collect (chars.reverse ++ c :: read)) := by
      apply ih
      rintro before d after rfl
      have hd := h (c :: before) d after rfl
      rwa [List.reverse_cons, List.append_assoc] at hd
    rw [List.reverse_cons, List.append_assoc]
    exact hmore.pass (h [] c chars rfl)

theorem cuts_text (read : List Char) (h : ∀ c ∈ chars, c ≠ '<') :
    Cuts (.text read) chars [] (.text (chars.reverse ++ read)) := by
  apply cuts_collect
  rintro before c after rfl
  exact if_neg (h c (List.mem_append_right _ (List.mem_cons_self ..)))

theorem cuts_value (read : List Char) (h : ∀ c ∈ chars, c ≠ '"') :
    Cuts (.tag (some '"') read) chars [] (.tag (some '"') (chars.reverse ++ read)) := by
  apply @cuts_collect chars read (.tag (some '"'))
  rintro before c after rfl
  have hc := h c (List.mem_append_right _ (List.mem_cons_self ..))
  rw [Mode.step, Mode.stepTag, if_neg hc]

theorem cuts_name (read : List Char) (h : ∀ c ∈ chars, c.isLower = true) :
    Cuts (.tag none read) chars [] (.tag none (chars.reverse ++ read)) := by
  apply @cuts_collect chars read (.tag none)
  rintro before c after rfl
  have hc := h c (List.mem_append_right _ (List.mem_cons_self ..))
  have hquote : (c = '"' || c = '\'') = false := by
    simp [ne_of_isLower hc]
  rw [Mode.step, Mode.stepTag, if_neg (ne_of_isLower hc rfl), hquote]
  rfl

theorem endsCData_iff : endsCData read = true ↔ ∃ earlier, read = ']' :: ']' :: earlier := by
  constructor
  · intro h
    unfold endsCData at h
    split at h
    · exact ⟨_, rfl⟩
    · cases h
  · rintro ⟨earlier, rfl⟩
    rfl

/-- Text without the end of a section in it does not end the section, unless the end begins before
the text. -/
theorem cuts_section (read : List Char) (h : ¬ "]]>".toList <:+: chars)
    (hread : ∀ earlier, read ≠ ']' :: earlier) :
    Cuts (.cdata read) chars [] (.cdata (chars.reverse ++ read)) := by
  apply cuts_collect
  rintro before c after rfl
  have hends : (c = '>' && endsCData (before.reverse ++ read)) = false := by
    rw [Bool.eq_false_iff]
    intro hends
    rw [Bool.and_eq_true, decide_eq_true_iff, endsCData_iff] at hends
    obtain ⟨rfl, earlier, hends⟩ := hends
    rcases hbefore : before.reverse with - | ⟨x, - | ⟨y, inner⟩⟩ <;> rw [hbefore] at hends
    · exact hread _ hends
    · exact hread _ (List.cons.inj hends).2
    · obtain ⟨rfl, hsecond⟩ := List.cons.inj hends
      obtain ⟨rfl, -⟩ := List.cons.inj hsecond
      refine h ⟨inner.reverse, after, ?_⟩
      rw [List.reverse_eq_iff.1 hbefore]
      simp
  rw [Mode.step, hends]
  rfl

theorem cuts_writeAttribute {entry : String × String} (hname : IsName entry.1) :
    Cuts (.tag none read) (writeAttribute entry) []
      (.tag none ((writeAttribute entry).reverse ++ read)) := by
  have hkey := cuts_name (' ' :: read) hname.2
  have hvalue := cuts_value ('"' :: '=' :: (entry.1.toList.reverse ++ ' ' :: read))
    fun c (hc : c ∈ escape entry.2.toList) => ne_of_mem_escape hc rfl
  have hquote : (Mode.tag (some '"') ((escape entry.2.toList).reverse ++
      '"' :: '=' :: (entry.1.toList.reverse ++ ' ' :: read))).step '"' = .ok (.tag none ('"' ::
        ((escape entry.2.toList).reverse ++
          '"' :: '=' :: (entry.1.toList.reverse ++ ' ' :: read))), none) := rfl
  have hread : (writeAttribute entry).reverse ++ read = '"' :: ((escape entry.2.toList).reverse ++
      '"' :: '=' :: (entry.1.toList.reverse ++ ' ' :: read)) := by
    simp [writeAttribute]
  rw [hread]
  exact .pass rfl (hkey.append (.pass rfl (.pass rfl (hvalue.append (cuts_step hquote)))))

theorem cuts_writeTag {name : String} {attributes : List (String × String)} (hname : IsName name)
    (hkeys : ∀ entry ∈ attributes, IsName entry.1) :
    Cuts (.tag none read) (writeTag name attributes) []
      (.tag none ((writeTag name attributes).reverse ++ read)) := by
  have hattributes : ∀ read, Cuts (.tag none read) (attributes.flatMap writeAttribute) []
      (.tag none ((attributes.flatMap writeAttribute).reverse ++ read)) := by
    induction attributes with
    | nil => exact fun _ => cuts_nil
    | cons entry attributes ih =>
      intro read
      obtain ⟨hentry, hentries⟩ := List.forall_mem_cons.1 hkeys
      rw [List.flatMap_cons, List.reverse_append, List.append_assoc]
      exact (cuts_writeAttribute hentry).append (ih hentries _)
  rw [writeTag, List.reverse_append, List.append_assoc]
  exact (cuts_name read hname.2).append (hattributes _)

/-- A tag, from behind its opening bracket on. -/
theorem cuts_tag {content : List Char} (hcontent : content = c :: chars) (hbang : c ≠ '!')
    (hquestion : c ≠ '?')
    (h : Cuts (.tag none []) content [] (.tag none (content.reverse ++ []))) :
    Cuts .bracket (content ++ ['>']) [closeTag content.reverse] (.text []) := by
  rw [List.append_nil] at h
  have hend : (Mode.tag none content.reverse).step '>' =
      .ok (.text [], some (closeTag content.reverse)) := rfl
  have hclose : Cuts (.tag none content.reverse) ['>'] [closeTag content.reverse] (.text []) :=
    cuts_step hend
  have htag := h.append hclose
  subst hcontent
  intro rest
  -- the first character of the tag tells that it is one
  have hfirst : Mode.bracket.step c = (Mode.tag none []).step c := by
    rw [Mode.step, Mode.stepBracket, if_neg hbang, if_neg hquestion]
    rfl
  have hsame : piecesFrom .bracket ((c :: chars ++ ['>']) ++ rest) =
      piecesFrom (.tag none []) ((c :: chars ++ ['>']) ++ rest) := by
    rw [List.cons_append, List.cons_append, piecesFrom, piecesFrom, hfirst]
  rw [hsame]
  exact htag rest

theorem closeTag_of_ne {content : List Char} (hcontent : content = c :: chars) (h : c ≠ '/') :
    closeTag content.reverse = .opening content := by
  rw [closeTag, List.reverse_reverse, hcontent]
  split
  · next hslash => exact absurd (List.cons.inj hslash).1 h
  · rfl

end Pieces

/-! ### Whole tags -/

section Tags

variable {name : String} {attributes : List (String × String)}

theorem exists_writeTag_eq_cons (attributes : List (String × String)) (hname : IsName name) :
    ∃ c chars, writeTag name attributes = c :: chars ∧ c.isLower = true := by
  obtain ⟨hne, hlower⟩ := hname
  obtain ⟨c, chars, hchars⟩ := List.exists_cons_of_ne_nil hne
  refine ⟨c, chars ++ attributes.flatMap writeAttribute, ?_, ?_⟩
  · rw [writeTag, hchars, List.cons_append]
  · rw [hchars] at hlower
    exact hlower c (List.mem_cons_self ..)

theorem cuts_openingTag (hname : IsName name) (hkeys : ProperKeys attributes) :
    Cuts .bracket (writeTag name attributes ++ ['>']) [.opening (writeTag name attributes)]
      (.text []) := by
  obtain ⟨c, chars, hchars, hc⟩ := exists_writeTag_eq_cons attributes hname
  have htag := cuts_tag hchars (ne_of_isLower hc rfl) (ne_of_isLower hc rfl)
    (cuts_writeTag hname hkeys.names)
  rwa [closeTag_of_ne hchars (ne_of_isLower hc rfl)] at htag

theorem cuts_emptyTag (hname : IsName name) (hkeys : ProperKeys attributes) :
    Cuts .bracket (writeTag name attributes ++ ['/'] ++ ['>'])
      [.opening (writeTag name attributes ++ ['/'])] (.text []) := by
  obtain ⟨c, chars, hchars, hc⟩ := exists_writeTag_eq_cons attributes hname
  have hslash : writeTag name attributes ++ ['/'] = c :: (chars ++ ['/']) := by
    rw [hchars, List.cons_append]
  have hcuts : Cuts (.tag none []) (writeTag name attributes ++ ['/']) []
      (.tag none ((writeTag name attributes ++ ['/']).reverse ++ [])) := by
    rw [List.reverse_append]
    exact (cuts_writeTag hname hkeys.names).append (.pass rfl cuts_nil)
  have htag := cuts_tag hslash (ne_of_isLower hc rfl) (ne_of_isLower hc rfl) hcuts
  rwa [closeTag_of_ne hslash (ne_of_isLower hc rfl)] at htag

theorem cuts_closingTag (hname : IsName name) :
    Cuts .bracket ('/' :: name.toList ++ ['>']) [.closing name.toList] (.text []) := by
  have hcuts : Cuts (.tag none []) ('/' :: name.toList) []
      (.tag none (('/' :: name.toList).reverse ++ [])) := by
    rw [List.reverse_cons, List.append_assoc]
    exact .pass rfl (cuts_name _ hname.2)
  have htag := cuts_tag rfl (by decide) (by decide) hcuts
  rwa [closeTag, List.reverse_reverse] at htag

end Tags

/-! ### Tokens -/

section Tokens

variable {opened inner outer : List String} {mode next last : Mode} {chars more : List Char}
  {pieces others : List Piece} {tokens later : List Token}

/-- With some elements open, the pieces give the tokens, and other elements are open then. -/
def Yields (opened : List String) (pieces : List Piece) (tokens : List Token)
    (inner : List String) : Prop :=
  ∀ rest, tokensFrom opened (pieces.map .ok ++ rest) = (tokensFrom inner rest).map (tokens ++ ·)

theorem yields_nil : Yields opened [] [] opened := by
  intro rest
  show tokensFrom opened rest = _
  rcases tokensFrom opened rest with e | tokens
  · rfl
  · rfl

theorem Yields.append (h : Yields opened pieces tokens inner)
    (hothers : Yields inner others later outer) :
    Yields opened (pieces ++ others) (tokens ++ later) outer := by
  intro rest
  rw [List.map_append, List.append_assoc, h, hothers]
  rcases tokensFrom outer rest with e | tokens'
  · rfl
  · show Except.ok (tokens ++ (later ++ tokens')) = Except.ok (tokens ++ later ++ tokens')
    rw [List.append_assoc]

theorem yields_piece {piece : Piece} (h : pieceTokens opened piece = .ok (tokens, inner)) :
    Yields opened [piece] tokens inner := by
  intro rest
  show tokensFrom opened (.ok piece :: rest) = _
  rw [tokensFrom]
  simp only [bind, Except.bind, h]
  rfl

/-- The machine reads the characters from one mode to another, and their pieces give the tokens. -/
def Scans (opened : List String) (mode : Mode) (chars : List Char) (tokens : List Token)
    (inner : List String) (next : Mode) : Prop :=
  ∃ pieces, Cuts mode chars pieces next ∧ Yields opened pieces tokens inner

theorem Scans.append (h : Scans opened mode chars tokens inner next)
    (hmore : Scans inner next more later outer last) :
    Scans opened mode (chars ++ more) (tokens ++ later) outer last := by
  obtain ⟨pieces, hcuts, hyields⟩ := h
  obtain ⟨others, hcutsMore, hyieldsMore⟩ := hmore
  exact ⟨pieces ++ others, hcuts.append hcutsMore, hyields.append hyieldsMore⟩

theorem scans_nil : Scans opened mode [] [] opened mode := ⟨[], cuts_nil, yields_nil⟩

/-- A single piece. -/
theorem Cuts.scans {piece : Piece} (h : Cuts mode chars [piece] next)
    (hpiece : pieceTokens opened piece = .ok (tokens, inner)) :
    Scans opened mode chars tokens inner next := ⟨[piece], h, yields_piece hpiece⟩

/-- Characters of which no piece comes. -/
theorem Cuts.scans_nil (h : Cuts mode chars [] next) : Scans opened mode chars [] opened next :=
  ⟨[], h, yields_nil⟩

/-- Behind a construct, a bracket completes no character data. -/
theorem scans_bracket_of_empty : Scans opened (.text []) ['<'] [] opened .bracket :=
  Cuts.scans_nil (.pass rfl cuts_nil)

/-- Character data is complete at the next bracket, unless there is none of it. -/
theorem scans_bracket (opened : List String) (text : String) :
    ∃ texts : List String, Scans opened (.text (escape text.toList).reverse) ['<']
      (texts.map .text) opened .bracket ∧ String.join texts = text := by
  have hcuts : Cuts (.text (escape text.toList).reverse) ['<']
      (closeText (escape text.toList).reverse).toList .bracket := cuts_step rfl
  have hresolve := resolveText_escape text
  by_cases hempty : escape text.toList = []
  · rw [hempty] at hcuts hresolve ⊢
    obtain rfl : "" = text := Except.ok.inj hresolve
    exact ⟨[], hcuts.scans_nil, rfl⟩
  · have hclose : closeText (escape text.toList).reverse = some (.text (escape text.toList)) := by
      rw [closeText, List.isEmpty_reverse, List.isEmpty_eq_false_iff.2 hempty, List.reverse_reverse]
      rfl
    have hpiece : pieceTokens opened (.text (escape text.toList)) = .ok ([.text text], opened) := by
      rw [pieceTokens, hresolve]
      rfl
    rw [hclose] at hcuts
    exact ⟨[text], hcuts.scans hpiece, by simp⟩

theorem closeCData_section (text : List Char) :
    closeCData (']' :: ']' :: (text.reverse ++ "![CDATA[".toList.reverse)) =
      .ok (.text [], some (.cdata text)) := by
  have hcontent : (']' :: ']' :: (text.reverse ++ "![CDATA[".toList.reverse)).reverse =
      "![CDATA[".toList ++ (text ++ [']'] ++ [']']) := by
    simp
  have hopener : "![CDATA[".toList.isPrefixOf ("![CDATA[".toList ++ (text ++ [']'] ++ [']'])) := by
    rw [List.isPrefixOf_iff_prefix]
    exact List.prefix_append _ _
  rw [closeCData, hcontent]
  show (if "![CDATA[".toList.isPrefixOf _ = true then _ else _) = _
  rw [if_pos hopener, List.drop_left, List.dropLast_concat, List.dropLast_concat]

/-- A section, from behind its first bracket on. -/
theorem scans_section (opened : List String) {text : String} (h : ¬ "]]>".toList <:+: text.toList) :
    Scans opened .bracket ("![CDATA[".toList ++ (text.toList ++ "]]>".toList)) [.text text] opened
      (.text []) := by
  have hopen : Cuts .bracket "![CDATA[".toList [] (.cdata "![CDATA[".toList.reverse) :=
    fun _ => rfl
  have htext := cuts_section "![CDATA[".toList.reverse h
    fun earlier heq => absurd (List.cons.inj heq).1 (by decide)
  have hclose : Cuts (.cdata (text.toList.reverse ++ "![CDATA[".toList.reverse)) "]]>".toList
      [.cdata text.toList] (.text []) := by
    have hend : (Mode.cdata (']' :: ']' :: (text.toList.reverse ++ "![CDATA[".toList.reverse))).step
        '>' = .ok (.text [], some (.cdata text.toList)) := closeCData_section text.toList
    exact .pass rfl (.pass rfl (cuts_step hend))
  have hpiece : pieceTokens opened (.cdata text.toList) = .ok ([.text text], opened) := by
    rw [pieceTokens, String.ofList_toList]
  exact (hopen.append (htext.append hclose)).scans hpiece

/-- **Runs of text**: whatever they are, the texts that are read make up their text. -/
theorem scans_runs (opened : List String) (text : String) (runs : List TextRun) :
    ∃ texts : List String, Scans opened (.text (escape text.toList).reverse)
        (runs.flatMap TextRun.written ++ ['<']) (texts.map .text) opened .bracket ∧
      String.join texts = text ++ textOf runs := by
  -- `text` has been written as character data at the end of what stands before
  induction runs generalizing text with
  | nil =>
    obtain ⟨texts, hscans, htexts⟩ := scans_bracket opened text
    exact ⟨texts, hscans, by simpa [textOf] using htexts⟩
  | cons run runs ih =>
    rw [List.flatMap_cons, List.append_assoc, textOf, List.map_cons, String.join_cons]
    match run with
    | .data more =>
      obtain ⟨texts, hscans, htexts⟩ := ih (text ++ more)
      have hmore := cuts_text (escape text.toList).reverse
        fun c (hc : c ∈ escape more.toList) => ne_of_mem_escape hc rfl
      have hread : (escape (text ++ more).toList).reverse =
          (escape more.toList).reverse ++ (escape text.toList).reverse := by
        simp [escape]
      rw [hread] at hscans
      refine ⟨texts, hmore.scans_nil.append hscans, ?_⟩
      rw [htexts, String.append_assoc]
      rfl
    | .literal more hend =>
      obtain ⟨before, hbefore, hbeforeText⟩ := scans_bracket opened text
      obtain ⟨texts, hscans, htexts⟩ := ih ""
      refine ⟨before ++ more :: texts, ?_, ?_⟩
      · rw [List.map_append]
        exact hbefore.append ((scans_section opened hend).append hscans)
      · rw [String.join_append, String.join_cons, hbeforeText, htexts, String.empty_append]
        rfl

variable {name : String} {attributes : List (String × String)}

theorem scans_openingTag (opened : List String) (hname : IsName name)
    (hkeys : ProperKeys attributes) :
    Scans opened (.text []) ('<' :: (writeTag name attributes ++ ['>']))
      [.opening name attributes] (name :: opened) (.text []) := by
  have hopening : pieceTokens opened (.opening (writeTag name attributes)) =
      .ok ([.opening name attributes], name :: opened) := by
    rw [pieceTokens, ofContent_writeTag hname hkeys]
    rfl
  exact scans_bracket_of_empty.append ((cuts_openingTag hname hkeys).scans hopening)

/-- **An element**, if what stands inside it is scanned up to the bracket of the closing tag. -/
theorem scans_element {inside : List Char} (hname : IsName name) (hkeys : ProperKeys attributes)
    (hinside : Scans (name :: opened) (.text []) (inside ++ ['<']) tokens (name :: opened)
      .bracket) :
    Scans opened (.text []) (writeElement name attributes inside)
      (.opening name attributes :: (tokens ++ [.closing name])) opened (.text []) := by
  have hclosing : pieceTokens (name :: opened) (.closing name.toList) =
      .ok ([.closing name], opened) := by
    rw [pieceTokens, closingName_name hname, closeElement, if_pos rfl]
    rfl
  have hparts : writeElement name attributes inside =
      '<' :: (writeTag name attributes ++ ['>']) ++
        ((inside ++ ['<']) ++ ('/' :: name.toList ++ ['>'])) := by
    simp [writeElement]
  rw [hparts]
  exact (scans_openingTag opened hname hkeys).append
    (hinside.append ((cuts_closingTag hname).scans hclosing))

theorem scans_emptyElement (hname : IsName name) (hkeys : ProperKeys attributes) :
    Scans opened (.text []) (writeEmptyElement name attributes)
      [.opening name attributes, .closing name] opened (.text []) := by
  have hpiece : pieceTokens opened (.opening (writeTag name attributes ++ ['/'])) =
      .ok ([.opening name attributes, .closing name], opened) := by
    rw [pieceTokens, ofContent_writeTag_slash hname hkeys]
    rfl
  have hparts : writeEmptyElement name attributes =
      ['<'] ++ (writeTag name attributes ++ ['/'] ++ ['>']) := by
    simp [writeEmptyElement]
  rw [hparts]
  exact scans_bracket_of_empty.append ((cuts_emptyTag hname hkeys).scans hpiece)

/-! ### Documents -/

/-- The tokens of a document that begins with these characters begin with these tokens, and these
elements are open behind them. -/
def Begins (front : List Char) (tokens : List Token) (opened : List String) : Prop :=
  ∀ rest, Markup.tokens (String.ofList (front ++ rest)) =
    (tokensFrom opened (piecesFrom (.text []) rest)).map (tokens ++ ·)

/-- A document may begin with what is scanned.  As this begins with a bracket, it does not begin
with a byte order mark. -/
theorem Scans.begins (h : Scans [] (.text []) ('<' :: chars) tokens opened (.text [])) :
    Begins ('<' :: chars) tokens opened := by
  obtain ⟨pieces, hcuts, hyields⟩ := h
  intro rest
  have hmark : dropByteOrderMark ('<' :: chars ++ rest) = '<' :: chars ++ rest := rfl
  rw [Markup.tokens, String.toList_ofList, hmark, documentPieces, hcuts, hyields]

/-- What is scanned next. -/
theorem Begins.tokens_eq {front : List Char} (h : Begins front tokens opened)
    (hscans : Scans opened (.text []) chars later inner mode) (rest : List Char) :
    Markup.tokens (String.ofList (front ++ (chars ++ rest))) =
      (tokensFrom inner (piecesFrom mode rest)).map (tokens ++ later ++ ·) := by
  obtain ⟨pieces, hcuts, hyields⟩ := hscans
  rw [h, hcuts, hyields]
  rcases tokensFrom inner (piecesFrom mode rest) with e | others
  · rfl
  · show Except.ok (tokens ++ (later ++ others)) = Except.ok (tokens ++ later ++ others)
    rw [List.append_assoc]

/-- A document that is scanned to its end has these tokens. -/
theorem tokens_of_scans (h : Scans [] (.text []) ('<' :: chars) tokens [] (.text [])) :
    Markup.tokens (String.ofList ('<' :: chars)) = .ok tokens := by
  have hrest := h.begins []
  rw [List.append_nil] at hrest
  rw [hrest]
  show Except.ok (tokens ++ []) = _
  rw [List.append_nil]

end Tokens

end Markup

end MeshLayout
