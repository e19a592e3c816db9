/-
MeshLayout/Proofs/Separation.lean

The values on either side of a comment.

A document with a comment in a block is read like the same document with a blank
in the place of the comment, up to the text of that block (`exists_tokens`).  So
the two compile like events that differ in the text of one block, where the blank
is missing (`exists_blocks`).  If nothing is enforced, what becomes of a
description with another text in one block depends on that text only: whether it
compiles (`acceptable_exchange`), and what the values of the block are
(`values_of_compile`).

Whether the values stay apart is therefore a question about the words of two
texts, one behind the other.  Any two texts may stand there, on either side of
any comment (`exists_commented`).  Main result: `comment_separates_iff`.
-/
import MeshLayout.Proofs.Acceptance
import MeshLayout.Proofs.Comments
import MeshLayout.Proofs.Documents
import MeshLayout.Proofs.Inspections
import MeshLayout.Proofs.Readback
import MeshLayout.Proofs.Words

namespace MeshLayout

open Markup

/-! ### The values of one block -/

/-- The type of the values in a block with this opening tag, if it holds any and has a type that is
known. -/
def Header.scalar? : Header → Option Scalar
  | .attribute _ typeName _ => (AttributeType.ofName? typeName).map AttributeType.scalar
  | .indices _ typeName => (IndexType.ofName? typeName).map IndexType.scalar
  | .arrays .. => none

/-- The values that a mesh holds for the block behind the given ones. -/
def Mesh.valuesBehind (mesh : Mesh) (k : Scalar) (before : List Block) :
    Header → Option (List k.Word)
  | .attribute .. => do
    let a ← mesh.attributes[(before.filterMap Block.declaration?).length]?
    if a.type.scalar = k then mesh.vertexData.values? k a.offset a.valueCount else none
  | .indices .. => do
    let command ← mesh.commands[(before.filter Block.isCommand).length]?
    match command with
    | .indexed _ offset count type =>
      if type.scalar = k then mesh.indexData.values? k offset count else none
    | .direct .. => none
  | .arrays .. => none

section

variable {before behind : List Block} {header : Header} {b b' : Block} {k : Scalar}
  {text text' : String} {mesh : Mesh}

theorem exists_getElem?_of_forall₂ {α β : Type} {R : α → β → Prop} {front rest : List α} {a : α}
    {others : List β} (h : List.Forall₂ R (front ++ a :: rest) others) :
    ∃ b, others[front.length]? = some b ∧ R a b := by
  induction front generalizing others with
  | nil =>
    cases h with
    | cons hfirst _ => exact ⟨_, rfl, hfirst⟩
  | cons _ _ ih =>
    cases h with
    | cons _ hrest => exact ih hrest

theorem Mesh.valuesBehind_attribute {slot components : UInt32} {typeName : String} {a : Attribute}
    (ha : mesh.attributes[(before.filterMap Block.declaration?).length]? = some a)
    (h : Declaration.Realized mesh.vertexData.bytes ⟨slot, typeName, components, text⟩ a) :
    ∃ values, a.type.scalar.readText text = .ok values ∧
      mesh.valuesBehind a.type.scalar before (.attribute slot typeName components) =
        some values := by
  obtain ⟨values, hparse, hvalues, -⟩ := h.readsBack
  refine ⟨values, Scalar.readText_eq_ok_iff.2 hparse, ?_⟩
  rw [valuesBehind, ha]
  exact (if_pos rfl).trans hvalues

theorem Mesh.valuesBehind_indices {primitiveName typeName : String} {mode : Primitive}
    {type : IndexType} {offset : Nat} {values : List type.scalar.Word}
    (hcommand : mesh.commands[(before.filter Block.isCommand).length]? =
      some (.indexed mode offset values.length type))
    (h : Stored mesh.indexData.bytes offset (type.scalar.bytesOf values)) :
    mesh.valuesBehind type.scalar before (.indices primitiveName typeName) = some values := by
  rw [valuesBehind, hcommand]
  exact (if_pos rfl).trans h.values?_eq

/-- **The values of a block** are those of its text. -/
theorem values_of_compile {options : Options}
    (h : (compile options (.enterMesh :: closingEvents (before ++ b :: behind))).result = .ok mesh)
    (hscalar : header.scalar? = some k) (hcomplete : header.complete text = .ok b) :
    ∃ values, k.readText text = .ok values ∧ mesh.valuesBehind k before header = some values := by
  obtain ⟨last, ⟨hattributes, hcommands⟩, rfl⟩ := holds_of_compile h
  rw [closingEvents, blocksOf_description] at hattributes hcommands
  rcases header with ⟨slot, typeName, components⟩ | ⟨primitiveName, typeName⟩ | ⟨_, _, _⟩
  · -- the row of the block is the one behind those of the blocks before
    cases hcomplete
    have hdeclared : (Block.attribute slot typeName components text).declaration? =
        some ⟨slot, typeName, components, text⟩ := rfl
    rw [List.filterMap_append, List.filterMap_cons_some hdeclared] at hattributes
    obtain ⟨a, ha, hrealized⟩ := exists_getElem?_of_forall₂ hattributes
    have htype : AttributeType.ofName? typeName = some a.type :=
      AttributeType.ofName?_eq_some_iff.2 hrealized.name_eq
    rw [Header.scalar?, htype] at hscalar
    obtain rfl := Option.some.inj hscalar
    exact Mesh.valuesBehind_attribute ha hrealized
  · -- and so is its command
    cases hcomplete
    rw [List.filter_append, List.filter_cons_of_pos rfl] at hcommands
    obtain ⟨command, hcommand, hrealized⟩ := exists_getElem?_of_forall₂ hcommands
    cases hrealized with
    | @indexed mode type _ offset values hread hstored =>
      rw [Header.scalar?, IndexType.ofName?_name] at hscalar
      obtain rfl := Option.some.inj hscalar
      exact ⟨values, hread, Mesh.valuesBehind_indices hcommand hstored⟩
  · cases hscalar

/-- With another text, a block that can be read is still a block of its kind, and can be read if the
text is accepted. -/
theorem readable_iff_accepts (hscalar : header.scalar? = some k)
    (hcomplete : header.complete text = .ok b) (hreadable : b.Readable) (text' : String) :
    ∃ b', header.complete text' = .ok b' ∧ b'.isCommand = b.isCommand ∧
      (b'.Readable ↔ k.Accepts text') := by
  rcases header with ⟨slot, typeName, components⟩ | ⟨primitiveName, typeName⟩ | ⟨_, _, _⟩
  · cases hcomplete
    obtain ⟨hcomponents, type, rfl, -⟩ := hreadable
    rw [Header.scalar?, AttributeType.ofName?_name] at hscalar
    obtain rfl := Option.some.inj hscalar
    refine ⟨_, rfl, rfl, ?_, ?_⟩
    · rintro ⟨-, type', hname, haccepts⟩
      rwa [eq_of_name_eq AttributeType.ofName?_name hname] at haccepts
    · exact fun haccepts => ⟨hcomponents, type, rfl, haccepts⟩
  · cases hcomplete
    obtain ⟨hmode, type, rfl, -⟩ := hreadable
    rw [Header.scalar?, IndexType.ofName?_name] at hscalar
    obtain rfl := Option.some.inj hscalar
    refine ⟨_, rfl, rfl, ?_, ?_⟩
    · rintro ⟨-, type', hname, haccepts⟩
      rwa [eq_of_name_eq IndexType.ofName?_name hname] at haccepts
    · exact fun haccepts => ⟨hmode, type, rfl, haccepts⟩
  · cases hscalar

theorem consistent_lenient (ds : List Declaration) : Consistent .lenient ds :=
  ⟨nofun, nofun, nofun⟩

theorem acceptable_iff {options : Options} {blocks : List Block} :
    Acceptable options (.enterMesh :: closingEvents blocks) ↔
      (∃ block ∈ blocks, block.isCommand = false) ∧ (∃ block ∈ blocks, block.isCommand = true) ∧
        (∀ block ∈ blocks, block.Readable) ∧
          Consistent options (blocks.filterMap Block.declaration?) := by
  have hblocks : blocksOf (.enterMesh :: closingEvents blocks) = blocks :=
    blocksOf_description blocks
  constructor
  · rintro ⟨-, hattribute, hcommand, hreadable, hconsistent⟩
    rw [hblocks] at hattribute hcommand hreadable
    rw [declarations, hblocks] at hconsistent
    exact ⟨hattribute, hcommand, hreadable, hconsistent⟩
  · rintro ⟨hattribute, hcommand, hreadable, hconsistent⟩
    rw [← hblocks] at hattribute hcommand hreadable hconsistent
    exact ⟨by rw [hblocks, closingEvents], hattribute, hcommand, hreadable, hconsistent⟩

/-- If nothing is enforced, a block may be exchanged for any of its kind that can be read. -/
theorem acceptable_exchange
    (h : Acceptable .lenient (.enterMesh :: closingEvents (before ++ b :: behind)))
    (hkind : b'.isCommand = b.isCommand) :
    Acceptable .lenient (.enterMesh :: closingEvents (before ++ b' :: behind)) ↔ b'.Readable := by
  have hkinds : ∀ isCommand, (∃ block ∈ before ++ b' :: behind, block.isCommand = isCommand) ↔
      ∃ block ∈ before ++ b :: behind, block.isCommand = isCommand := by
    intro isCommand
    simp [or_and_right, exists_or, hkind]
  rw [acceptable_iff] at h ⊢
  obtain ⟨hattribute, hcommand, hreadable, -⟩ := h
  rw [List.forall_mem_append, List.forall_mem_cons] at hreadable ⊢
  obtain ⟨hbefore, -, hbehind⟩ := hreadable
  constructor
  · rintro ⟨-, -, ⟨-, hb', -⟩, -⟩
    exact hb'
  · intro hb'
    exact ⟨(hkinds false).2 hattribute, (hkinds true).2 hcommand, ⟨hbefore, hb', hbehind⟩,
      consistent_lenient _⟩

end

/-! ### Documents with a comment -/

/-- For these tokens, a reader gives the blocks as events, and stands behind the opening tag of
another block then. -/
def Leads (tokens : List Token) (before : List Block) (header : Header) : Prop :=
  ∀ rest, Reader.items (tokens ++ rest) =
    (.enterMesh :: before.map .block : List Event).map .ok ++
      (Reader.block header "").itemsFrom rest

/-- A document with a comment between two texts of a block.  What stands in front of the block is
told by what is read of it, so that it may be written in any way. -/
structure Commented where
  /-- from the beginning up to the opening tag of the block -/
  front : List Char
  opening : List Token
  opened : List String
  begins : Begins front opening opened
  /-- the blocks before, and what the opening tag says -/
  before : List Block
  header : Header
  leads : Leads opening before header
  /-- the texts, and how they are written -/
  text : String
  more : String
  chars : List Char
  moreChars : List Char
  data : CharacterData chars text
  moreData : CharacterData moreChars more
  /-- what stands in the comment -/
  inside : List Char
  noEnd : ¬ "-->".toList <:+: inside
  /-- from the name in the closing tag on -/
  back : List Char

namespace Commented

variable (d : Commented)

/-- The document. -/
def document : String :=
  String.ofList (d.front ++ (d.chars ++ ("<!--".toList ++ (d.inside ++ ("-->".toList ++
    (d.moreChars ++ '<' :: '/' :: d.back))))))

/-- The document with a blank in the place of the comment. -/
def spaced : String :=
  String.ofList (d.front ++ (d.chars ++ ' ' :: (d.moreChars ++ '<' :: '/' :: d.back)))

/-- The document compiles if nothing is enforced, and these are the values of the block. -/
def Gives (k : Scalar) (values : List k.Word) : Prop :=
  ∃ mesh, (readMesh .lenient d.document).result = .ok mesh ∧
    mesh.valuesBehind k d.before d.header = some values

end Commented

section

variable {tokens later : List Token} {before behind : List Block} {header : Header} {b : Block}

/-- A block that goes on with these texts and is closed then. -/
theorem Leads.items_eq (h : Leads tokens before header) {texts : List String}
    (hcomplete : header.complete (String.join texts) = .ok b) (hcloses : Closes later behind) :
    Reader.items (tokens ++ (texts.map .text ++ .closing header.element.name :: later)) =
      (.enterMesh :: closingEvents (before ++ b :: behind) : List Event).map .ok := by
  have hfinishes : Finishes header "" (texts.map .text ++ .closing header.element.name :: later) b
      behind := by
    refine ⟨texts, later, rfl, ?_, hcloses⟩
    rwa [String.empty_append]
  have hblock : (Reader.block header "").itemsFrom
      (texts.map .text ++ .closing header.element.name :: later) =
        (closingEvents (b :: behind)).map .ok :=
    (Reader.itemsFrom_eq_iff _ _ _).2 ⟨b, behind, hfinishes, rfl⟩
  rw [h, hblock]
  simp [closingEvents]

/-- If the reader gives events only, the block is closed, and the description after it. -/
theorem Leads.exists_closes (h : Leads tokens before header) {text name : String}
    {events : List Event}
    (hitems : Reader.items (tokens ++ .text text :: .closing name :: later) = events.map .ok) :
    ∃ b behind, name = header.element.name ∧ header.complete text = .ok b ∧
      Closes later behind := by
  rw [h] at hitems
  obtain ⟨_, events', -, -, hblock⟩ := List.map_eq_append_iff.1 hitems.symm
  obtain ⟨b, behind, hfinishes, -⟩ := (Reader.itemsFrom_eq_iff _ _ _).1 hblock.symm
  rcases finishes_cons.1 hfinishes with ⟨_, ⟨⟩, hfinishes⟩ | ⟨⟨⟩, -⟩
  rw [String.empty_append] at hfinishes
  rcases finishes_cons.1 hfinishes with ⟨_, ⟨⟩, -⟩ | ⟨hclosing, hcomplete, hcloses⟩
  exact ⟨b, behind, Token.closing.inj hclosing, hcomplete, hcloses⟩

end

/-! ### Any texts, behind any blocks -/

section

variable {tokens : List Token} {blocks : List Block}

theorem itemsFrom_texts (header : Header) (text : String) (texts : List String)
    (rest : List Token) : (Reader.block header text).itemsFrom (texts.map .text ++ rest) =
      (Reader.block header (text ++ String.join texts)).itemsFrom rest := by
  induction texts generalizing text with
  | nil => rw [String.join_nil, String.append_empty, List.map_nil, List.nil_append]
  | cons more texts ih =>
    rw [List.map_cons, List.cons_append, Reader.itemsFrom_cons_more rfl, ih, String.join_cons,
      String.append_assoc]

theorem itemsFrom_inside (h : Inside tokens blocks) (rest : List Token) :
    Reader.mesh.itemsFrom (tokens ++ rest) =
      (blocks.map .block : List Event).map .ok ++ Reader.mesh.itemsFrom rest := by
  induction h with
  | nil => rfl
  | @blank token _ _ hblank _ ih =>
    rcases token with ⟨name, attributes⟩ | text | name
    · cases hblank
    · have hfeed : Reader.mesh.feed (some (.text text)) = (.mesh, .more) :=
        Reader.feed_blank .mesh (Token.isBlank_text.1 hblank)
      rw [List.cons_append, Reader.itemsFrom_cons_more hfeed, ih]
    · cases hblank
  | @block _ _ b _ hblock _ ih =>
    obtain ⟨header, name, attributes, texts, rfl, htagged, hcomplete⟩ := Block.written_iff.1 hblock
    have hopening : Reader.mesh.feed (some (.opening name attributes)) =
        (.block header "", .more) := by
      rw [Reader.feed, Reader.feedMesh, Header.ofTag_of_tagged htagged]
    have hclosing : (Reader.block header (String.join texts)).feed
        (some (.closing header.element.name)) = (.mesh, .event (.block b)) := by
      rw [Reader.feed, Reader.feedBlock, if_pos rfl, hcomplete]
    rw [List.cons_append, List.cons_append, Reader.itemsFrom_cons_more hopening, List.append_assoc,
      List.append_assoc, itemsFrom_texts, String.empty_append, List.singleton_append,
      Reader.itemsFrom_cons_event hclosing, ih]
    rfl

/-- Any two texts may stand on either side of any comment, in any block, behind any blocks. -/
theorem exists_commented (blocks : List Block) (b : Block) (text more : String)
    {inside : List Char} (h : ¬ "-->".toList <:+: inside) (back : List Char) :
    ∃ d : Commented, d.before = blocks ∧ d.header = b.header ∧ d.text = text ∧ d.more = more ∧
      d.inside = inside ∧ d.back = back := by
  obtain ⟨_, elements, helements, -⟩ := exists_spells blocks
  obtain ⟨inner, hinner, hscans⟩ := @scans_blocks _ _ ["mesh"] helements
  have hroot := scans_openingTag [] (Element.isName_name .mesh)
    ⟨List.forall_mem_nil _, List.nodup_nil⟩
  have htag := scans_openingTag ["mesh"] b.element.isName_name
    (Block.properKeys_of_perm (.refl b.tag))
  have hbegins := Scans.begins (hroot.append (hscans.append htag))
  have hleads : Leads ([.opening "mesh" []] ++ (inner ++ [.opening b.element.name b.tag])) blocks
      b.header := by
    intro rest
    have hmesh : Reader.root.feed (some (.opening "mesh" [])) = (.mesh, .event .enterMesh) := rfl
    have hopening : Reader.mesh.feed (some (.opening b.element.name b.tag)) =
        (.block b.header "", .more) := by
      rw [Reader.feed, Reader.feedMesh, Header.ofTag_tag]
    rw [List.append_assoc, List.singleton_append, List.append_assoc, List.singleton_append,
      Reader.items, Reader.itemsFrom_cons_event hmesh, itemsFrom_inside hinner,
      Reader.itemsFrom_cons_more hopening]
    rfl
  exact ⟨⟨_, _, _, hbegins, blocks, b.header, hleads, text, more, _, _, characterData_escape text,
    characterData_escape more, inside, h, back⟩, rfl, rfl, rfl, rfl, rfl, rfl⟩

end

namespace Commented

variable {d : Commented} {mesh : Mesh} {k : Scalar} {values : List k.Word}

/-- The two documents have the same tokens, up to the text of the block. -/
theorem exists_tokens (htext : d.text ≠ "") (hmore : d.more ≠ "") {tokens : List Token}
    (h : Markup.tokens d.spaced = .ok tokens) :
    ∃ name later,
      tokens = d.opening ++ .text (d.text ++ (" " ++ d.more)) :: .closing name :: later ∧
      Markup.tokens d.document =
        .ok (d.opening ++ .text d.text :: .text d.more :: .closing name :: later) := by
  have hspaced := d.begins.tokens_eq (scans_spaced d.data d.moreData) ('/' :: d.back)
  have hdocument := d.begins.tokens_eq
    (scans_comment d.data htext d.noEnd d.moreData hmore) ('/' :: d.back)
  simp only [List.append_assoc, List.cons_append, List.nil_append] at hspaced hdocument
  rw [spaced, hspaced] at h
  rcases hrest : tokensFrom d.opened (piecesFrom .bracket ('/' :: d.back)) with e | rest
  · rw [hrest] at h
    cases h
  · rw [hrest] at h
    cases h
    -- behind the text stands a closing tag in both documents
    obtain ⟨name, later, rfl⟩ := @exists_closing d.back d.opened [] none _ hrest
    refine ⟨name, later, rfl, ?_⟩
    rw [document, hdocument, hrest]
    rfl

/-- **What is left of the comment**: the documents compile like events that differ in the text of
one block, where the blank is missing. -/
theorem exists_blocks (htext : d.text ≠ "") (hmore : d.more ≠ "") {options : Options}
    (h : (readMesh options d.spaced).result = .ok mesh) :
    ∃ b behind, d.header.complete (d.text ++ (" " ++ d.more)) = .ok b ∧
      (compile options (.enterMesh :: closingEvents (d.before ++ b :: behind))).result = .ok mesh ∧
      ∀ b', d.header.complete (d.text ++ d.more) = .ok b' → ∀ mesh',
        (readMesh options d.document).result = .ok mesh' ↔
          (compile options (.enterMesh :: closingEvents (d.before ++ b' :: behind))).result =
            .ok mesh' := by
  obtain ⟨tokens, htokens, hcompile⟩ := readMesh_eq_ok_iff.1 h
  obtain ⟨name, later, rfl, hdocument⟩ := exists_tokens htext hmore htokens
  obtain ⟨events, hevents⟩ := exists_events_of_compileTokens hcompile
  obtain ⟨b, behind, rfl, hcomplete, hcloses⟩ := d.leads.exists_closes hevents
  refine ⟨b, behind, hcomplete, ?_, ?_⟩
  · have hitems := @Leads.items_eq _ _ _ _ _ _ d.leads [d.text ++ (" " ++ d.more)]
      (by simpa using hcomplete) hcloses
    rwa [← compileTokens_of_items hitems]
  · intro b' hcomplete' mesh'
    have hitems := @Leads.items_eq _ _ _ _ _ _ d.leads [d.text, d.more]
      (by simpa using hcomplete') hcloses
    rw [readMesh_eq_ok_iff, hdocument, ← compileTokens_of_items hitems]
    simp only [Except.ok.injEq, exists_eq_left']
    rfl

/-! ### What comes of the values -/

/-- A document with a comment gives the values of both texts together. -/
theorem gives_iff (d : Commented) (hscalar : d.header.scalar? = some k) (htext : words d.text ≠ [])
    (hmore : words d.more ≠ []) (hspaced : (readMesh .lenient d.spaced).result = .ok mesh) :
    d.Gives k values ↔ k.readText (d.text ++ d.more) = .ok values := by
  have hempty : words "" = [] := rfl
  obtain ⟨b, behind, hcomplete, hcompile, hdocument⟩ := exists_blocks
    (fun h => htext (h ▸ hempty)) (fun h => hmore (h ▸ hempty)) hspaced
  -- the document with the comment has another block here, of the same kind
  have haccepts := exists_compile_iff.1 ⟨mesh, hcompile⟩
  have hreadable : b.Readable := (acceptable_exchange haccepts rfl).1 haccepts
  obtain ⟨b', hcomplete', hkind, hreadable'⟩ :=
    readable_iff_accepts hscalar hcomplete hreadable (d.text ++ d.more)
  constructor
  · rintro ⟨mesh', hmesh', hvalues⟩
    have hcompile' := (hdocument b' hcomplete' mesh').1 hmesh'
    obtain ⟨values', hread, hvalues'⟩ := values_of_compile hcompile' hscalar hcomplete'
    rw [hread, Option.some.inj (hvalues.symm.trans hvalues')]
  · intro hread
    have hvalues : values ≠ [] := by
      rw [← List.length_pos_iff, Scalar.length_of_readText hread, List.length_pos_iff]
      exact words_append_ne_nil htext
    have haccepts' := (acceptable_exchange haccepts hkind).2
      (hreadable'.2 (Scalar.accepts_iff.2 ⟨values, hread, hvalues⟩))
    obtain ⟨mesh', hcompile'⟩ := exists_compile_iff.2 haccepts'
    obtain ⟨values', hread', hvalues'⟩ := values_of_compile hcompile' hscalar hcomplete'
    rw [hread] at hread'
    cases hread'
    exact ⟨mesh', (hdocument b' hcomplete' mesh').2 hcompile', hvalues'⟩

end Commented

variable {k : Scalar} {xs ys : List k.Word} {text more : String}

/-- **A comment separates values only next to a blank.**  Any two texts of values may stand on
either side of any comment, in any block, behind any blocks.  If nothing is enforced, and the
document compiles with a blank in the place of the comment, the values around the comment are those
of the texts on either side of it if and only if one of the texts has a blank there.  If neither
has, the last token of the one and the first of the other are read as one token, and the document
compiles if and only if that is a value. -/
theorem comment_separates_iff (htext : k.readText text = .ok xs) (hxs : xs ≠ [])
    (hmore : k.readText more = .ok ys) (hys : ys ≠ []) :
    (∀ (blocks : List Block) (b : Block) (inside back : List Char), ¬ "-->".toList <:+: inside →
      ∃ d : Commented, d.before = blocks ∧ d.header = b.header ∧ d.text = text ∧ d.more = more ∧
        d.inside = inside ∧ d.back = back) ∧
    ∀ (d : Commented) (mesh : Mesh), d.text = text → d.more = more → d.header.scalar? = some k →
      (readMesh .lenient d.spaced).result = .ok mesh →
        (d.Gives k (xs ++ ys) ↔ Apart text more) ∧
          (¬ Apart text more → ∃ init last first rest,
            words text = init ++ [last] ∧ words more = first :: rest ∧
              ∀ values, d.Gives k values ↔
                (init ++ (last ++ first) :: rest).map k.parse = values.map .ok) := by
  refine ⟨fun blocks b _ back h => exists_commented blocks b text more h back, ?_⟩
  rintro d mesh rfl rfl hscalar hspaced
  have haccepts := Scalar.accepts_iff.2 ⟨xs, htext, hxs⟩
  have haccepts' := Scalar.accepts_iff.2 ⟨ys, hmore, hys⟩
  have hgives : ∀ values, d.Gives k values ↔ k.readText (d.text ++ d.more) = .ok values :=
    fun _ => d.gives_iff hscalar haccepts.1 haccepts'.1 hspaced
  refine ⟨⟨?_, ?_⟩, ?_⟩
  · intro hvalues
    by_contra hapart
    obtain ⟨init, last, first, rest, hinit, hrest, hboth⟩ := words_append_of_not_apart hapart
    -- there is one word less than values
    have hlength := Scalar.length_of_readText ((hgives _).1 hvalues)
    rw [List.length_append, Scalar.length_of_readText htext, Scalar.length_of_readText hmore, hinit,
      hrest, hboth] at hlength
    simp only [List.length_append, List.length_cons, List.length_nil] at hlength
    omega
  · intro hapart
    rw [hgives, Scalar.readText_eq_ok_iff, words_append hapart, List.map_append, List.map_append,
      Scalar.readText_eq_ok_iff.1 htext, Scalar.readText_eq_ok_iff.1 hmore]
  · intro hapart
    obtain ⟨init, last, first, rest, hinit, hrest, hboth⟩ := words_append_of_not_apart hapart
    refine ⟨init, last, first, rest, hinit, hrest, fun values => ?_⟩
    rw [hgives, Scalar.readText_eq_ok_iff, hboth]

/-- A number on either side of a comment, in a document with nothing else in it but a command. -/
def commentedDigits : Commented where
  front := '<' :: (writeTag "mesh" [] ++ ['>']) ++
    '<' :: (writeTag "attribute" [("index", "0"), ("type", "ubyte"), ("size", "1")] ++ ['>'])
  opening := [.opening "mesh" [],
    .opening "attribute" [("index", "0"), ("type", "ubyte"), ("size", "1")]]
  opened := ["attribute", "mesh"]
  begins := Scans.begins ((scans_openingTag [] (by decide) ⟨by decide, by decide⟩).append
    (scans_openingTag ["mesh"] (by decide) ⟨by decide, by decide⟩))
  before := []
  header := .attribute 0 "ubyte" 1
  leads := fun _ => rfl
  text := "1"
  more := "2"
  chars := ['1']
  moreChars := ['2']
  data := ⟨by simp, rfl⟩
  moreData := ⟨by simp, rfl⟩
  inside := "c".toList
  noEnd := by decide
  back := "attribute>".toList ++
    writeEmptyElement "arrays" [("cmd", "points"), ("start", "0"), ("count", "1")] ++
      "</mesh>".toList

theorem readMesh_spaced_commentedDigits :
    ∃ mesh, (readMesh .lenient commentedDigits.spaced).result = .ok mesh := by
  have htokens : Markup.tokens commentedDigits.spaced = .ok (pointTokens ["1 2"]
      [("cmd", "points"), ("start", "0"), ("count", "1")] []) := by
    rw [Markup.tokens, Commented.spaced, String.toList_ofList]
    rfl
  have hmesh : (compileTokens .lenient (pointTokens ["1 2"]
      [("cmd", "points"), ("start", "0"), ("count", "1")] [])).result = .ok _ := rfl
  exact ⟨_, readMesh_eq_ok_iff.2 ⟨_, htokens, hmesh⟩⟩

theorem comment_joins_digits :
    Scalar.u8.readText "1" = .ok [1] ∧ Scalar.u8.readText "2" = .ok [2] ∧
      commentedDigits.Gives .u8 [12] ∧ ¬ commentedDigits.Gives .u8 ([1] ++ [2]) := by
  obtain ⟨mesh, hspaced⟩ := readMesh_spaced_commentedDigits
  obtain ⟨-, hdocuments⟩ := @comment_separates_iff .u8 [1] [2] "1" "2" rfl (by simp) rfl (by simp)
  obtain ⟨hseparates, hjoins⟩ := hdocuments commentedDigits mesh rfl rfl rfl hspaced
  have hapart : ¬ Apart "1" "2" := by
    rintro (hblank | hblank)
    · exact absurd (hblank '1' rfl) (by decide)
    · exact absurd (hblank '2' rfl) (by decide)
  obtain ⟨init, last, first, rest, hinit, hrest, hvalues⟩ := hjoins hapart
  have hwords : init ++ [last] = [] ++ ["1"] := hinit.symm
  obtain ⟨rfl, hlast⟩ := List.append_inj' hwords rfl
  obtain ⟨rfl, rfl⟩ := List.cons.inj hrest
  obtain rfl := List.singleton_inj.1 hlast
  exact ⟨rfl, rfl, (hvalues [12]).2 rfl, fun hgives => hapart (hseparates.1 hgives)⟩

/-- So a comment does not always separate values. -/
theorem not_comment_separates :
    ¬ ∀ (d : Commented) (k : Scalar) (xs ys : List k.Word) (mesh : Mesh),
    d.header.scalar? = some k → k.readText d.text = .ok xs → xs ≠ [] →
      k.readText d.more = .ok ys → ys ≠ [] → (readMesh .lenient d.spaced).result = .ok mesh →
        d.Gives k (xs ++ ys) := by
  intro hseparates
  obtain ⟨mesh, hspaced⟩ := readMesh_spaced_commentedDigits
  have hgives : commentedDigits.Gives .u8 [1, 2] :=
    hseparates commentedDigits .u8 [1] [2] mesh rfl rfl (by simp) rfl (by simp) hspaced
  have hread := (commentedDigits.gives_iff rfl (by decide) (by decide) hspaced).1 hgives
  have hjoined : Scalar.u8.readText "12" = .ok [12] := rfl
  exact absurd (Except.ok.inj (hjoined.symm.trans hread)) (by decide)

end MeshLayout
