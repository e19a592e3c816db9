/-
MeshLayout/Proofs/Documents.lean

A description compiles in the same way from its events and from a document.

A document is written block by block (`Spells`): attributes in any order, with
any strings in them, and text in any runs of character data and literal
sections, cut wherever the writer likes.  Every description can be written so
(`exists_spells`).  It is read back as a description of the same blocks
(`tokens_of_spells`), though the texts in its tokens may be cut in other
places.  So a reader of the tokens hands over the events that are told by the
blocks, and the compiler is asked the same as if it had been given those.
Main result: `compileTokens_of_spells`.
-/
import MeshLayout.Proofs.Respelling
import MeshLayout.Proofs.Scanning

namespace MeshLayout

open Markup

/-! ### Documents -/

/-- The characters are the block, written as an element.  A block without text may be written as
an element that closes itself. -/
inductive Block.Spelled : Block → List Char → Prop
  | attribute {slot components : UInt32} {typeName : String}
      {attributes : List (String × String)} {runs : List TextRun}
      (h : attributes.Perm (Block.attribute slot typeName components (textOf runs)).tag) :
      Spelled (.attribute slot typeName components (textOf runs))
        (writeElement "attribute" attributes (runs.flatMap TextRun.written))
  | indices {primitiveName typeName : String} {attributes : List (String × String)}
      {runs : List TextRun}
      (h : attributes.Perm (Block.indices primitiveName typeName (textOf runs)).tag) :
      Spelled (.indices primitiveName typeName (textOf runs))
        (writeElement "indices" attributes (runs.flatMap TextRun.written))
  | arrays {primitiveName : String} {first count : UInt32}
      {attributes : List (String × String)}
      (h : attributes.Perm (Block.arrays primitiveName first count).tag) :
      Spelled (.arrays primitiveName first count) (writeElement "arrays" attributes [])
  | emptyArrays {primitiveName : String} {first count : UInt32}
      {attributes : List (String × String)}
      (h : attributes.Perm (Block.arrays primitiveName first count).tag) :
      Spelled (.arrays primitiveName first count) (writeEmptyElement "arrays" attributes)

/-- The document holds the blocks, one after the other, in a root element. -/
def Spells (document : String) (blocks : List Block) : Prop :=
  ∃ elements, List.Forall₂ Block.Spelled blocks elements ∧
    document = String.ofList (writeElement "mesh" [] elements.flatten)

theorem textOf_data (text : String) : textOf [.data text] = text := by
  simp [textOf, TextRun.text]

/-- Every block can be written, whatever its strings are. -/
theorem Block.exists_spelled (b : Block) : ∃ chars, b.Spelled chars := by
  match b with
  | .attribute slot typeName components text =>
    rw [← textOf_data text]
    exact ⟨_, .attribute (.refl _)⟩
  | .indices primitiveName typeName text =>
    rw [← textOf_data text]
    exact ⟨_, .indices (.refl _)⟩
  | .arrays primitiveName first count => exact ⟨_, .arrays (.refl _)⟩

theorem exists_spells (blocks : List Block) : ∃ document, Spells document blocks := by
  have helements : ∃ elements, List.Forall₂ Block.Spelled blocks elements := by
    induction blocks with
    | nil => exact ⟨[], .nil⟩
    | cons b blocks ih =>
      obtain ⟨chars, hchars⟩ := b.exists_spelled
      obtain ⟨elements, helements⟩ := ih
      exact ⟨chars :: elements, .cons hchars helements⟩
  obtain ⟨elements, helements⟩ := helements
  exact ⟨_, elements, helements, rfl⟩

/-! ### Tags of blocks -/

theorem Element.isName_name (element : Element) : IsName element.name := by
  cases element <;> decide

theorem Element.isName_of_mem_keys (element : Element) : ∀ key ∈ element.keys, IsName key := by
  cases element <;> decide

theorem Element.nodup_keys (element : Element) : element.keys.Nodup := by
  cases element <;> decide

namespace Block

variable {b : Block} {attributes : List (String × String)}

theorem map_fst_tag (b : Block) : b.tag.map Prod.fst = b.element.keys := by
  cases b <;> rfl

theorem nodup_map_fst_tag (b : Block) : (b.tag.map Prod.fst).Nodup := by
  rw [map_fst_tag]
  exact b.element.nodup_keys

/-- A tag may be read back, in whatever order its attributes are written. -/
theorem properKeys_of_perm (h : attributes.Perm b.tag) : ProperKeys attributes := by
  constructor
  · intro entry hentry
    have hkey : entry.1 ∈ b.tag.map Prod.fst := List.mem_map_of_mem (h.mem_iff.1 hentry)
    rw [map_fst_tag] at hkey
    exact b.element.isName_of_mem_keys _ hkey
  · exact (h.map Prod.fst).nodup_iff.2 b.nodup_map_fst_tag

/-- The order of attributes makes no difference to what a tag says. -/
theorem ofTag_of_perm (h : attributes.Perm b.tag) :
    Header.ofTag b.element.name attributes = .ok b.header := by
  rw [← Header.ofTag_tag]
  apply Header.ofTag_congr
  intro key _
  exact (find?_key_of_perm b.nodup_map_fst_tag h.symm key).symm

theorem written_of_perm {texts : List String} (h : attributes.Perm b.tag)
    (hcomplete : b.header.complete (String.join texts) = .ok b) :
    b.Written (.opening b.element.name attributes ::
      (texts.map .text ++ [.closing b.element.name])) := by
  refine written_iff.2 ⟨b.header, b.element.name, attributes, texts, ?_,
    Header.ofTag_eq_ok_iff.1 (ofTag_of_perm h), hcomplete⟩
  rw [Header.element_of_complete hcomplete]

/-! ### Reading a document -/

theorem scans_element {opened : List String} {runs : List TextRun} (h : attributes.Perm b.tag)
    (hcomplete : b.header.complete (textOf runs) = .ok b) :
    ∃ tokens, b.Written tokens ∧
      Scans opened (.text [])
        (writeElement b.element.name attributes (runs.flatMap TextRun.written)) tokens opened
        (.text []) := by
  obtain ⟨texts, hscans, htexts⟩ := scans_runs (b.element.name :: opened) "" runs
  rw [String.empty_append] at htexts
  rw [← htexts] at hcomplete
  exact ⟨_, written_of_perm h hcomplete,
    Markup.scans_element b.element.isName_name (properKeys_of_perm h) hscans⟩

/-- **One block**: its element is read as tokens that are the block again. -/
theorem Spelled.scans {chars : List Char} {opened : List String} (h : b.Spelled chars) :
    ∃ tokens, b.Written tokens ∧ Scans opened (.text []) chars tokens opened (.text []) := by
  rcases h with h | h | h | h
  · exact scans_element h rfl
  · exact scans_element h rfl
  · exact @scans_element _ _ _ [] h rfl
  · exact ⟨_, @written_of_perm _ _ [] h rfl,
      scans_emptyElement (Element.isName_name .arrays) (properKeys_of_perm h)⟩

end Block

variable {document : String} {blocks : List Block}

theorem scans_blocks {elements : List (List Char)} {opened : List String}
    (h : List.Forall₂ Block.Spelled blocks elements) :
    ∃ tokens, Inside tokens blocks ∧
      Scans opened (.text []) elements.flatten tokens opened (.text []) := by
  induction h with
  | nil => exact ⟨[], .nil, scans_nil⟩
  | cons hblock hblocks ih =>
    obtain ⟨element, hwritten, hscans⟩ := hblock.scans
    obtain ⟨tokens, hinside, hrest⟩ := ih
    exact ⟨element ++ tokens, .block hwritten hinside, hscans.append hrest⟩

/-- **A document is read back** as a description of its blocks. -/
theorem tokens_of_spells (h : Spells document blocks) :
    ∃ tokens, Markup.tokens document = .ok tokens ∧ Describes tokens blocks := by
  obtain ⟨elements, helements, rfl⟩ := h
  obtain ⟨inside, hinside, hscans⟩ := scans_blocks helements
  have hroot : Scans [] (.text []) (writeElement "mesh" [] elements.flatten)
      (.opening "mesh" [] :: (inside ++ [] ++ [.closing "mesh"])) [] (.text []) :=
    Markup.scans_element (Element.isName_name .mesh) ⟨List.forall_mem_nil _, List.nodup_nil⟩
      (hscans.append scans_bracket_of_empty)
  refine ⟨_, tokens_of_scans hroot, [], [], inside, [], ?_, List.forall_mem_nil _, hinside,
    List.forall_mem_nil _⟩
  rw [List.append_nil]
  rfl

/-! ### Compiling a document -/

/-- **A document compiles like the events of its blocks.**  Every list of blocks can be written as
a document; and however it is written, the document can be read, and from its tokens come the same
mesh, or the same error, and the same notes as from the events. -/
theorem compileTokens_of_spells (options : Options) (blocks : List Block) :
    (∃ document, Spells document blocks) ∧
      ∀ document, Spells document blocks →
        ∃ tokens, Markup.tokens document = .ok tokens ∧
          compileTokens options tokens =
            compile options (.enterMesh :: (blocks.map .block ++ [.exitMesh])) := by
  refine ⟨exists_spells blocks, ?_⟩
  intro document h
  obtain ⟨tokens, htokens, hdescribes⟩ := tokens_of_spells h
  have hitems : Reader.items tokens =
      (.enterMesh :: (blocks.map .block ++ [.exitMesh]) : List Event).map .ok :=
    (Reader.itemsFrom_eq_iff .root tokens _).2 ⟨blocks, hdescribes, rfl⟩
  refine ⟨tokens, htokens, ?_⟩
  rw [compileTokens, Compiler.compileTokens, hitems, Compiler.pushItems_map_ok]
  rfl

/-- A document with a section at the end of a text, and a name made up of the characters that have
to be escaped. -/
def quotedDocument : String :=
  "<mesh><indices type=\"ubyte\" cmd=\"&lt;&apos;&amp;&quot;&gt;\">1 <![CDATA[2]]></indices></mesh>"

theorem compileTokens_quotedDocument :
    Spells quotedDocument [.indices "<'&\">" "ubyte" "1 2"] ∧
      ∃ tokens, Markup.tokens quotedDocument = .ok tokens ∧
        (compileTokens .strict tokens).result = .error (.unsupportedPrimitive "<'&\">") := by
  have hindices := @Block.Spelled.indices "<'&\">" "ubyte" [("type", "ubyte"), ("cmd", "<'&\">")]
    [.data "1 ", .literal "2" (by decide)] (by decide)
  have htext : textOf [.data "1 ", .literal "2" (by decide)] = "1 2" := by decide
  rw [htext] at hindices
  have hspells : Spells quotedDocument [.indices "<'&\">" "ubyte" "1 2"] :=
    ⟨_, .cons hindices .nil, rfl⟩
  obtain ⟨-, hcompiles⟩ := compileTokens_of_spells .strict [.indices "<'&\">" "ubyte" "1 2"]
  obtain ⟨tokens, htokens, hcompile⟩ := hcompiles quotedDocument hspells
  refine ⟨hspells, tokens, htokens, ?_⟩
  rw [hcompile]
  rfl

end MeshLayout
