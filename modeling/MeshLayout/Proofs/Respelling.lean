/-
MeshLayout/Proofs/Respelling.lean

The same description, spelled in other tokens.

A reader of tokens does not look at everything: text may come in any pieces,
blank text may stand wherever no values are written, and of the attributes of
a tag only the first under each key counts, and only if the tag has a use for
the key.  `Respelling` is one change of this kind, at any place of any tokens,
whether these are a description or not.

What stands before the place takes the reader to some state (`Reader.after`),
and the change is one that no reader in such a state can see
(`itemsFrom_append_congr`).  So the items stay the same, the error at their end
included, and with them all that a compiler makes of them.  Main result:
`compileTokens_of_respelled`.
-/
import Mathlib.Data.List.Induction
import Mathlib.Logic.Relation
import MeshLayout.Proofs.Grammar

namespace MeshLayout

/-! ### Spellings -/

/-- The keys that a tag has a use for. -/
def Element.keys : Element → List String
  | mesh => []
  | .attribute => ["index", "type", "size"]
  | indices => ["cmd", "type"]
  | arrays => ["cmd", "start", "count"]

/-- A tag with the given name has a use for the key. -/
def UsesKey (name key : String) : Prop :=
  ∃ element : Element, element.name = name ∧ key ∈ element.keys

/-- The attributes of a tag, spelled in another way. -/
inductive TagRespelling (name : String) :
    List (String × String) → List (String × String) → Prop
  | permuted {before group group' after : List (String × String)} (hperm : group.Perm group')
      (hkeys : (group.map Prod.fst).Nodup) :
      TagRespelling name (before ++ (group ++ after)) (before ++ (group' ++ after))
  | unused {before after : List (String × String)} {key value : String}
      (hkey : ¬ UsesKey name key) :
      TagRespelling name (before ++ after) (before ++ (key, value) :: after)
  | repeated {before after : List (String × String)} {key value : String}
      (hkey : key ∈ before.map Prod.fst) :
      TagRespelling name (before ++ after) (before ++ (key, value) :: after)

/-- What stands before ends, and what stands after begins, within a block that holds values. -/
def InValues (before after : List Token) : Prop :=
  ∃ (b : Block) (init rest : List Token) (opening closing : Token) (texts texts' : List String),
    before = init ++ opening :: texts.map .text ∧ after = texts'.map .text ++ closing :: rest ∧
      b.Written (opening :: ((texts ++ texts').map .text ++ [closing])) ∧
      (b.element = .attribute ∨ b.element = .indices)

/-- Tokens, spelled in another way at one place. -/
inductive Respelling : List Token → List Token → Prop
  | pieces {before after : List Token} {texts : List String} (hne : texts ≠ []) :
      Respelling (before ++ .text (String.join texts) :: after)
        (before ++ (texts.map .text ++ after))
  | blank {before after : List Token} {token : Token} (hblank : token.IsBlank)
      (hplace : ¬ InValues before after) :
      Respelling (before ++ after) (before ++ token :: after)
  | root {before after : List Token} {attributes attributes' : List (String × String)} :
      Respelling (before ++ .opening Element.mesh.name attributes :: after)
        (before ++ .opening Element.mesh.name attributes' :: after)
  | tag {before after : List Token} {name : String}
      {attributes attributes' : List (String × String)}
      (h : TagRespelling name attributes attributes') :
      Respelling (before ++ .opening name attributes :: after)
        (before ++ .opening name attributes' :: after)

/-! ### Attributes of tags -/

section Tags

variable {name key : String} {attributes attributes' : List (String × String)}

/-- The first value under a key that the tag has a use for stays the same. -/
theorem TagRespelling.find?_eq (h : TagRespelling name attributes attributes')
    (hkey : UsesKey name key) :
    attributes.find? (fun entry => entry.1 = key) =
      attributes'.find? (fun entry => entry.1 = key) := by
  cases h with
  | permuted hperm hkeys =>
    simp only [List.find?_append]
    rw [find?_key_of_perm hkeys hperm key]
  | @unused before after unused value hunused =>
    have hne : unused ≠ key := by
      rintro rfl
      exact hunused hkey
    rw [List.find?_append, List.find?_append, List.find?_cons_of_neg (by simpa using hne)]
  | @repeated before after repeated value hrepeated =>
    rw [List.find?_append, List.find?_append]
    by_cases heq : repeated = key
    · -- an earlier attribute is found before either is come to
      obtain ⟨entry, hmem, rfl⟩ := List.mem_map.1 hrepeated
      have hfound : (before.find? fun entry => entry.1 = key).isSome = true :=
        List.find?_isSome.2 ⟨entry, hmem, by simpa using heq⟩
      rw [Option.or_of_isSome hfound, Option.or_of_isSome hfound]
    · rw [List.find?_cons_of_neg (by simpa using heq)]

/-- A tag is read by the keys that it has a use for. -/
theorem Header.ofTag_congr
    (h : ∀ key, UsesKey name key → attributes.find? (fun entry => entry.1 = key) =
      attributes'.find? (fun entry => entry.1 = key)) :
    ofTag name attributes = ofTag name attributes' := by
  have hlookup : ∀ tag key, UsesKey name key →
      lookup tag key attributes = lookup tag key attributes' := by
    intro tag key hkey
    rw [lookup, h key hkey, lookup]
  have hnumber : ∀ tag key, UsesKey name key →
      lookupNumber tag key attributes = lookupNumber tag key attributes' := by
    intro tag key hkey
    rw [lookupNumber, hlookup tag key hkey, lookupNumber]
  rw [ofTag, ofTag]
  split_ifs with hattribute hindices harrays
  · have huses : ∀ key ∈ Element.attribute.keys, UsesKey name key :=
      fun key hkey => ⟨_, hattribute.symm, hkey⟩
    rw [hnumber _ "index" (huses _ (by decide)), hlookup _ "type" (huses _ (by decide)),
      hnumber _ "size" (huses _ (by decide))]
  · have huses : ∀ key ∈ Element.indices.keys, UsesKey name key :=
      fun key hkey => ⟨_, hindices.symm, hkey⟩
    rw [hlookup _ "cmd" (huses _ (by decide)), hlookup _ "type" (huses _ (by decide))]
  · have huses : ∀ key ∈ Element.arrays.keys, UsesKey name key :=
      fun key hkey => ⟨_, harrays.symm, hkey⟩
    rw [hlookup _ "cmd" (huses _ (by decide)), hnumber _ "start" (huses _ (by decide)),
      hnumber _ "count" (huses _ (by decide))]
  · rfl
  · rfl

/-- The tag of the root element is not looked into. -/
theorem Header.ofTag_mesh :
    ofTag Element.mesh.name attributes = ofTag Element.mesh.name attributes' := rfl

theorem Reader.feed_opening_congr (h : Header.ofTag name attributes = Header.ofTag name attributes')
    (reader : Reader) :
    reader.feed (some (.opening name attributes)) =
      reader.feed (some (.opening name attributes')) := by
  cases reader with
  | root | block | done | failed => rfl
  | mesh => rw [feed, feedMesh, h, feed, feedMesh]

end Tags

/-! ### Text -/

theorem isBlankText_append (text more : String) :
    isBlankText (text ++ more) = (isBlankText text && isBlankText more) := by
  rw [Bool.eq_iff_iff, Bool.and_eq_true, isBlankText_iff, isBlankText_iff, isBlankText_iff,
    String.toList_append]
  exact List.forall_mem_append

namespace Reader

variable {reader : Reader} {header : Header} {token : Token} {text text' : String}
  {before rest tokens tokens' : List Token}

theorem itemsFrom_congr {token' : Token}
    (h : reader.feed (some token) = reader.feed (some token')) (rest : List Token) :
    reader.itemsFrom (token :: rest) = reader.itemsFrom (token' :: rest) := by
  rw [itemsFrom, h, itemsFrom]

/-- Between elements, a reader asks of a text whether it is blank. -/
theorem feed_text_congr (stage : Stage) (h : isBlankText text = isBlankText text') :
    stage.reader.feed (some (.text text)) = stage.reader.feed (some (.text text')) := by
  cases stage <;> simp [Stage.reader, feed, feedRoot, feedMesh, feedDone, Token.found, h]

theorem feed_blank (stage : Stage) (h : isBlankText text = true) :
    stage.reader.feed (some (.text text)) = (stage.reader, .more) := by
  cases stage <;> exact if_pos h

theorem feed_not_blank (stage : Stage) (h : ¬ isBlankText text = true) :
    ∃ e, stage.reader.feed (some (.text text)) = fail e := by
  cases stage <;> exact ⟨_, if_neg h⟩

/-- A text may be cut in two. -/
theorem itemsFrom_text_append (reader : Reader) (text more : String) (rest : List Token) :
    reader.itemsFrom (.text (text ++ more) :: rest) =
      reader.itemsFrom (.text text :: .text more :: rest) := by
  have hbetween : ∀ stage : Stage, stage.reader.itemsFrom (.text (text ++ more) :: rest) =
      stage.reader.itemsFrom (.text text :: .text more :: rest) := by
    intro stage
    by_cases hblank : isBlankText text = true
    · -- blank text is passed over, and the other piece decides
      rw [itemsFrom_cons_more (feed_blank stage hblank)]
      apply itemsFrom_congr
      apply feed_text_congr
      rw [isBlankText_append, hblank, Bool.true_and]
    · obtain ⟨e, hfeed⟩ := feed_not_blank stage hblank
      have hwhole : stage.reader.feed (some (.text (text ++ more))) = fail e := by
        rw [← hfeed]
        apply feed_text_congr
        rw [isBlankText_append, Bool.eq_false_iff.2 hblank, Bool.false_and]
      rw [itemsFrom_cons_error hwhole, itemsFrom_cons_error hfeed]
  cases reader with
  | root => exact hbetween .root
  | mesh => exact hbetween .mesh
  | done => exact hbetween .done
  | block header read =>
    rw [itemsFrom_cons_more rfl, itemsFrom_cons_more rfl, itemsFrom_cons_more rfl,
      String.append_assoc]
  | failed => rfl

/-- A text may come in any pieces. -/
theorem itemsFrom_pieces (reader : Reader) (text : String) (texts : List String)
    (rest : List Token) :
    reader.itemsFrom (.text (text ++ String.join texts) :: rest) =
      reader.itemsFrom (.text text :: (texts.map .text ++ rest)) := by
  induction texts generalizing reader text with
  | nil => rw [String.join_nil, String.append_empty, List.map_nil, List.nil_append]
  | cons more texts ih =>
    rw [String.join_cons, ← String.append_assoc, ih, itemsFrom_text_append]
    rfl

/-! ### What stands before -/

/-- The reader behind tokens. -/
def after (reader : Reader) : List Token → Reader
  | [] => reader
  | token :: rest => (reader.feed (some token)).1.after rest

theorem after_append : reader.after (tokens ++ rest) = (reader.after tokens).after rest := by
  induction tokens generalizing reader with
  | nil => rfl
  | cons token tokens ih => exact ih

/-- What the reader behind some tokens does not see, no reader of them sees. -/
theorem itemsFrom_append_congr
    (h : (reader.after before).itemsFrom tokens = (reader.after before).itemsFrom tokens') :
    reader.itemsFrom (before ++ tokens) = reader.itemsFrom (before ++ tokens') := by
  induction before generalizing reader with
  | nil => exact h
  | cons token before ih =>
    rw [List.cons_append, List.cons_append, itemsFrom, itemsFrom]
    rw [after] at h
    rcases hfeed : reader.feed (some token) with ⟨next, signal⟩
    rw [hfeed] at h
    cases signal with
    | more => exact ih h
    | event event => exact congrArg _ (ih h)
    | error | finished => rfl

/-- A reader that comes to be in a block has read its opening tag, or more text of it. -/
theorem of_feed_eq_block (h : (reader.feed (some token)).1 = block header text) :
    (∃ name attributes, Header.ofTag name attributes = .ok header ∧
        token = .opening name attributes) ∨
      ∃ read more, reader = block header read ∧ token = .text more := by
  cases reader with
  | root =>
    rcases token with ⟨name, attributes⟩ | more | name <;> rw [feed, feedRoot] at h
    · split_ifs at h
      cases h
    · split_ifs at h
      cases h
    · cases h
  | mesh =>
    rcases token with ⟨name, attributes⟩ | more | name <;> rw [feed, feedMesh] at h
    · left
      rcases hheader : Header.ofTag name attributes with e | header' <;> rw [hheader] at h <;>
        cases h
      exact ⟨name, attributes, hheader, rfl⟩
    · split_ifs at h
      cases h
    · split_ifs at h
      cases h
  | block header' read =>
    rcases token with ⟨name, attributes⟩ | more | name <;> rw [feed, feedBlock] at h
    · cases h
    · cases h
      exact .inr ⟨read, more, rfl, rfl⟩
    · split_ifs at h
      · rcases hcomplete : header'.complete read with e | b <;> rw [hcomplete] at h <;> cases h
      · cases h
  | done =>
    rcases token with ⟨name, attributes⟩ | more | name
    · cases h
    · rw [feed, feedDone] at h
      split_ifs at h
      cases h
    · cases h
  | failed => cases h

/-- In a block, the tokens before end in its opening tag and its text. -/
theorem exists_opening (h : root.after before = block header text) :
    ∃ (init : List Token) (name : String) (attributes : List (String × String))
        (texts : List String),
      Header.ofTag name attributes = .ok header ∧
        before = init ++ .opening name attributes :: texts.map .text := by
  induction before using List.reverseRec generalizing text with
  | nil => cases h
  | append_singleton init token ih =>
    rw [after_append] at h
    rcases of_feed_eq_block h with ⟨name, attributes, hheader, rfl⟩ | ⟨read, more, hread, rfl⟩
    · exact ⟨init, name, attributes, [], hheader, rfl⟩
    · obtain ⟨init', name, attributes, texts, hheader, rfl⟩ := ih hread
      refine ⟨init', name, attributes, texts ++ [more], hheader, ?_⟩
      rw [List.map_append, List.append_assoc]
      rfl

/-! ### Blank text -/

/-- What has been read of a block matters where the block is closed, and nowhere else. -/
theorem itemsFrom_block_congr
    (h : ∀ (texts : List String) (later : List Token),
      rest = texts.map .text ++ .closing header.element.name :: later →
        header.complete (text ++ String.join texts) =
          header.complete (text' ++ String.join texts)) :
    (block header text).itemsFrom rest = (block header text').itemsFrom rest := by
  induction rest generalizing text text' with
  | nil => rfl
  | cons token rest ih =>
    rcases token with ⟨name, attributes⟩ | more | name
    · rfl
    · rw [itemsFrom_cons_more rfl, itemsFrom_cons_more rfl]
      apply ih
      rintro texts later rfl
      have hcomplete := h (more :: texts) later rfl
      rwa [String.join_cons, ← String.append_assoc, ← String.append_assoc] at hcomplete
    · rw [itemsFrom, itemsFrom, feed, feed, feedBlock, feedBlock]
      by_cases hname : name = header.element.name
      · have hcomplete := h [] rest (by rw [hname]; rfl)
        rw [String.join_nil, String.append_empty, String.append_empty] at hcomplete
        rw [hcomplete]
      · rw [if_neg hname, if_neg hname]

/-- Blank text is not missed where no values are written. -/
theorem itemsFrom_blank (hblank : token.IsBlank) (hplace : ¬ InValues before rest) :
    root.itemsFrom (before ++ rest) = root.itemsFrom (before ++ token :: rest) := by
  match token, hblank with
  | .text blank, hblank =>
    rw [Token.isBlank_text] at hblank
    apply itemsFrom_append_congr
    rcases hreader : root.after before with - | - | ⟨header, text⟩ | - | -
    · exact (itemsFrom_cons_more (feed_blank .root hblank)).symm
    · exact (itemsFrom_cons_more (feed_blank .mesh hblank)).symm
    · have hfeed : (block header text).feed (some (.text blank)) =
          (block header (text ++ blank), .more) := rfl
      rw [itemsFrom_cons_more hfeed]
      obtain ⟨init, name, attributes, texts, hheader, rfl⟩ := exists_opening hreader
      apply itemsFrom_block_congr
      rintro texts' later rfl
      -- only a block without values is closed here
      have hwritten : ∀ b, header.complete (String.join (texts ++ texts')) = .ok b →
          ¬ (b.element = .attribute ∨ b.element = .indices) := by
        intro b hcomplete helement
        have hb := Block.written_iff.2 ⟨header, name, attributes, texts ++ texts', rfl,
          Header.ofTag_eq_ok_iff.1 hheader, hcomplete⟩
        exact hplace ⟨b, init, later, _, _, texts, texts', rfl, rfl, hb, helement⟩
      rcases header with ⟨_, _, _⟩ | ⟨_, _⟩ | ⟨_, _, _⟩
      · exact absurd (.inl rfl) (hwritten _ rfl)
      · exact absurd (.inr rfl) (hwritten _ rfl)
      · rw [Header.complete, Header.complete, isBlankText_append, isBlankText_append,
          isBlankText_append, hblank, Bool.and_true]
    · exact (itemsFrom_cons_more (feed_blank .done hblank)).symm
    · cases rest <;> rfl

end Reader

/-! ### Respelled tokens -/

variable {tokens tokens' : List Token}

/-- **One respelling**: a reader gives the same items. -/
theorem Respelling.items_eq (h : Respelling tokens tokens') :
    Reader.items tokens = Reader.items tokens' := by
  cases h with
  | @pieces before after texts hne =>
    apply Reader.itemsFrom_append_congr
    match texts, hne with
    | text :: texts, _ =>
      rw [String.join_cons]
      exact Reader.itemsFrom_pieces _ text texts after
  | blank hblank hplace => exact Reader.itemsFrom_blank hblank hplace
  | root =>
    apply Reader.itemsFrom_append_congr
    exact Reader.itemsFrom_congr (Reader.feed_opening_congr Header.ofTag_mesh _) _
  | tag h =>
    apply Reader.itemsFrom_append_congr
    exact Reader.itemsFrom_congr
      (Reader.feed_opening_congr (Header.ofTag_congr fun key => h.find?_eq) _) _

/-- **Spelling makes no difference**: tokens that are led from one to the other by any number of
respellings, there and back, compile in the same way or fail with the same error, and the same
notes are taken. -/
theorem compileTokens_of_respelled (options : Options)
    (h : Relation.EqvGen Respelling tokens tokens') :
    compileTokens options tokens = compileTokens options tokens' := by
  have hitems : Reader.items tokens = Reader.items tokens' := by
    induction h with
    | rel _ _ h => exact h.items_eq
    | refl => rfl
    | symm _ _ _ ih => exact ih.symm
    | trans _ _ _ _ _ ih ih' => exact ih.trans ih'
  rw [compileTokens, Compiler.compileTokens, hitems]
  rfl

theorem Header.element_of_complete {header : Header} {text : String} {b : Block}
    (h : header.complete text = .ok b) : b.element = header.element := by
  match header with
  | .attribute .. | .indices .. =>
    cases h
    rfl
  | .arrays .. =>
    rw [complete] at h
    split_ifs at h
    cases h
    rfl

/-- A block ends with the closing tag of its element. -/
theorem Block.Written.closing_eq {b : Block} {opening closing : Token} {tokens : List Token}
    (h : b.Written (opening :: (tokens ++ [closing]))) : closing = .closing b.element.name := by
  obtain ⟨header, name, attributes, texts, htokens, -, hcomplete⟩ := Block.written_iff.1 h
  have hclosing : closing = .closing header.element.name :=
    List.singleton_inj.1 (List.append_inj' (List.cons.inj htokens).2 rfl).2
  rw [hclosing, header.element_of_complete hcomplete]

/-- An attribute and a command, with the attribute's text in pieces, the attributes of the command's
tag, and what stands inside it. -/
def pointTokens (texts : List String) (attributes : List (String × String)) (inside : List Token) :
    List Token :=
  [.opening "mesh" [], .opening "attribute" [("index", "0"), ("type", "ubyte"), ("size", "1")]] ++
    (texts.map .text ++ [.closing "attribute", .opening "arrays" attributes] ++
      (inside ++ [.closing "arrays", .closing "mesh"]))

/-- A number in two pieces, attributes in another order, and blank text in an element that holds no
values. -/
theorem compileTokens_ornate :
    Relation.EqvGen Respelling
        (pointTokens ["12 3"] [("cmd", "points"), ("start", "0"), ("count", "2")] [])
        (pointTokens ["1", "2 3"] [("count", "2"), ("cmd", "points"), ("start", "0")]
          [.text "\n"]) ∧
      ∃ mesh, mesh.vertexData.bytes = [12, 3] ∧
        (compileTokens .strict
          (pointTokens ["12 3"] [("cmd", "points"), ("start", "0"), ("count", "2")] [])).result =
            .ok mesh ∧
        (compileTokens .strict
          (pointTokens ["1", "2 3"] [("count", "2"), ("cmd", "points"), ("start", "0")]
            [.text "\n"])).result = .ok mesh := by
  have hpieces : Respelling
      (pointTokens ["12 3"] [("cmd", "points"), ("start", "0"), ("count", "2")] [])
      (pointTokens ["1", "2 3"] [("cmd", "points"), ("start", "0"), ("count", "2")] []) :=
    @Respelling.pieces [_, _] _ ["1", "2 3"] (by simp)
  have htag : Respelling
      (pointTokens ["1", "2 3"] [("cmd", "points"), ("start", "0"), ("count", "2")] [])
      (pointTokens ["1", "2 3"] [("count", "2"), ("cmd", "points"), ("start", "0")] []) :=
    @Respelling.tag [_, _, _, _, _] _ "arrays" _ _
      (@TagRespelling.permuted _ [] [("cmd", "points"), ("start", "0"), ("count", "2")]
        [("count", "2"), ("cmd", "points"), ("start", "0")] [] (by decide) (by decide))
  have hblank : Respelling
      (pointTokens ["1", "2 3"] [("count", "2"), ("cmd", "points"), ("start", "0")] [])
      (pointTokens ["1", "2 3"] [("count", "2"), ("cmd", "points"), ("start", "0")]
        [.text "\n"]) := by
    refine @Respelling.blank [_, _, _, _, _, _] [_, _] _ (Token.isBlank_text.2 (by decide)) ?_
    rintro ⟨b, init, rest, opening, closing, texts, texts', -, hafter, hb, helement⟩
    -- the tag that comes next closes a command
    have hclosing := hb.closing_eq
    match texts', hafter with
    | [], hafter =>
      obtain ⟨rfl, -⟩ := List.cons.inj hafter
      rcases helement with helement | helement <;> rw [helement] at hclosing
      · exact absurd hclosing (by decide)
      · exact absurd hclosing (by decide)
  have hrespelled := ((Relation.EqvGen.rel _ _ hpieces).trans _ _ _ (.rel _ _ htag)).trans _ _ _
    (.rel _ _ hblank)
  have hmesh : (compileTokens .strict
      (pointTokens ["12 3"] [("cmd", "points"), ("start", "0"), ("count", "2")] [])).result =
        .ok _ := rfl
  refine ⟨hrespelled, _, ?_, hmesh, ?_⟩
  · rfl
  · rw [← compileTokens_of_respelled .strict hrespelled]
    exact hmesh

end MeshLayout
