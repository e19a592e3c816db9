/-
MeshLayout/Proofs/Comments.lean

What a comment leaves.

A comment leaves no piece and no token, so the character data around it comes as
two texts, one after the other (`scans_comment`).  With a blank in the place of
the comment there would be one text, and the blank in it (`scans_spaced`).  For
the second it has to be known that character data can be resolved in parts: a
reference stands for the same character wherever it stands
(`resolveText_append`).

Behind the text stands a closing tag.  What begins as one, with a bracket and a
slash, cannot turn out to be anything else (`exists_closing`).
-/
import MeshLayout.Proofs.Scanning
import MeshLayout.Proofs.Tags

namespace MeshLayout

namespace Markup

/-! ### References -/

/-- A reference stands for the same character wherever it stands. -/
theorem referenced_congr {start start' : Nat} {name : List Char} {c : Char}
    (h : referenced start name = .ok c) : referenced start' name = .ok c := by
  unfold referenced at h ⊢
  split at h
  · exact h
  · split at h
    · exact h
    · cases h

/-- What can be resolved is resolved in front of anything, to the same characters. -/
theorem resolveFrom_append {total position : Nat} {reference : OpenReference}
    {chars resolved : List Char} (h : resolveFrom total reference position chars = .ok resolved)
    (reference' : OpenReference) (hreference : reference'.map Prod.snd = reference.map Prod.snd)
    (total' position' : Nat) (rest : List Char) :
    ∃ next, resolveFrom total' reference' position' (chars ++ rest) =
      (resolveFrom total' none next rest).map (resolved ++ ·) := by
  induction chars generalizing reference reference' position position' resolved with
  | nil =>
    rcases reference with - | ⟨start, name⟩
    · obtain rfl := Option.map_eq_none_iff.1 hreference
      cases h
      refine ⟨position', ?_⟩
      show resolveFrom total' none position' rest = _
      rcases resolveFrom total' none position' rest with fault | others <;> rfl
    · cases h
  | cons c chars ih =>
    rw [List.cons_append]
    rcases reference with - | ⟨start, name⟩
    · obtain rfl := Option.map_eq_none_iff.1 hreference
      rw [resolveFrom] at h ⊢
      by_cases hc : c = '&'
      · rw [if_pos hc] at h ⊢
        exact ih h (some (position', [])) rfl _
      · rw [if_neg hc] at h ⊢
        rcases hinner : resolveFrom total none (position + c.utf8Size) chars with fault | inner
        · rw [hinner] at h
          cases h
        · rw [hinner] at h
          cases h
          obtain ⟨next, hnext⟩ := ih hinner none rfl (position' + c.utf8Size)
          refine ⟨next, ?_⟩
          rw [hnext]
          rcases resolveFrom total' none next rest with fault | others <;> rfl
    · obtain ⟨⟨start', name'⟩, rfl, hname⟩ := Option.map_eq_some_iff.1 hreference
      obtain rfl : name' = name := hname
      rw [resolveFrom] at h ⊢
      by_cases hend : c = ';'
      · rw [if_pos hend] at h ⊢
        obtain ⟨character, hcharacter, h⟩ := except_bind_eq_ok_iff.1 h
        obtain ⟨inner, hinner, h⟩ := except_bind_eq_ok_iff.1 h
        cases h
        obtain ⟨next, hnext⟩ := ih hinner none rfl (position' + c.utf8Size)
        refine ⟨next, ?_⟩
        rw [referenced_congr hcharacter, hnext]
        rcases resolveFrom total' none next rest with fault | others <;> rfl
      · rw [if_neg hend] at h ⊢
        by_cases hc : c = '&'
        · rw [if_pos hc] at h
          cases h
        · rw [if_neg hc] at h ⊢
          exact ih h (some (start', c :: name')) rfl _

variable {chars more : List Char} {text text' : String}

theorem resolveText_append (h : resolveText chars = .ok text)
    (hmore : resolveText more = .ok text') : resolveText (chars ++ more) = .ok (text ++ text') := by
  rw [resolveText] at h hmore ⊢
  rcases hchars : resolve chars with fault | resolved <;> rw [hchars] at h <;> cases h
  rcases hmore' : resolve more with fault | resolved' <;> rw [hmore'] at hmore <;> cases hmore
  generalize htotal : (String.ofList (chars ++ more)).utf8ByteSize = total
  obtain ⟨next, hfirst⟩ := resolveFrom_append hchars none rfl total 0 more
  obtain ⟨last, hsecond⟩ := resolveFrom_append hmore' none rfl total next []
  rw [List.append_nil] at hsecond
  have hresolve : resolve (chars ++ more) = .ok (resolved ++ resolved') := by
    rw [resolve, htotal, hfirst, hsecond]
    simp [resolveFrom, Except.map]
  rw [hresolve, ← String.ofList_append]

/-! ### Comments -/

/-- Character data that stands for the text. -/
structure CharacterData (chars : List Char) (text : String) : Prop where
  noBracket : ∀ c ∈ chars, c ≠ '<'
  resolved : resolveText chars = .ok text

theorem CharacterData.append (h : CharacterData chars text) (hmore : CharacterData more text') :
    CharacterData (chars ++ more) (text ++ text') where
  noBracket := List.forall_mem_append.2 ⟨h.noBracket, hmore.noBracket⟩
  resolved := resolveText_append h.resolved hmore.resolved

/-- Every text can be written as character data. -/
theorem characterData_escape (text : String) : CharacterData (escape text.toList) text :=
  ⟨fun _ hc => ne_of_mem_escape hc rfl, resolveText_escape text⟩

variable {opened : List String} {read : List Char}

/-- Character data is complete at the next bracket. -/
theorem CharacterData.scans (h : CharacterData chars text) (hne : text ≠ "") :
    Scans opened (.text []) (chars ++ ['<']) [.text text] opened .bracket := by
  have hchars : chars ≠ [] := by
    rintro rfl
    exact hne (Except.ok.inj h.resolved).symm
  have hclose : closeText (chars.reverse ++ []) = some (.text chars) := by
    rw [List.append_nil, closeText, List.isEmpty_reverse, List.isEmpty_eq_false_iff.2 hchars,
      List.reverse_reverse]
    rfl
  have hbracket : Cuts (.text (chars.reverse ++ [])) ['<'] [.text chars] .bracket := by
    have hstep : Cuts (.text (chars.reverse ++ [])) ['<']
        (closeText (chars.reverse ++ [])).toList .bracket := cuts_step rfl
    rwa [hclose] at hstep
  have hpiece : pieceTokens opened (.text chars) = .ok ([.text text], opened) := by
    rw [pieceTokens, h.resolved]
    rfl
  exact ((cuts_text [] h.noBracket).append hbracket).scans hpiece

theorem endsComment_iff : endsComment read = true ↔
    ∃ first second third earlier, read = '-' :: '-' :: first :: second :: third :: earlier := by
  constructor
  · intro h
    unfold endsComment at h
    split at h
    · exact ⟨_, _, _, _, rfl⟩
    · cases h
  · rintro ⟨first, second, third, earlier, rfl⟩
    rfl

/-- A comment leaves nothing, from behind its first bracket on. -/
theorem cuts_comment {inside : List Char} (h : ¬ "-->".toList <:+: inside) :
    Cuts .bracket ("!--".toList ++ (inside ++ "-->".toList)) [] (.text []) := by
  have hopen : Cuts .bracket "!--".toList [] (.comment "!--".toList.reverse) := fun _ => rfl
  have hinside : Cuts (.comment "!--".toList.reverse) inside []
      (.comment (inside.reverse ++ "!--".toList.reverse)) := by
    apply cuts_collect
    rintro before c after rfl
    have hends : (c = '>' && endsComment (before.reverse ++ "!--".toList.reverse)) = false := by
      rw [Bool.eq_false_iff]
      intro hends
      rw [Bool.and_eq_true, decide_eq_true_iff, endsComment_iff] at hends
      obtain ⟨rfl, first, second, third, earlier, hread⟩ := hends
      -- the dashes that end a comment are not those that open it
      rcases hbefore : before.reverse with - | ⟨x, - | ⟨y, inner⟩⟩ <;> rw [hbefore] at hread
      · cases hread
      · cases hread
      · obtain ⟨rfl, hsecond⟩ := List.cons.inj hread
        obtain ⟨rfl, -⟩ := List.cons.inj hsecond
        refine h ⟨inner.reverse, after, ?_⟩
        rw [List.reverse_eq_iff.1 hbefore]
        simp
    rw [Mode.step, hends]
    rfl
  have hclose : Cuts (.comment (inside.reverse ++ "!--".toList.reverse)) "-->".toList []
      (.text []) := by
    have hends : endsComment ('-' :: '-' :: (inside.reverse ++ "!--".toList.reverse)) = true := by
      rcases inside.reverse with - | ⟨x, - | ⟨y, - | ⟨z, others⟩⟩⟩ <;> rfl
    have hopener : "!--".toList.isPrefixOf
        ('-' :: '-' :: (inside.reverse ++ "!--".toList.reverse)).reverse = true := by
      rw [List.isPrefixOf_iff_prefix]
      exact ⟨inside ++ "--".toList, by simp⟩
    have hend : (Mode.comment ('-' :: '-' :: (inside.reverse ++ "!--".toList.reverse))).step '>' =
        .ok (.text [], none) := by
      rw [Mode.step, hends, closeComment, hopener]
      rfl
    exact .pass rfl (.pass rfl (cuts_step hend))
  exact hopen.append (hinside.append hclose)

/-- **A comment is dropped**: the texts on either side of it come one after the other, up to the
bracket behind the second. -/
theorem scans_comment {inside : List Char} (htext : CharacterData chars text) (hne : text ≠ "")
    (hinside : ¬ "-->".toList <:+: inside) (hmore : CharacterData more text') (hne' : text' ≠ "") :
    Scans opened (.text [])
      (chars ++ ("<!--".toList ++ (inside ++ ("-->".toList ++ (more ++ ['<'])))))
      [.text text, .text text'] opened .bracket := by
  have hcomment : Scans opened .bracket ("!--".toList ++ (inside ++ "-->".toList)) [] opened
      (.text []) := (cuts_comment hinside).scans_nil
  have hscans := (htext.scans hne).append (hcomment.append (hmore.scans hne'))
  simpa using hscans

/-- With a blank between them, they come as one. -/
theorem scans_spaced (htext : CharacterData chars text) (hmore : CharacterData more text') :
    Scans opened (.text []) (chars ++ (' ' :: (more ++ ['<']))) [.text (text ++ (" " ++ text'))]
      opened .bracket := by
  have hspace : CharacterData [' '] " " := ⟨by simp, rfl⟩
  have hne : text ++ (" " ++ text') ≠ "" := by
    intro hempty
    simpa using congrArg String.toList hempty
  have hscans : Scans opened (.text []) _ _ opened .bracket :=
    (htext.append (hspace.append hmore)).scans hne
  simpa using hscans

/-! ### Closing tags -/

/-- A character in a closing tag: the tag goes on, or this is its end. -/
theorem step_closing_cases (quote : Option Char) (read : List Char) (c : Char) :
    (∃ quote', (Mode.tag quote (read ++ ['/'])).step c =
        .ok (.tag quote' (c :: read ++ ['/']), none)) ∨
      (Mode.tag quote (read ++ ['/'])).step c = .ok (.text [], some (.closing read.reverse)) := by
  rcases quote with - | q
  · by_cases hend : c = '>'
    · right
      have hclose : closeTag (read ++ ['/']) = .closing read.reverse := by
        rw [closeTag, List.reverse_append]
        rfl
      rw [Mode.step, Mode.stepTag, if_pos hend, hclose]
    · left
      rw [Mode.step, Mode.stepTag, if_neg hend]
      split
      · exact ⟨_, rfl⟩
      · exact ⟨_, rfl⟩
  · exact .inl ⟨_, rfl⟩

/-- What begins as a closing tag is one, or the document is turned down. -/
theorem exists_closing {quote : Option Char} {tokens : List Token}
    (h : tokensFrom opened (piecesFrom (.tag quote (read ++ ['/'])) chars) = .ok tokens) :
    ∃ name later, tokens = .closing name :: later := by
  induction chars generalizing quote read with
  | nil => cases h
  | cons c chars ih =>
    rw [piecesFrom] at h
    rcases step_closing_cases quote read c with ⟨quote', hstep⟩ | hstep
    · rw [hstep] at h
      exact ih h
    · rw [hstep] at h
      obtain ⟨piece, hpiece, h⟩ := except_bind_eq_ok_iff.1 h
      cases hpiece
      obtain ⟨⟨first, others⟩, hfirst, h⟩ := except_bind_eq_ok_iff.1 h
      obtain ⟨later, -, h⟩ := except_bind_eq_ok_iff.1 h
      obtain ⟨_, -, hfirst⟩ := except_bind_eq_ok_iff.1 hfirst
      cases hfirst
      cases h
      exact ⟨_, later, rfl⟩

end Markup

end MeshLayout
