/-
MeshLayout/Proofs/Writing.lean

Elements as they may be written, and their tags as they are read.

A writer puts the values of a tag in double quotes, escaped, and the text of
an element down in any sequence of escaped character data and literal
sections.  Nothing that is escaped holds a bracket or a quote
(`isPlain_escape`), and it is resolved to what it was (`resolveText_escape`).
So a value ends at the quote that was put behind it, and attributes are read
one by one as they were written, if their keys are names that do not repeat
(`attributesFrom_writeAttribute`).  Main result: `ofContent_writeTag`, on whole
opening tags.
-/
import Mathlib.Data.List.Basic
import Mathlib.Data.List.TakeWhile
import Mathlib.Tactic.SplitIfs
import MeshLayout.Markup.Document

namespace MeshLayout

namespace Markup

/-! ### Writing elements -/

/-- A part of the text of an element. -/
inductive TextRun where
  /-- character data -/
  | data (text : String)
  /-- a section, whose text stands for itself and may not contain the end of the section -/
  | literal (text : String) (h : ¬ "]]>".toList <:+: text.toList)

namespace TextRun

/-- The text that is written. -/
def text : TextRun → String
  | data text | literal text _ => text

/-- The characters that it is written with. -/
def written : TextRun → List Char
  | data text => escape text.toList
  | literal text _ => "<![CDATA[".toList ++ (text.toList ++ "]]>".toList)

end TextRun

/-- The text of all the runs. -/
def textOf (runs : List TextRun) : String := String.join (runs.map TextRun.text)

/-- An attribute, with its value in double quotes. -/
def writeAttribute (entry : String × String) : List Char :=
  ' ' :: (entry.1.toList ++ '=' :: '"' :: (escape entry.2.toList ++ ['"']))

/-- A name and attributes, as they stand in an opening tag. -/
def writeTag (name : String) (attributes : List (String × String)) : List Char :=
  name.toList ++ attributes.flatMap writeAttribute

/-- An element, with what stands inside it. -/
def writeElement (name : String) (attributes : List (String × String)) (inside : List Char) :
    List Char :=
  '<' :: (writeTag name attributes ++ '>' :: (inside ++ '<' :: '/' :: (name.toList ++ ['>'])))

/-- An element that closes itself. -/
def writeEmptyElement (name : String) (attributes : List (String × String)) : List Char :=
  '<' :: (writeTag name attributes ++ ['/', '>'])

/-- A name in small letters. -/
def IsName (name : String) : Prop := name.toList ≠ [] ∧ ∀ c ∈ name.toList, c.isLower = true

instance (name : String) : Decidable (IsName name) :=
  decidable_of_iff (name.toList ≠ [] ∧ name.toList.all Char.isLower = true)
    (and_congr_right fun _ => List.all_eq_true)

/-- The keys are names, and none is repeated. -/
structure ProperKeys (attributes : List (String × String)) : Prop where
  names : ∀ entry ∈ attributes, IsName entry.1
  nodup : (attributes.map Prod.fst).Nodup

/-! ### Characters that do not occur -/

theorem ne_of_isLower {c d : Char} (hc : c.isLower = true) (hd : d.isLower = false) : c ≠ d := by
  rintro rfl
  rw [hc] at hd
  cases hd

theorem isSpace_of_isLower {c : Char} (hc : c.isLower = true) : isSpace c = false := by
  simp [isSpace, ne_of_isLower hc]

/-- The character is neither a bracket nor a quote. -/
def isPlain (c : Char) : Bool := c ≠ '<' && c ≠ '>' && c ≠ '"' && c ≠ '\''

theorem isPlain_escapeChar (c : Char) : ∀ d ∈ escapeChar c, isPlain d = true := by
  rw [escapeChar]
  split_ifs with hlt hgt hamp hapos hquot
  · exact List.all_eq_true.1 (by decide)
  · exact List.all_eq_true.1 (by decide)
  · exact List.all_eq_true.1 (by decide)
  · exact List.all_eq_true.1 (by decide)
  · exact List.all_eq_true.1 (by decide)
  · rw [List.forall_mem_singleton]
    simp [isPlain, hlt, hgt, hapos, hquot]

/-- What is escaped holds neither brackets nor quotes. -/
theorem isPlain_escape {chars : List Char} : ∀ c ∈ escape chars, isPlain c = true := by
  intro c hc
  obtain ⟨d, -, hd⟩ := List.mem_flatMap.1 hc
  exact isPlain_escapeChar d c hd

theorem ne_of_mem_escape {chars : List Char} {c d : Char} (hc : c ∈ escape chars)
    (hd : isPlain d = false) : c ≠ d := by
  rintro rfl
  rw [isPlain_escape c hc] at hd
  cases hd

/-! ### References -/

/-- A character that is escaped is resolved again, and the reading goes on behind it. -/
theorem resolveFrom_escapeChar (c : Char) (total position : Nat) (rest : List Char) :
    ∃ next, resolveFrom total none position (escapeChar c ++ rest) =
      (resolveFrom total none next rest).map fun resolved => c :: resolved := by
  rw [escapeChar]
  split_ifs with hlt hgt hamp hapos hquot
  · subst hlt
    exact ⟨_, rfl⟩
  · subst hgt
    exact ⟨_, rfl⟩
  · subst hamp
    exact ⟨_, rfl⟩
  · subst hapos
    exact ⟨_, rfl⟩
  · subst hquot
    exact ⟨_, rfl⟩
  · exact ⟨_, by rw [List.singleton_append, resolveFrom, if_neg hamp]⟩

theorem resolveFrom_escape (total position : Nat) (chars : List Char) :
    resolveFrom total none position (escape chars) = .ok chars := by
  induction chars generalizing position with
  | nil => rfl
  | cons c rest ih =>
    obtain ⟨next, hnext⟩ := resolveFrom_escapeChar c total position (escape rest)
    rw [escape, List.flatMap_cons]
    rw [escape] at hnext ih
    rw [hnext, ih]
    rfl

/-- **What is escaped is resolved again.** -/
theorem resolveText_escape (text : String) : resolveText (escape text.toList) = .ok text := by
  rw [resolveText, resolve, resolveFrom_escape]
  show Except.ok (String.ofList text.toList) = _
  rw [String.ofList_toList]

/-! ### Attributes -/

section Attributes

variable {seen seen' : List PlacedKey} {mode mode' : AttributeMode} {position : Nat} {c : Char}
  {rest : List Char} {entry : String × String} {attributes : List (String × String)}

theorem attributesFrom_pass (h : mode.step seen position c = .ok (mode', seen', none)) :
    attributesFrom seen mode position (c :: rest) =
      attributesFrom seen' mode' (position + c.utf8Size) rest := by
  rw [attributesFrom, h]
  show attributesFrom seen' mode' _ rest >>= (fun others => Except.ok ([] ++ others)) = _
  rcases attributesFrom seen' mode' (position + c.utf8Size) rest with e | others
  · rfl
  · rfl

theorem attributesFrom_complete (h : mode.step seen position c = .ok (mode', seen', some entry)) :
    attributesFrom seen mode position (c :: rest) =
      (attributesFrom seen' mode' (position + c.utf8Size) rest).map (entry :: ·) := by
  rw [attributesFrom, h]
  rfl

/-- Characters that are collected, in a key or in a value. -/
theorem attributesFrom_collect {collect : List Char → AttributeMode} {chars : List Char}
    (h : ∀ c ∈ chars, ∀ read position,
      (collect read).step seen position c = .ok (collect (c :: read), seen, none))
    (read : List Char) (position : Nat) (rest : List Char) :
    ∃ next, attributesFrom seen (collect read) position (chars ++ rest) =
      attributesFrom seen (collect (chars.reverse ++ read)) next rest := by
  induction chars generalizing read position with
  | nil => exact ⟨position, rfl⟩
  | cons c chars ih =>
    obtain ⟨hc, hchars⟩ := List.forall_mem_cons.1 h
    obtain ⟨next, hnext⟩ := ih hchars (c :: read) (position + c.utf8Size)
    refine ⟨next, ?_⟩
    rw [List.cons_append, attributesFrom_pass (hc read position), hnext, List.reverse_cons,
      List.append_assoc]
    rfl

theorem closeKey_of_new {key : List Char} (h : ∀ placed ∈ seen, placed.1 ≠ key) (start : Nat) :
    AttributeMode.closeKey seen start key =
      .ok (.beforeValue key, seen ++ [(key, start)], none) := by
  have hfind : seen.find? (fun placed => placed.1 = key) = none :=
    List.find?_eq_none.2 fun placed hplaced => by simpa using h placed hplaced
  rw [AttributeMode.closeKey, hfind]

/-- The key of an attribute, up to the quote behind it. -/
theorem attributesFrom_key {key : List Char} (hne : key ≠ [])
    (hlower : ∀ c ∈ key, c.isLower = true) (hnew : ∀ placed ∈ seen, placed.1 ≠ key)
    (position : Nat) (rest : List Char) :
    ∃ start next, attributesFrom seen .beforeKey position (key ++ '=' :: '"' :: rest) =
      attributesFrom (seen ++ [(key, start)]) (.inValue key '"' []) next rest := by
  match key, hne with
  | c :: key, _ =>
    obtain ⟨hc, hkey⟩ := List.forall_mem_cons.1 hlower
    have hfirst : AttributeMode.beforeKey.step seen position c =
        .ok (.inKey position [c], seen, none) := by
      rw [AttributeMode.step, isSpace_of_isLower hc]
      rfl
    have hinside : ∀ d ∈ key, ∀ read next, (AttributeMode.inKey position read).step seen next d =
        .ok (.inKey position (d :: read), seen, none) := by
      intro d hd read next
      have hd := hkey d hd
      rw [AttributeMode.step, if_neg (ne_of_isLower hd rfl), isSpace_of_isLower hd]
      rfl
    obtain ⟨next, hnext⟩ := attributesFrom_collect hinside [c] (position + c.utf8Size)
      ('=' :: '"' :: rest)
    have hequals : (AttributeMode.inKey position (key.reverse ++ [c])).step seen next '=' =
        .ok (.beforeValue (c :: key), seen ++ [(c :: key, position)], none) := by
      rw [AttributeMode.step, if_pos rfl, List.reverse_append, List.reverse_reverse]
      exact closeKey_of_new hnew position
    refine ⟨position, next + '='.utf8Size + '"'.utf8Size, ?_⟩
    rw [List.cons_append, attributesFrom_pass hfirst, hnext, attributesFrom_pass hequals,
      attributesFrom_pass rfl]

/-- The value of an attribute, up to its closing quote. -/
theorem attributesFrom_value (seen : List PlacedKey) (key : List Char) (value : String)
    (position : Nat) (rest : List Char) :
    ∃ next, attributesFrom seen (.inValue key '"' []) position
        (escape value.toList ++ '"' :: rest) =
      (attributesFrom seen .beforeKey next rest).map ((String.ofList key, value) :: ·) := by
  have hinside : ∀ c ∈ escape value.toList, ∀ read next,
      (AttributeMode.inValue key '"' read).step seen next c =
        .ok (.inValue key '"' (c :: read), seen, none) := by
    intro c hc read next
    rw [AttributeMode.step, if_neg (ne_of_mem_escape hc rfl)]
  obtain ⟨next, hnext⟩ := attributesFrom_collect hinside [] position ('"' :: rest)
  have hclose : (AttributeMode.inValue key '"' ((escape value.toList).reverse ++ [])).step seen
      next '"' = .ok (.beforeKey, seen, some (String.ofList key, value)) := by
    rw [AttributeMode.step, if_pos rfl, List.append_nil, List.reverse_reverse, resolveText_escape]
    rfl
  exact ⟨_, hnext.trans (attributesFrom_complete hclose)⟩

/-- **Attributes that are written are read again.** -/
theorem attributesFrom_writeAttribute (seen : List PlacedKey) (h : ProperKeys attributes)
    (hnew : ∀ entry ∈ attributes, ∀ placed ∈ seen, placed.1 ≠ entry.1.toList) (position : Nat) :
    attributesFrom seen .beforeKey position (attributes.flatMap writeAttribute) =
      .ok attributes := by
  induction attributes generalizing seen position with
  | nil => rfl
  | cons entry attributes ih =>
    obtain ⟨hname, hnames⟩ := List.forall_mem_cons.1 h.names
    obtain ⟨hkey, hkeys⟩ := List.nodup_cons.1 h.nodup
    obtain ⟨hnewEntry, hnewOthers⟩ := List.forall_mem_cons.1 hnew
    obtain ⟨start, next, hfirst⟩ := attributesFrom_key hname.1 hname.2 hnewEntry
      (position + ' '.utf8Size)
      (escape entry.2.toList ++ '"' :: attributes.flatMap writeAttribute)
    obtain ⟨last, hsecond⟩ := attributesFrom_value (seen ++ [(entry.1.toList, start)])
      entry.1.toList entry.2 next (attributes.flatMap writeAttribute)
    -- the key that has been read is not among the others
    have hothers : ∀ other ∈ attributes, ∀ placed ∈ seen ++ [(entry.1.toList, start)],
        placed.1 ≠ other.1.toList := by
      intro other hother
      refine List.forall_mem_append.2 ⟨hnewOthers other hother, ?_⟩
      rw [List.forall_mem_singleton]
      intro heq
      exact hkey (List.mem_map.2 ⟨other, hother, (String.toList_inj.1 heq).symm⟩)
    have hrest := ih _ ⟨hnames, hkeys⟩ hothers last
    have hchars : (entry :: attributes).flatMap writeAttribute = ' ' :: (entry.1.toList ++
        '=' :: '"' :: (escape entry.2.toList ++ '"' :: attributes.flatMap writeAttribute)) := by
      simp [writeAttribute]
    rw [hchars, attributesFrom_pass rfl, hfirst, hsecond, hrest, String.ofList_toList]
    rfl

end Attributes

/-! ### Tags -/

section Tags

variable {name : String} {attributes : List (String × String)}

theorem isSelfClosing_concat (before : List Char) (c : Char) :
    isSelfClosing (before ++ [c]) = decide (c = '/') := by
  rw [isSelfClosing, List.getLast?_concat]
  exact decide_eq_decide.2 Option.some_inj

theorem isSelfClosing_writeTag (hname : IsName name) :
    isSelfClosing (writeTag name attributes) = false := by
  rcases List.eq_nil_or_concat' attributes with rfl | ⟨others, last, rfl⟩
  · obtain ⟨hne, hlower⟩ := hname
    have hlast : name.toList.getLast hne ≠ '/' :=
      ne_of_isLower (hlower _ (List.getLast_mem hne)) rfl
    have hchars : writeTag name [] = name.toList.dropLast ++ [name.toList.getLast hne] := by
      rw [List.dropLast_concat_getLast hne, writeTag, List.flatMap_nil, List.append_nil]
    rw [hchars, isSelfClosing_concat, decide_eq_false hlast]
  · -- the last character is the quote behind the last value
    have hchars : ∃ before, writeTag name (others ++ [last]) = before ++ ['"'] :=
      ⟨name.toList ++ (others.flatMap writeAttribute ++
        ' ' :: (last.1.toList ++ '=' :: '"' :: escape last.2.toList)), by
          simp [writeTag, writeAttribute]⟩
    obtain ⟨before, hchars⟩ := hchars
    rw [hchars, isSelfClosing_concat]
    rfl

/-- A name ends where the attributes begin. -/
theorem takeWhile_writeTag (attributes : List (String × String)) (hname : IsName name) :
    (writeTag name attributes).takeWhile (fun c => !isSpace c) = name.toList ∧
      (writeTag name attributes).dropWhile (fun c => !isSpace c) =
        attributes.flatMap writeAttribute := by
  have hword : ∀ c ∈ name.toList, (!isSpace c) = true := by
    intro c hc
    rw [isSpace_of_isLower (hname.2 c hc)]
    rfl
  rw [writeTag, List.takeWhile_append_of_pos hword, List.dropWhile_append_of_pos hword]
  match attributes with
  | [] => exact ⟨List.append_nil _, rfl⟩
  | entry :: others => exact ⟨List.append_nil _, rfl⟩

theorem ofContent_of_tagBody {content : List Char} (hname : IsName name)
    (hkeys : ProperKeys attributes) (h : tagBody content = writeTag name attributes) :
    Tag.ofContent content = .ok ⟨name, attributes, isSelfClosing content⟩ := by
  obtain ⟨htake, hdrop⟩ := takeWhile_writeTag attributes hname
  have hattributes := attributesFrom_writeAttribute [] hkeys
    (fun _ _ => List.forall_mem_nil _) name.utf8ByteSize
  rw [Tag.ofContent, h, tagName, htake, hdrop, String.ofList_toList, hattributes]
  rfl

/-- **A tag that is written is read again.** -/
theorem ofContent_writeTag (hname : IsName name) (hkeys : ProperKeys attributes) :
    Tag.ofContent (writeTag name attributes) = .ok ⟨name, attributes, false⟩ := by
  have hopen : isSelfClosing (writeTag name attributes) = false := isSelfClosing_writeTag hname
  have hbody : tagBody (writeTag name attributes) = writeTag name attributes := by
    rw [tagBody, hopen]
    rfl
  rw [ofContent_of_tagBody hname hkeys hbody, hopen]

theorem ofContent_writeTag_slash (hname : IsName name) (hkeys : ProperKeys attributes) :
    Tag.ofContent (writeTag name attributes ++ ['/']) = .ok ⟨name, attributes, true⟩ := by
  have hclosed : isSelfClosing (writeTag name attributes ++ ['/']) = true := by
    simp [isSelfClosing]
  have hbody : tagBody (writeTag name attributes ++ ['/']) = writeTag name attributes := by
    rw [tagBody, hclosed, if_pos rfl, List.dropLast_concat]
  rw [ofContent_of_tagBody hname hkeys hbody, hclosed]

theorem closingName_name (hname : IsName name) : closingName name.toList = name := by
  obtain ⟨hne, hlower⟩ := hname
  have hlast : name.toList.reverse.dropWhile isSpace = name.toList.reverse := by
    rw [List.dropWhile_eq_self_iff]
    intro hlength
    rw [isSpace_of_isLower (hlower _ (List.mem_reverse.1 (List.getElem_mem _)))]
    exact Bool.false_ne_true
  rw [closingName, hlast, List.reverse_reverse]
  show String.ofList (if name.toList.isEmpty then name.toList else name.toList) = name
  rw [ite_self, String.ofList_toList]

end Tags

end Markup

end MeshLayout
