/-
MeshLayout/Proofs/Directories.lean

What a path reads in a directory that files have been written to.

A file is kept at its place until another is written there (`lookup_writeAll`).
A path that does not go up leads to the place it names if a file stands there,
because every place on the way is a folder then (`follow_of_mem`), and it leads
nowhere else (`eq_of_follow`).  So such a path reads what was written by any
path to the same place.

Main result: `contents?_writeAll_iff`.
-/
import MeshLayout.Directory

namespace MeshLayout

namespace Directory

variable {directory : Directory} {path : String} {place before names : List String}
  {contents : ByteArray} {writes : List (String × ByteArray)}

/-! ### Writing files -/

theorem lookup_filter_key {α β : Type} [BEq α] [LawfulBEq α] (keep : α → Bool)
    (entries : List (α × β)) (key : α) :
    (entries.filter fun entry => keep entry.1).lookup key =
      if keep key then entries.lookup key else none := by
  induction entries with
  | nil => simp
  | cons entry entries ih =>
    rcases entry with ⟨other, value⟩
    rw [List.filter_cons]
    by_cases hkey : key = other
    · subst hkey
      by_cases hkeep : keep key
      · simp [hkeep]
      · simp [hkeep, ih]
    · have hother : (key == other) = false := beq_false_of_ne hkey
      split <;> simp [List.lookup_cons, hother, ih]

/-- What one file changes. -/
theorem lookup_write (directory : Directory) (path : String) (contents : ByteArray)
    (place : List String) : (directory.write path contents).files.lookup place =
      if place = placeOf path then some contents else directory.files.lookup place := by
  have hkept := lookup_filter_key (fun other => other ≠ placeOf path) directory.files place
  rw [write, List.lookup_append, hkept]
  by_cases h : place = placeOf path
  · simp [h]
  · have hother : (place == placeOf path) = false := beq_false_of_ne h
    simp [h, hother, List.lookup_cons]

/-- The directory after files have been written, one after the other. -/
def writeAll (directory : Directory) (writes : List (String × ByteArray)) : Directory :=
  writes.foldl (fun written file => written.write file.1 file.2) directory

/-- The contents were written at the place, and nothing else was written there afterwards. -/
def WrittenLast (writes : List (String × ByteArray)) (place : List String)
    (contents : ByteArray) : Prop :=
  ∃ earlier path later, writes = earlier ++ (path, contents) :: later ∧ placeOf path = place ∧
    ∀ file ∈ later, placeOf file.1 ≠ place

theorem writtenLast_cons {file : String × ByteArray} :
    WrittenLast (file :: writes) place contents ↔ WrittenLast writes place contents ∨
      (placeOf file.1 = place ∧ file.2 = contents) ∧ ∀ other ∈ writes, placeOf other.1 ≠ place := by
  constructor
  · rintro ⟨earlier, path, later, hwrites, hplace, hlater⟩
    rcases List.cons_eq_append_iff.1 hwrites with ⟨-, hfirst⟩ | ⟨earlier, -, rfl⟩
    · cases hfirst
      exact .inr ⟨⟨hplace, rfl⟩, hlater⟩
    · exact .inl ⟨earlier, path, later, rfl, hplace, hlater⟩
  · rintro (⟨earlier, path, later, rfl, hplace, hlater⟩ | ⟨⟨hplace, rfl⟩, hlater⟩)
    · exact ⟨file :: earlier, path, later, rfl, hplace, hlater⟩
    · exact ⟨[], file.1, writes, rfl, hplace, hlater⟩

/-- **A file stays until it is replaced.** -/
theorem lookup_writeAll : (directory.writeAll writes).files.lookup place = some contents ↔
    WrittenLast writes place contents ∨
      directory.files.lookup place = some contents ∧ ∀ file ∈ writes, placeOf file.1 ≠ place := by
  induction writes generalizing directory with
  | nil => simp [writeAll, WrittenLast]
  | cons file writes ih =>
    have hstep : directory.writeAll (file :: writes) =
        (directory.write file.1 file.2).writeAll writes := rfl
    rw [hstep, ih, lookup_write, writtenLast_cons, List.forall_mem_cons]
    by_cases hplace : place = placeOf file.1
    · simp [hplace]
    · simp [hplace, Ne.symm hplace]

/-! ### Following a path -/

section

variable {part : String}

theorem named_cons_of_stays (h : stays part = true) : named (part :: names) = named names :=
  List.filter_cons_of_neg (by simpa using h)

/-- A name is what is followed next. -/
theorem append_named_cons (h : stays part = false) (before : List String) :
    before ++ named (part :: names) = before ++ [part] ++ named names := by
  rw [named, List.filter_cons_of_pos (by simpa using h), List.append_cons]
  rfl

/-- Parts that end in a name hold one. -/
theorem named_ne_nil (hend : ∀ last ∈ names.getLast?, stays last = false) (h : names ≠ []) :
    named names ≠ [] := by
  obtain ⟨last, hlast⟩ := Option.isSome_iff_exists.1 (List.getLast?_isSome.2 h)
  apply List.ne_nil_of_mem
  exact List.mem_filter.2 ⟨List.mem_of_getLast? hlast, by rw [hend last hlast]; rfl⟩

/-- Where a file stands, every place on the way is a folder. -/
theorem hasFolder_of_mem (h : (before ++ names, contents) ∈ directory.files) (hnames : names ≠ []) :
    directory.hasFolder before = true := by
  have hlength : before.length < (before ++ names).length := by
    rw [List.length_append]
    exact Nat.lt_add_of_pos_right (List.length_pos_iff.2 hnames)
  rw [hasFolder, Bool.or_eq_true, List.any_eq_true]
  refine .inr ⟨_, h, ?_⟩
  simp only [Bool.and_eq_true, decide_eq_true_eq, List.isPrefixOf_iff_prefix]
  exact ⟨List.prefix_append _ _, hlength⟩

/-- A path that does not go up leads to the place it names, if a file stands there. -/
theorem follow_of_mem (h : (before ++ named names, contents) ∈ directory.files)
    (hup : ".." ∉ names) (hend : ∀ last ∈ names.getLast?, stays last = false) :
    directory.follow before names = some (before ++ named names) := by
  induction names generalizing before with
  | nil => rw [follow, named, List.filter_nil, List.append_nil]
  | cons part rest ih =>
    have hfolder := hasFolder_of_mem h (named_ne_nil hend (List.cons_ne_nil part rest))
    rw [follow, if_neg fun hnone => hnone hfolder]
    rw [List.mem_cons, not_or] at hup
    obtain ⟨hpart, hrest⟩ := hup
    have hend' : ∀ last ∈ rest.getLast?, stays last = false := by
      intro last hlast
      apply hend
      rw [List.getLast?_cons, hlast]
      rfl
    cases hstays : stays part with
    | false =>
      rw [append_named_cons hstays] at h ⊢
      rw [if_neg Bool.false_ne_true, if_neg (Ne.symm hpart), ih h hrest hend']
    | true =>
      rw [named_cons_of_stays hstays] at h ⊢
      rw [if_pos rfl, ih h hrest hend']

/-- A path that does not go up leads nowhere else. -/
theorem eq_of_follow (hup : ".." ∉ names) (h : directory.follow before names = some place) :
    place = before ++ named names := by
  induction names generalizing before with
  | nil =>
    cases h
    rw [named, List.filter_nil, List.append_nil]
  | cons part rest ih =>
    rw [List.mem_cons, not_or] at hup
    obtain ⟨hpart, hrest⟩ := hup
    rw [follow] at h
    split at h
    · cases h
    · cases hstays : stays part with
      | false =>
        rw [hstays, if_neg Bool.false_ne_true, if_neg (Ne.symm hpart)] at h
        rw [append_named_cons hstays, ih hrest h]
      | true =>
        rw [hstays, if_pos rfl] at h
        rw [named_cons_of_stays hstays, ih hrest h]

end

/-! ### Reading files -/

/-- The path goes down only, from where it starts to a name. -/
structure Plain (path : String) : Prop where
  relative : (parts path).head? ≠ some ""
  noUp : ".." ∉ parts path
  endsInName : ∀ last ∈ (parts path).getLast?, stays last = false

theorem Plain.target?_eq (h : Plain path) :
    directory.target? path = directory.follow [] (parts path) := by
  unfold target?
  split
  · next hparts => exact absurd (by rw [hparts]; rfl) h.relative
  · rfl

theorem mem_of_lookup (h : directory.files.lookup place = some contents) :
    (place, contents) ∈ directory.files := by
  obtain ⟨front, back, hfiles, -⟩ := List.lookup_eq_some_iff.1 h
  rw [hfiles]
  exact List.mem_append_right _ List.mem_cons_self

/-- A plain path names the file that stands at its place. -/
theorem Plain.contents?_eq (h : Plain path) :
    directory.contents? path = directory.files.lookup (placeOf path) := by
  rw [contents?, h.target?_eq]
  rcases hlookup : directory.files.lookup (placeOf path) with - | contents
  · rcases htarget : directory.follow [] (parts path) with - | place
    · rfl
    · -- it may lead to a folder
      obtain rfl := eq_of_follow h.noUp htarget
      exact hlookup
  · rw [follow_of_mem (mem_of_lookup hlookup) h.noUp h.endsInName]
    exact hlookup

/-- **A path reads what was last written** at the place it leads to.  A path that goes down only, to
a name, reads what was last written at the place it names, by whatever path that was done. -/
theorem contents?_writeAll_iff (writes : List (String × ByteArray)) (path : String)
    (contents : ByteArray) :
    ((empty.writeAll writes).contents? path = some contents ↔
      ∃ place, (empty.writeAll writes).target? path = some place ∧
        WrittenLast writes place contents) ∧
    (Plain path → ((empty.writeAll writes).contents? path = some contents ↔
      WrittenLast writes (placeOf path) contents)) := by
  have hlookup : ∀ place, (empty.writeAll writes).files.lookup place = some contents ↔
      WrittenLast writes place contents := by
    intro place
    simp [lookup_writeAll, empty]
  constructor
  · simp only [contents?, Option.bind_eq_some_iff, hlookup]
  · intro h
    rw [h.contents?_eq, hlookup]

/-- Empty parts and dots change nothing, but a file is no folder. -/
example (data : ByteArray) :
    (empty.write "a" data).contents? ".//a" = some data ∧
    (empty.write "a" data).contents? "a/" = none ∧
    (empty.write "a" data).contents? "/a" = none ∧
    (empty.write "a" data).contents? "b/../a" = none := ⟨rfl, rfl, rfl, rfl⟩

/-- Of two files at one place the later one stays. -/
example (first second : ByteArray) :
    ((empty.write "a" first).write "./a" second).contents? "a" = some second := rfl

end Directory

end MeshLayout
