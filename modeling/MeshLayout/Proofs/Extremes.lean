/-
MeshLayout/Proofs/Extremes.lean

What the bounds of an attribute are, one component at a time.

The values are a table with a row for each whole vertex and a column for each
component (`column`).  The bounds are folded over the rows; a component of
them is a fold over its column (`getElem?_foldl_zipWith`, `pieces_column`).
Lower and upper bounds differ in the order only, so columns are folded by an
order that is left open (`keep`, `Ranking`).

Along a column a pattern that is no number replaces the bound, and whatever
follows replaces it in turn.  So only the numbers behind the last such
pattern count (`lastRun`), and of these the first of the best is kept
(`Foremost`).  One value more keeps this up (`Kept.snoc`), so a fold does
(`Kept.foldl`).

Main results: `ofValues_exact` says what the bounds are, and `covers_iff` when
they hold for every number of their column.  They need not: the numbers
before the last pattern that is no number are lost (`not_covers_column`).
-/
import Mathlib.Data.List.DropRight
import MeshLayout.Report.Bounds

namespace MeshLayout

/-! ### Orders of numbers -/

namespace Binary32

theorem le_iff {x y : Binary32} :
    le x y = true ↔ x.isNaN = false ∧ y.isNaN = false ∧ x.place ≤ y.place := by
  simp [le, and_assoc]

/-- The order of numbers from the other end. -/
def ge (x y : Binary32) : Bool := le y x

theorem isNaN_of_magnitude_eq_zero {x : Binary32} (h : x.magnitude = 0) : x.isNaN = false := by
  rw [isNaN, h]
  rfl

/-- Zeros of either sign are at place 0. -/
theorem place_of_magnitude_eq_zero {x : Binary32} (h : x.magnitude = 0) : x.place = 0 := by
  rw [place, h]
  split <;> rfl

end Binary32

namespace Bounds

/-- The first value, if it is as good as the second. -/
def keep (r : Binary32 → Binary32 → Bool) (bound value : Binary32) : Binary32 :=
  if r bound value then bound else value

/-- An order of all numbers.  Patterns that are no numbers have no place in it. -/
structure Ranking (r : Binary32 → Binary32 → Bool) : Prop where
  numbers : ∀ {x y}, r x y = true → x.isNaN = false ∧ y.isNaN = false
  total : ∀ {x y}, x.isNaN = false → y.isNaN = false → r x y = true ∨ r y x = true
  trans : ∀ {x y z}, r x y = true → r y z = true → r x z = true
  zeros : ∀ {x y}, x.magnitude = 0 → y.magnitude = 0 → r x y = true

theorem ranking_le : Ranking Binary32.le where
  numbers h := ⟨(Binary32.le_iff.1 h).1, (Binary32.le_iff.1 h).2.1⟩
  total hx hy := by
    rw [Binary32.le_iff, Binary32.le_iff]
    rcases Int.le_total (Binary32.place _) (Binary32.place _) with h | h
    · exact .inl ⟨hx, hy, h⟩
    · exact .inr ⟨hy, hx, h⟩
  trans hxy hyz := by
    rw [Binary32.le_iff] at *
    exact ⟨hxy.1, hyz.2.1, Int.le_trans hxy.2.2 hyz.2.2⟩
  zeros hx hy := by
    have hplace := (Binary32.place_of_magnitude_eq_zero hx).trans
      (Binary32.place_of_magnitude_eq_zero hy).symm
    exact Binary32.le_iff.2 ⟨Binary32.isNaN_of_magnitude_eq_zero hx,
      Binary32.isNaN_of_magnitude_eq_zero hy, Int.le_of_eq hplace⟩

theorem ranking_ge : Ranking Binary32.ge where
  numbers h := (ranking_le.numbers h).symm
  total hx hy := ranking_le.total hy hx
  trans hxy hyz := ranking_le.trans hyz hxy
  zeros hx hy := ranking_le.zeros hy hx

variable {r : Binary32 → Binary32 → Bool} {xs seen : List Binary32} {best bound value : Binary32}

theorem Ranking.refl (hr : Ranking r) (h : value.isNaN = false) : r value value = true :=
  (hr.total h h).elim id id

/-! ### The first of the best -/

/-- The first of the best: nothing before it is as good, and nothing behind it is better. -/
def Foremost (r : Binary32 → Binary32 → Bool) (xs : List Binary32) (best : Binary32) : Prop :=
  ∃ before after, xs = before ++ best :: after ∧ (∀ x ∈ before, r x best = false) ∧
    ∀ x ∈ after, r best x = true

namespace Foremost

theorem mem (h : Foremost r xs best) : best ∈ xs := by
  obtain ⟨before, after, rfl, -, -⟩ := h
  simp

theorem best_of_mem (hr : Ranking r) (h : Foremost r xs best) (hxs : ∀ x ∈ xs, x.isNaN = false) :
    ∀ x ∈ xs, r best x = true := by
  have hbest := hxs best h.mem
  obtain ⟨before, after, rfl, hbefore, hafter⟩ := h
  intro x hx
  rcases List.mem_append.1 hx with hmem | hmem
  · rcases hr.total hbest (hxs x hx) with hle | hle
    · exact hle
    · exact absurd hle (by simp [hbefore x hmem])
  · rcases List.mem_cons.1 hmem with rfl | hmem
    · exact hr.refl hbest
    · exact hafter x hmem

theorem singleton (r : Binary32 → Binary32 → Bool) (value : Binary32) :
    Foremost r [value] value := ⟨[], [], rfl, by simp, by simp⟩

/-- A value behind the others that is no better changes nothing; one that is better is first. -/
theorem snoc (hr : Ranking r) (h : Foremost r xs best) (hxs : ∀ x ∈ xs, x.isNaN = false)
    (value : Binary32) : Foremost r (xs ++ [value]) (keep r best value) := by
  unfold keep
  by_cases hkeep : r best value = true
  · rw [if_pos hkeep]
    obtain ⟨before, after, rfl, hbefore, hafter⟩ := h
    refine ⟨before, after ++ [value], by simp, hbefore, fun x hx => ?_⟩
    rcases List.mem_append.1 hx with hx | hx
    · exact hafter x hx
    · rwa [List.mem_singleton.1 hx]
  · rw [if_neg hkeep]
    refine ⟨xs, [], rfl, fun x hx => ?_, by simp⟩
    -- the best would be as good as the value if any number were
    have hbest := h.best_of_mem hr hxs x hx
    exact Bool.eq_false_iff.2 fun hle => hkeep (hr.trans hbest hle)

/-- Of zeros, whatever their signs, the first is kept. -/
theorem find?_zero (hr : Ranking r) (h : Foremost r xs best) (hbest : best.magnitude = 0) :
    xs.find? (fun x => x.magnitude = 0) = some best := by
  obtain ⟨before, after, rfl, hbefore, -⟩ := h
  have hnone : before.find? (fun x => x.magnitude = 0) = none := by
    rw [List.find?_eq_none]
    intro x hx hzero
    have hle := hr.zeros (of_decide_eq_true hzero) hbest
    exact absurd hle (by simp [hbefore x hx])
  rw [List.find?_append, hnone, List.find?_cons_of_pos (by simp [hbest])]
  rfl

end Foremost

/-! ### What is kept of a column -/

/-- The numbers behind the last pattern that is no number: all of them, if there is none. -/
def lastRun (xs : List Binary32) : List Binary32 := xs.rtakeWhile fun x => !x.isNaN

/-- What stands before these. -/
def beforeLastRun (xs : List Binary32) : List Binary32 := xs.rdropWhile fun x => !x.isNaN

theorem beforeLastRun_append_lastRun (xs : List Binary32) :
    beforeLastRun xs ++ lastRun xs = xs := List.rdropWhile_append_rtakeWhile

theorem isNaN_of_mem_lastRun {x : Binary32} (h : x ∈ lastRun xs) : x.isNaN = false := by
  simpa using List.mem_rtakeWhile_imp h

theorem lastRun_eq_self (h : ∀ x ∈ xs, x.isNaN = false) : lastRun xs = xs :=
  List.rtakeWhile_eq_self_iff.2 fun x hx => by simp [h x hx]

theorem lastRun_snoc_nan (h : value.isNaN = true) : lastRun (seen ++ [value]) = [] :=
  List.rtakeWhile_concat_neg _ _ _ (by simp [h])

theorem lastRun_snoc (h : value.isNaN = false) :
    lastRun (seen ++ [value]) = lastRun seen ++ [value] :=
  List.rtakeWhile_concat_pos _ _ _ (by simp [h])

/-- What is kept of a column: its last value, if that is no number, and otherwise the first of the
best numbers in the last run. -/
def Kept (r : Binary32 → Binary32 → Bool) (column : List Binary32) (bound : Binary32) : Prop :=
  ∃ last, column.getLast? = some last ∧ (last.isNaN = true → bound = last) ∧
    (last.isNaN = false → Foremost r (lastRun column) bound)

namespace Kept

theorem of_nan (h : value.isNaN = true) : Kept r (seen ++ [value]) value :=
  ⟨value, List.getLast?_concat, fun _ => rfl, fun hnumber => absurd hnumber (by simp [h])⟩

theorem of_number (h : value.isNaN = false) (hbound : Foremost r (lastRun seen ++ [value]) bound) :
    Kept r (seen ++ [value]) bound :=
  ⟨value, List.getLast?_concat, fun hnan => absurd hnan (by simp [h]), fun _ => by
    rwa [lastRun_snoc h]⟩

theorem singleton (r : Binary32 → Binary32 → Bool) (value : Binary32) : Kept r [value] value := by
  show Kept r ([] ++ [value]) value
  rcases h : value.isNaN
  · exact of_number h (Foremost.singleton r value)
  · exact of_nan h

/-- One value more. -/
theorem snoc (hr : Ranking r) (h : Kept r seen bound) (value : Binary32) :
    Kept r (seen ++ [value]) (keep r bound value) := by
  have hreplace : ∀ {x y : Binary32}, ¬ (x.isNaN = false ∧ y.isNaN = false) → keep r x y = y :=
    fun hnot => if_neg fun hle => hnot (hr.numbers hle)
  rcases hvalue : value.isNaN
  · obtain ⟨last, hlast, hnan, hnumber⟩ := h
    refine of_number hvalue ?_
    rcases hkind : last.isNaN
    · exact (hnumber hkind).snoc hr (fun x => isNaN_of_mem_lastRun) value
    · -- the run of numbers begins here
      obtain rfl := hnan hkind
      obtain ⟨front, rfl⟩ := List.getLast?_eq_some_iff.1 hlast
      rw [hreplace (by simp [hkind]), lastRun_snoc_nan hkind]
      exact Foremost.singleton r value
  · rw [hreplace (by simp [hvalue])]
    exact of_nan hvalue

theorem foldl (hr : Ranking r) (h : Kept r seen bound) (xs : List Binary32) :
    Kept r (seen ++ xs) (xs.foldl (keep r) bound) := by
  induction xs generalizing seen bound with
  | nil => rwa [List.append_nil]
  | cons value xs ih =>
    have hwhole := ih (h.snoc hr value)
    rwa [List.append_assoc] at hwhole

/-- A number is kept if there is one in the last run, and then it is the first of the best. -/
theorem foremost_iff (h : Kept r xs bound) :
    bound.isNaN = false ↔ Foremost r (lastRun xs) bound := by
  obtain ⟨last, -, hnan, hnumber⟩ := h
  refine ⟨fun hbound => ?_, fun hbest => isNaN_of_mem_lastRun hbest.mem⟩
  rcases hkind : last.isNaN
  · exact hnumber hkind
  · rw [hnan hkind, hkind] at hbound
    cases hbound

theorem isNaN_eq_false_iff (h : Kept r xs bound) : bound.isNaN = false ↔ lastRun xs ≠ [] := by
  refine ⟨fun hbound => List.ne_nil_of_mem (h.foremost_iff.1 hbound).mem, fun hne => ?_⟩
  obtain ⟨last, hlast, -, hnumber⟩ := h
  rcases hkind : last.isNaN
  · exact isNaN_of_mem_lastRun (hnumber hkind).mem
  · obtain ⟨front, rfl⟩ := List.getLast?_eq_some_iff.1 hlast
    exact absurd (lastRun_snoc_nan hkind) hne

/-- What is kept is no worse than any number of the last run. -/
theorem best_of_mem (hr : Ranking r) (h : Kept r xs bound) :
    ∀ x ∈ lastRun xs, r bound x = true := by
  intro x hx
  have hbound := h.isNaN_eq_false_iff.2 (List.ne_nil_of_mem hx)
  exact (h.foremost_iff.1 hbound).best_of_mem hr (fun y => isNaN_of_mem_lastRun) x hx

theorem find?_zero (hr : Ranking r) (h : Kept r xs bound) (hzero : bound.magnitude = 0) :
    (lastRun xs).find? (fun x => x.magnitude = 0) = some bound :=
  (h.foremost_iff.1 (Binary32.isNaN_of_magnitude_eq_zero hzero)).find?_zero hr hzero

/-- What is kept is as good as all numbers of the column, if each number that was lost has one as
good in the last run. -/
theorem holds_iff (hr : Ranking r) (h : Kept r xs bound) (hbound : bound.isNaN = false) :
    (∀ v ∈ xs, v.isNaN = false → r bound v = true) ↔
      ∀ v ∈ beforeLastRun xs, v.isNaN = false → ∃ w ∈ lastRun xs, r w v = true := by
  constructor
  · intro hall v hv hnumber
    refine ⟨bound, (h.foremost_iff.1 hbound).mem, hall v ?_ hnumber⟩
    exact (List.rdropWhile_prefix _ _).mem hv
  · intro hlost v hv hnumber
    rw [← beforeLastRun_append_lastRun xs] at hv
    rcases List.mem_append.1 hv with hv | hv
    · obtain ⟨w, hw, hle⟩ := hlost v hv hnumber
      exact hr.trans (h.best_of_mem hr w hw) hle
    · exact h.best_of_mem hr v hv

end Kept

/-! ### Rows and columns -/

/-- The values of a component, vertex by vertex.  Those behind the last whole vertex are left
out. -/
def column (components i : Nat) (values : List Binary32) : List Binary32 :=
  (List.range (values.length / components)).filterMap fun vertex =>
    values[vertex * components + i]?

/-- A column has a value for each whole vertex. -/
theorem length_column {components i : Nat} (hi : i < components) (values : List Binary32) :
    (column components i values).length = values.length / components := by
  have hsome : ∀ vertex ∈ List.range (values.length / components),
      (values[vertex * components + i]?).isSome = true := by
    intro vertex hvertex
    -- the vertex ends within the values
    have hend : (vertex + 1) * components ≤ values.length :=
      (Nat.le_div_iff_mul_le (by omega)).1 (List.mem_range.1 hvertex)
    rw [Nat.succ_mul] at hend
    rw [List.getElem?_eq_getElem (by omega)]
    rfl
  rw [column, List.length_filterMap_eq_countP, List.countP_eq_length.2 hsome, List.length_range]

section

variable {α : Type} {f : α → α → α} {size : Nat} {values first : List α} {rows : List (List α)}

/-- A column runs down the rows. -/
theorem pieces_column {i : Nat} (hi : i < size) (count : Nat) (values : List α) :
    (pieces size count values).filterMap (·[i]?) =
      (List.range count).filterMap fun row => values[row * size + i]? := by
  induction count generalizing values with
  | zero => rfl
  | succ count ih =>
    have hfirst : (values.take size)[i]? = values[0 * size + i]? := by
      rw [List.getElem?_take_of_lt hi, Nat.zero_mul, Nat.zero_add]
    have hothers : ∀ row, (values.drop size)[row * size + i]? = values[(row + 1) * size + i]? := by
      intro row
      rw [List.getElem?_drop, Nat.succ_mul, Nat.add_comm (row * size) size, Nat.add_assoc]
    rw [pieces, List.range_succ_eq_map, List.filterMap_cons, List.filterMap_cons, ih,
      List.filterMap_map, hfirst]
    simp only [hothers, Function.comp_def, Nat.succ_eq_add_one]

theorem length_foldl_zipWith (hrows : ∀ row ∈ rows, row.length = size)
    (hfirst : first.length = size) : (rows.foldl (List.zipWith f) first).length = size := by
  induction rows generalizing first with
  | nil => exact hfirst
  | cons row rows ih =>
    obtain ⟨hrow, hrows⟩ := List.forall_mem_cons.1 hrows
    exact ih hrows (by rw [List.length_zipWith, hfirst, hrow, Nat.min_self])

/-- A component of a fold over rows is the fold over its column. -/
theorem getElem?_foldl_zipWith {i : Nat} {x : α} (hrows : ∀ row ∈ rows, row.length = size)
    (hi : i < size) (hx : first[i]? = some x) :
    (rows.foldl (List.zipWith f) first)[i]? = some ((rows.filterMap (·[i]?)).foldl f x) := by
  induction rows generalizing first x with
  | nil => exact hx
  | cons row rows ih =>
    obtain ⟨hrow, hrows⟩ := List.forall_mem_cons.1 hrows
    have hy : row[i]? = some row[i] := List.getElem?_eq_getElem (hrow ▸ hi)
    have hstep : (first.zipWith f row)[i]? = some (f x row[i]) := by
      rw [List.getElem?_zipWith, hx, hy]
    simp only [List.foldl_cons, List.filterMap_cons, hy]
    exact ih hrows hstep

end

theorem foldl_extend (rows : List (List Binary32)) (b : Bounds) :
    rows.foldl extend b = ⟨rows.foldl (List.zipWith lowerWith) b.lower,
      rows.foldl (List.zipWith upperWith) b.upper⟩ := by
  induction rows generalizing b with
  | nil => rfl
  | cons row rows ih => exact ih (b.extend row)

/-! ### The bounds -/

variable {values : List Binary32} {components : Nat}

theorem ofValues_eq_none_iff :
    ofValues values components = none ↔ components = 0 ∨ values.length < components := by
  unfold ofValues
  by_cases hzero : components = 0
  · simp [hzero]
  · have hcount := length_pieces components (values.length / components) values
    have hnone : values.length / components = 0 ↔ values.length < components := by
      rw [Nat.div_eq_zero_iff, or_iff_right hzero]
    rw [if_neg hzero, or_iff_right hzero, ← hnone, ← hcount, List.length_eq_zero_iff, hcount]
    rcases pieces components (values.length / components) values <;> simp

/-- **Each bound is what is kept of its column.** -/
theorem kept_of_ofValues {b : Bounds} (h : ofValues values components = some b) :
    b.lower.length = components ∧ b.upper.length = components ∧
      ∀ i < components, ∃ lower upper, b.lower[i]? = some lower ∧ b.upper[i]? = some upper ∧
        Kept Binary32.le (column components i values) lower ∧
        Kept Binary32.ge (column components i values) upper := by
  unfold ofValues at h
  split at h
  · cases h
  rcases hpieces : pieces components (values.length / components) values with - | ⟨first, rows⟩
  · rw [hpieces] at h
    cases h
  rw [hpieces, Option.some.injEq, foldl_extend] at h
  subst h
  have hlength : ∀ row ∈ first :: rows, row.length = components := fun row hrow =>
    length_of_mem_pieces (Nat.div_mul_le_self _ _) (hpieces ▸ hrow)
  obtain ⟨hfirst, hrows⟩ := List.forall_mem_cons.1 hlength
  refine ⟨length_foldl_zipWith hrows hfirst, length_foldl_zipWith hrows hfirst, fun i hi => ?_⟩
  have hx : first[i]? = some first[i] := List.getElem?_eq_getElem (hfirst ▸ hi)
  have hcolumn : column components i values = [first[i]] ++ rows.filterMap (·[i]?) := by
    rw [column, ← pieces_column hi, hpieces]
    simp only [List.filterMap_cons, hx, List.singleton_append]
  rw [hcolumn]
  exact ⟨_, _, getElem?_foldl_zipWith hrows hi hx, getElem?_foldl_zipWith hrows hi hx,
    (Kept.singleton _ _).foldl ranking_le _, (Kept.singleton _ _).foldl ranking_ge _⟩

/-- Values behind the last whole vertex have no influence. -/
theorem ofValues_append {whole rest : List Binary32} (hwhole : components ∣ whole.length)
    (hrest : rest.length < components) :
    ofValues (whole ++ rest) components = ofValues whole components := by
  have hcount : (whole ++ rest).length / components = whole.length / components := by
    obtain ⟨vertices, hvertices⟩ := hwhole
    rw [List.length_append, hvertices, Nat.mul_add_div (by omega), Nat.div_eq_of_lt hrest,
      Nat.mul_div_cancel_left _ (by omega), Nat.add_zero]
  rw [ofValues, ofValues, hcount, pieces_append (Nat.div_mul_le_self _ _)]

/-- **What the bounds are.**  There are none if there is no component or no whole vertex, and a
broken vertex at the end never counts.  Each bound is that of its column: its last value, if that is
no number, and otherwise the first of the least or greatest numbers behind the last pattern that is
none.  Of zeros among these, whatever their signs, the first is the bound. -/
theorem ofValues_exact (values : List Binary32) (components : Nat) :
    (ofValues values components = none ↔ components = 0 ∨ values.length < components) ∧
    (∀ whole rest others, values = whole ++ rest → components ∣ whole.length →
      rest.length < components → others.length < components →
        ofValues (whole ++ others) components = ofValues values components) ∧
    ∀ b, ofValues values components = some b →
      b.lower.length = components ∧ b.upper.length = components ∧
      ∀ i < components, ∃ lower upper, b.lower[i]? = some lower ∧ b.upper[i]? = some upper ∧
        (column components i values).length = values.length / components ∧
        Kept Binary32.le (column components i values) lower ∧
        Kept Binary32.ge (column components i values) upper ∧
        ∀ bound ∈ [lower, upper], bound.magnitude = 0 →
          (lastRun (column components i values)).find? (fun x => x.magnitude = 0) = some bound := by
  refine ⟨ofValues_eq_none_iff, ?_, fun b hb => ?_⟩
  · rintro whole rest others rfl hwhole hrest hothers
    rw [ofValues_append hwhole hothers, ofValues_append hwhole hrest]
  · obtain ⟨hlower, hupper, hkept⟩ := kept_of_ofValues hb
    refine ⟨hlower, hupper, fun i hi => ?_⟩
    obtain ⟨lower, upper, hl, hu, hleast, hgreatest⟩ := hkept i hi
    refine ⟨lower, upper, hl, hu, length_column hi values, hleast, hgreatest, ?_⟩
    simp only [List.forall_mem_cons, List.not_mem_nil, false_imp_iff, implies_true, and_true]
    exact ⟨hleast.find?_zero ranking_le, hgreatest.find?_zero ranking_ge⟩

/-- Three vertices and a half.  In the first column the zeros stand behind a pattern that is no
number, in the second such a pattern is last. -/
def brokenRows : List Binary32 :=
  [0xc0400000#32, 0x00000000#32, 0x7fc00000#32, 0x3f800000#32, 0x80000000#32, 0x40000000#32,
    0x00000000#32, 0xffc00001#32, 0xc0a00000#32]

/-- The least number is before the pattern, and the number behind the last vertex is less still. -/
theorem ofValues_brokenRows :
    ofValues brokenRows 2 =
        some ⟨[0x80000000#32, 0xffc00001#32], [0x80000000#32, 0xffc00001#32]⟩ ∧
      ofValues (brokenRows.take 8 ++ []) 2 = ofValues brokenRows 2 ∧
      lastRun (column 2 0 brokenRows) = [0x80000000#32, 0x00000000#32] ∧
      Kept Binary32.le (column 2 0 brokenRows) 0x80000000#32 ∧
      Kept Binary32.ge (column 2 1 brokenRows) 0xffc00001#32 := by
  have hbounds : ofValues brokenRows 2 =
      some ⟨[0x80000000#32, 0xffc00001#32], [0x80000000#32, 0xffc00001#32]⟩ := by decide +kernel
  obtain ⟨-, hbroken, hexact⟩ := ofValues_exact brokenRows 2
  obtain ⟨-, -, hcolumns⟩ := hexact _ hbounds
  obtain ⟨lower, -, hl, -, -, hleast, -⟩ := hcolumns 0 (by decide)
  obtain ⟨-, upper, -, hu, -, -, hgreatest, -⟩ := hcolumns 1 (by decide)
  cases hl
  cases hu
  exact ⟨hbounds, hbroken _ [0xc0a00000#32] [] rfl (by decide) (by decide) (by decide),
    by decide +kernel, hleast, hgreatest⟩

/-! ### Where the bounds hold -/

/-- Bounds that are numbers hold for every number of the column. -/
def Covers (lower upper : Binary32) (column : List Binary32) : Prop :=
  ∀ v ∈ column, v.isNaN = false →
    (lower.isNaN = false → Binary32.le lower v = true) ∧
    (upper.isNaN = false → Binary32.le v upper = true)

/-- **Where the bounds hold.**  They hold for the numbers behind the last pattern that is none, so
for the whole column if all of it are numbers.  For what stands before that pattern they hold only
by chance: if nothing stands behind it, or numbers that are as little and as great. -/
theorem covers_iff (values : List Binary32) {components i : Nat} (hi : i < components)
    (hwhole : components ≤ values.length) :
    ∃ b lower upper, ofValues values components = some b ∧ b.lower[i]? = some lower ∧
      b.upper[i]? = some upper ∧
      (∀ v ∈ lastRun (column components i values),
        Binary32.le lower v = true ∧ Binary32.le v upper = true) ∧
      ((∀ v ∈ column components i values, v.isNaN = false) →
        ∀ v ∈ column components i values,
          Binary32.le lower v = true ∧ Binary32.le v upper = true) ∧
      (Covers lower upper (column components i values) ↔
        lastRun (column components i values) = [] ∨
          ∀ v ∈ beforeLastRun (column components i values), v.isNaN = false →
            (∃ w ∈ lastRun (column components i values), Binary32.le w v = true) ∧
            ∃ w ∈ lastRun (column components i values), Binary32.le v w = true) := by
  have hsome : ofValues values components ≠ none := by
    rw [Ne, ofValues_eq_none_iff]
    omega
  obtain ⟨b, hb⟩ := Option.ne_none_iff_exists'.1 hsome
  obtain ⟨-, -, hkept⟩ := kept_of_ofValues hb
  obtain ⟨lower, upper, hl, hu, hleast, hgreatest⟩ := hkept i hi
  have hbounded : ∀ v ∈ lastRun (column components i values),
      Binary32.le lower v = true ∧ Binary32.le v upper = true := fun v hv =>
    ⟨hleast.best_of_mem ranking_le v hv, hgreatest.best_of_mem ranking_ge v hv⟩
  refine ⟨b, lower, upper, hb, hl, hu, hbounded, fun hall v hv => ?_, ?_⟩
  · refine hbounded v ?_
    rwa [lastRun_eq_self hall]
  by_cases hrun : lastRun (column components i values) = []
  · -- neither bound is a number
    refine iff_of_true (fun v _ _ => ⟨fun h => ?_, fun h => ?_⟩) (.inl hrun)
    · exact absurd hrun (hleast.isNaN_eq_false_iff.1 h)
    · exact absurd hrun (hgreatest.isNaN_eq_false_iff.1 h)
  · have hlower := hleast.isNaN_eq_false_iff.2 hrun
    have hupper := hgreatest.isNaN_eq_false_iff.2 hrun
    have hholds := and_congr (hleast.holds_iff ranking_le hlower)
      (hgreatest.holds_iff ranking_ge hupper)
    rw [or_iff_right hrun]
    simp only [Covers, hlower, hupper, true_imp_iff, imp_and, forall_and]
    exact hholds

/-- Vertices with a pattern that is no number in either column.  Of the numbers lost by it, the one
in the first column lies between those behind it, the one in the second does not. -/
def lossyRows : List Binary32 :=
  [0x40a00000#32, 0x3f800000#32, 0x7fc00000#32, 0x7fc00000#32, 0x40e00000#32, 0x40a00000#32,
    0x40800000#32, 0x40c00000#32]

theorem covers_lossyRows :
    2 ≤ lossyRows.length ∧
      ofValues lossyRows 2 = some ⟨[0x40800000#32, 0x40a00000#32], [0x40e00000#32, 0x40c00000#32]⟩ ∧
      Covers 0x40800000#32 0x40e00000#32 (column 2 0 lossyRows) ∧
      ¬ Covers 0x40a00000#32 0x40c00000#32 (column 2 1 lossyRows) := by
  have hwhole : 2 ≤ lossyRows.length := by decide
  have hbounds : ofValues lossyRows 2 =
      some ⟨[0x40800000#32, 0x40a00000#32], [0x40e00000#32, 0x40c00000#32]⟩ := by decide +kernel
  obtain ⟨b, lower, upper, hb, hl, hu, -, -, hfirst⟩ :=
    covers_iff lossyRows (i := 0) (by decide) hwhole
  obtain ⟨b', lower', upper', hb', hl', hu', -, -, hsecond⟩ :=
    covers_iff lossyRows (i := 1) (by decide) hwhole
  cases hbounds.symm.trans hb
  cases hbounds.symm.trans hb'
  cases hl
  cases hu
  cases hl'
  cases hu'
  have hlost : beforeLastRun (column 2 0 lossyRows) = [0x40a00000#32, 0x7fc00000#32] ∧
      beforeLastRun (column 2 1 lossyRows) = [0x3f800000#32, 0x7fc00000#32] := by decide +kernel
  have hrun : lastRun (column 2 0 lossyRows) = [0x40e00000#32, 0x40800000#32] ∧
      lastRun (column 2 1 lossyRows) = [0x40a00000#32, 0x40c00000#32] := by decide +kernel
  rw [hlost.1, hrun.1] at hfirst
  rw [hlost.2, hrun.2] at hsecond
  refine ⟨hwhole, hbounds, hfirst.2 (.inr ?_), fun hcovers => ?_⟩
  · refine List.forall_mem_cons.2 ⟨fun _ => ⟨?_, ?_⟩, List.forall_mem_singleton.2 nofun⟩
    · exact ⟨0x40800000#32, by simp, by decide⟩
    · exact ⟨0x40e00000#32, by simp, by decide⟩
  · obtain ⟨⟨w, hw, hle⟩, -⟩ := (hsecond.1 hcovers).resolve_left (List.cons_ne_nil _ _)
      0x3f800000#32 List.mem_cons_self (by decide)
    -- both numbers that are left are greater
    rcases List.mem_pair.1 hw with rfl | rfl
    · exact absurd hle (by decide)
    · exact absurd hle (by decide)

/-- **The bounds do not hold for every number of a column.** -/
theorem not_covers_column :
    ofValues [0x3f800000#32, 0x7fc00000#32, 0x40a00000#32] 1 =
        some ⟨[0x40a00000#32], [0x40a00000#32]⟩ ∧
      ¬ ∀ (values : List Binary32) (components i : Nat) (b : Bounds) (lower upper : Binary32),
        i < components → components ≤ values.length → ofValues values components = some b →
        b.lower[i]? = some lower → b.upper[i]? = some upper →
        Covers lower upper (column components i values) := by
  have hbounds : ofValues [0x3f800000#32, 0x7fc00000#32, 0x40a00000#32] 1 =
      some ⟨[0x40a00000#32], [0x40a00000#32]⟩ := by decide +kernel
  refine ⟨hbounds, fun hcovers => ?_⟩
  have hall := hcovers _ 1 0 _ _ _ (by decide) (by decide) hbounds rfl rfl
  -- 1 stands in the column, and the lower bound is 5
  have hle := (hall 0x3f800000#32 (by decide +kernel) (by decide +kernel)).1 (by decide +kernel)
  exact absurd hle (by decide +kernel)

end Bounds

end MeshLayout
