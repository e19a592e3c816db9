/-
MeshLayout/Proofs/Content.lean

What a block says.

A block is text: names of types and primitives, and numerals.  Its content
is what these stand for.  `Block.Denotes` leads from the one to the other
and knows nothing of compilers, so that whatever a compiler does with a
block can be said in terms of its content.  Some blocks denote nothing;
none denotes two things (`Denotes.unique`).
-/
import MeshLayout.Event
import MeshLayout.Mesh
import MeshLayout.Proofs.Encoding

namespace MeshLayout

/-! ### Rows and keys -/

/-- If no two rows have the same key, the row with a key is found by it. -/
theorem find?_key_eq_some_iff {α κ : Type} [DecidableEq κ] {key : α → κ} {rows : List α}
    (h : (rows.map key).Nodup) {k : κ} {row : α} :
    rows.find? (fun r => key r = k) = some row ↔ row ∈ rows ∧ key row = k := by
  constructor
  · intro hfind
    exact ⟨List.mem_of_find?_eq_some hfind, by simpa using List.find?_some hfind⟩
  · rintro ⟨hmem, hkey⟩
    induction rows with
    | nil => cases hmem
    | cons first rest ih =>
      rw [List.map_cons, List.nodup_cons] at h
      rcases List.mem_cons.1 hmem with rfl | hmem
      · rw [List.find?_cons_of_pos (by simpa using hkey)]
      · -- the key of a later row is not that of the first
        have hfirst : key first ≠ k := by
          rintro rfl
          exact h.1 (List.mem_map.2 ⟨row, hmem, hkey⟩)
        rw [List.find?_cons_of_neg (by simpa using hfirst)]
        exact ih h.2 hmem

/-- The row with a key is found wherever it stands. -/
theorem find?_key_of_perm {α κ : Type} [DecidableEq κ] {key : α → κ} {rows rows' : List α}
    (h : (rows.map key).Nodup) (hperm : rows.Perm rows') (k : κ) :
    rows.find? (fun r => key r = k) = rows'.find? (fun r => key r = k) := by
  have h' : (rows'.map key).Nodup := (hperm.map key).nodup_iff.1 h
  apply Option.ext
  intro row
  rw [find?_key_eq_some_iff h, find?_key_eq_some_iff h', hperm.mem_iff]

/-! ### Names in the tables -/

section Tables

variable {α : Type} {all : List α} {name : α → String} {a b : α}

/-- If every entry of a table is found under its name, the names are looked up as they should
be. -/
theorem find?_name_eq_some_iff (h : ∀ a, all.find? (fun b => name b = name a) = some a)
    {text : String} : all.find? (fun b => name b = text) = some a ↔ name a = text := by
  constructor
  · intro hfind
    simpa using List.find?_some hfind
  · rintro rfl
    exact h a

theorem eq_of_name_eq (h : ∀ a, all.find? (fun b => name b = name a) = some a)
    (hname : name a = name b) : a = b := by
  have ha := h a
  rw [hname, h b] at ha
  exact (Option.some.inj ha).symm

end Tables

theorem AttributeType.ofName?_name (type : AttributeType) : ofName? type.name = some type := by
  cases type <;> decide

theorem IndexType.ofName?_name (type : IndexType) : ofName? type.name = some type := by
  cases type <;> decide

theorem Primitive.ofName?_name (mode : Primitive) : ofName? mode.name = some mode := by
  cases mode <;> decide

theorem AttributeType.ofName?_eq_some_iff {name : String} {type : AttributeType} :
    ofName? name = some type ↔ type.name = name :=
  find?_name_eq_some_iff ofName?_name

theorem IndexType.ofName?_eq_some_iff {name : String} {type : IndexType} :
    ofName? name = some type ↔ type.name = name :=
  find?_name_eq_some_iff ofName?_name

theorem Primitive.ofName?_eq_some_iff {name : String} {mode : Primitive} :
    ofName? name = some mode ↔ mode.name = name :=
  find?_name_eq_some_iff ofName?_name

/-! ### Contents -/

/-- What a block may say. -/
inductive Content where
  | attribute (slot components : UInt32) (type : AttributeType) (values : List type.scalar.Word)
  | indices (mode : Primitive) (type : IndexType) (values : List type.scalar.Word)
  | arrays (mode : Primitive) (first count : UInt32)

/-- The names of the block are in the tables, and its text is one or more values. -/
inductive Block.Denotes : Block → Content → Prop
  | ofAttribute {slot components : UInt32} {typeName text : String} {type : AttributeType}
      {values : List type.scalar.Word} (hname : type.name = typeName)
      (hcomponents : components ≠ 0) (hread : type.scalar.readText text = .ok values)
      (hvalues : values ≠ []) :
      Denotes (.attribute slot typeName components text) (.attribute slot components type values)
  | ofIndices {primitiveName typeName text : String} {mode : Primitive} {type : IndexType}
      {values : List type.scalar.Word} (hmode : mode.name = primitiveName)
      (hname : type.name = typeName) (hread : type.scalar.readText text = .ok values)
      (hvalues : values ≠ []) :
      Denotes (.indices primitiveName typeName text) (.indices mode type values)
  | ofArrays {primitiveName : String} {mode : Primitive} {first count : UInt32}
      (hmode : mode.name = primitiveName) :
      Denotes (.arrays primitiveName first count) (.arrays mode first count)

theorem Block.Denotes.unique {block : Block} {content content' : Content}
    (h : block.Denotes content) (h' : block.Denotes content') : content = content' := by
  cases h with
  | ofAttribute hname _ hread _ =>
    cases h' with
    | ofAttribute hname' _ hread' _ =>
      obtain rfl := eq_of_name_eq AttributeType.ofName?_name (hname.trans hname'.symm)
      rw [hread] at hread'
      rw [Except.ok.inj hread']
  | ofIndices hmode hname hread _ =>
    cases h' with
    | ofIndices hmode' hname' hread' _ =>
      obtain rfl := eq_of_name_eq Primitive.ofName?_name (hmode.trans hmode'.symm)
      obtain rfl := eq_of_name_eq IndexType.ofName?_name (hname.trans hname'.symm)
      rw [hread] at hread'
      rw [Except.ok.inj hread']
  | ofArrays hmode =>
    cases h' with
    | ofArrays hmode' =>
      obtain rfl := eq_of_name_eq Primitive.ofName?_name (hmode.trans hmode'.symm)
      rfl

end MeshLayout
