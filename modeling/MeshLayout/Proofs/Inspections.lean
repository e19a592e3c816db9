/-
MeshLayout/Proofs/Inspections.lean

What the inspector prints, and how it ends.

A file is shown if it holds text, the text is a document, and the tokens of
the document compile (`Shows`).  The report is printed before the mesh is
replayed, so a replay that failed would leave a file both reported on and
counted as a failure.  There is no such file: the narrating device does not
fail, and a compiled mesh does not lack an index buffer (`replay_of_compile`).
Hence a file is either shown in full and no failure, or not shown at all
(`inspectFile_of_shows`, `inspectFile_of_not_shows`), whatever the other files
are.  Main result: `run_prints`.
-/
import MeshLayout.Inspection
import MeshLayout.Proofs.Rendering
import MeshLayout.Proofs.Upload
import MeshLayout.Proofs.Writing

namespace MeshLayout

/-! ### Files that are shown -/

/-- The contents are the text of a document that describes the mesh. -/
def Shows (options : Options) (contents : Option ByteArray) (mesh : Mesh) : Prop :=
  ∃ (bytes : ByteArray) (document : String) (tokens : List Token),
    contents = some bytes ∧ String.fromUTF8? bytes = some document ∧
      Markup.tokens document = .ok tokens ∧ (compileTokens options tokens).result = .ok mesh

/-- Lines as they are printed. -/
def printed (lines : List String) : String := String.join (lines.map fun line => line ++ "\n")

/-- What is printed about files: the name and the whole report of each that is shown, in order, and
nothing about the others. -/
inductive Prints (options : Options) (files : Files) : List String → String → Prop
  | nil : Prints options files [] ""
  | shown {name : String} {mesh : Mesh} {names : List String} {text : String}
      (h : Shows options (files name) mesh) (hrest : Prints options files names text) :
      Prints options files (name :: names) (printed (name :: Report.lines mesh) ++ text)
  | passed {name : String} {names : List String} {text : String}
      (h : ∀ mesh, ¬ Shows options (files name) mesh) (hrest : Prints options files names text) :
      Prints options files (name :: names) text

variable {options : Options} {contents : Option ByteArray} {mesh mesh' : Mesh}

theorem Shows.unique (h : Shows options contents mesh) (h' : Shows options contents mesh') :
    mesh = mesh' := by
  obtain ⟨bytes, document, tokens, rfl, hdocument, htokens, hmesh⟩ := h
  obtain ⟨bytes', document', tokens', hbytes, hdocument', htokens', hmesh'⟩ := h'
  obtain rfl := Option.some.inj hbytes
  obtain rfl := Option.some.inj (hdocument.symm.trans hdocument')
  obtain rfl := Except.ok.inj (htokens.symm.trans htokens')
  exact Except.ok.inj (hmesh.symm.trans hmesh')

/-- What is printed about files is determined. -/
theorem Prints.unique {files : Files} {names : List String} {text text' : String}
    (h : Prints options files names text) (h' : Prints options files names text') :
    text = text' := by
  induction h generalizing text' with
  | nil =>
    cases h'
    rfl
  | shown hmesh _ ih =>
    cases h' with
    | shown hmesh' hrest' => rw [hmesh.unique hmesh', ih hrest']
    | passed hnone => exact absurd hmesh (hnone _)
  | passed hnone _ ih =>
    cases h' with
    | shown hmesh' => exact absurd hmesh' (hnone _)
    | passed _ hrest' => exact ih hrest'

/-! ### Replays -/

/-- **A replay does not fail.** -/
theorem replay_of_compile {tokens : List Token}
    (h : (compileTokens options tokens).result = .ok mesh) : (replay mesh).result = .ok () := by
  obtain ⟨events, hmesh⟩ := exists_compile_of_compileTokens h
  obtain ⟨calls, -, huploads⟩ :=
    (drawable_of_compile hmesh).upload_watched Narrator.device Narrator.start []
  rw [replay]
  split
  · next e n hupload =>
    rw [hupload] at huploads
    rcases e with number | cause
    · -- an upload draws nothing, so it misses no index buffer
      cases huploads
    · exact cause.elim
  · next uploaded n hupload =>
    rw [hupload] at huploads
    obtain ⟨hcommands, hindices⟩ := huploads.commands_eq
    obtain ⟨draws, -, hdraws⟩ := Narrator.device.executeFrom_watched uploaded.vertices
      uploaded.indices 0 uploaded.commands n []
    have hrun : Narrator.device.executeFrom uploaded.vertices uploaded.indices 0
        uploaded.commands n = uploaded.render Narrator.device n := rfl
    rw [hrun, hcommands] at hdraws
    have hmissing := hdraws.ne_missing hindices
    split
    · next e last hrender =>
      rw [hrender] at hmissing
      rcases e with number | cause
      · exact absurd rfl (hmissing number)
      · exact cause.elim
    · rfl

/-! ### One file -/

theorem readMesh_of_tokens {document : String} {tokens : List Token}
    (h : Markup.tokens document = .ok tokens) :
    (readMesh options document).result =
      (compileTokens options tokens).result.mapError .description := by
  rw [readMesh, h]
  rfl

theorem readMesh_of_error {document : String} {e : Markup.Error}
    (h : Markup.tokens document = .error e) :
    (readMesh options document).result = .error (.markup e) := by
  rw [readMesh, h]
  rfl

theorem readMesh_eq_ok_iff {document : String} :
    (readMesh options document).result = .ok mesh ↔
      ∃ tokens, Markup.tokens document = .ok tokens ∧
        (compileTokens options tokens).result = .ok mesh := by
  constructor
  · intro h
    rcases htokens : Markup.tokens document with e | tokens
    · rw [readMesh_of_error htokens] at h
      cases h
    · rw [readMesh_of_tokens htokens] at h
      rcases hmesh : (compileTokens options tokens).result with e | mesh' <;> rw [hmesh] at h <;>
        cases h
      exact ⟨tokens, rfl, hmesh⟩
  · rintro ⟨tokens, htokens, hmesh⟩
    rw [readMesh_of_tokens htokens, hmesh]
    rfl

theorem inspectDocument_of_ok {document : String}
    (h : (readMesh options document).result = .ok mesh) :
    (inspectDocument options document).report = some (Report.lines mesh) ∧
      (inspectDocument options document).outcome.result = (replay mesh).result := by
  rw [inspectDocument, h]
  exact ⟨rfl, rfl⟩

theorem inspectDocument_of_error {document : String} {e : InspectionError}
    (h : (readMesh options document).result = .error e) :
    (inspectDocument options document).report = none ∧
      (inspectDocument options document).outcome.result = .error e := by
  rw [inspectDocument, h]
  exact ⟨rfl, rfl⟩

/-- A file that is shown is reported on in full, and is no failure. -/
theorem inspectFile_of_shows (h : Shows options contents mesh) :
    (inspectFile options contents).report = some (Report.lines mesh) ∧
      (inspectFile options contents).outcome.result = .ok () := by
  obtain ⟨bytes, document, tokens, rfl, hdocument, htokens, hmesh⟩ := h
  have hread := readMesh_eq_ok_iff.2 ⟨tokens, htokens, hmesh⟩
  rw [inspectFile, inspectBytes, hdocument, ← replay_of_compile hmesh]
  exact inspectDocument_of_ok hread

/-- Of a file that is not shown nothing is printed, and it is a failure. -/
theorem inspectFile_of_not_shows (h : ∀ mesh, ¬ Shows options contents mesh) :
    (inspectFile options contents).report = none ∧
      ∃ e, (inspectFile options contents).outcome.result = .error e := by
  rcases contents with - | bytes
  · exact ⟨rfl, _, rfl⟩
  · rw [inspectFile, inspectBytes]
    rcases hdocument : String.fromUTF8? bytes with - | document
    · exact ⟨rfl, _, rfl⟩
    · rcases hread : (readMesh options document).result with e | mesh
      · obtain ⟨hreport, hresult⟩ := inspectDocument_of_error hread
        exact ⟨hreport, e, hresult⟩
      · obtain ⟨tokens, htokens, hmesh⟩ := readMesh_eq_ok_iff.1 hread
        exact absurd ⟨bytes, document, tokens, rfl, hdocument, htokens, hmesh⟩ (h mesh)

/-! ### Runs of the program -/

theorem printed_append (lines more : List String) :
    printed (lines ++ more) = printed lines ++ printed more := by
  rw [printed, List.map_append, String.join_append]
  rfl

/-- File by file, what is printed is what the inspections put out. -/
theorem prints_outputs (options : Options) (files : Files) (names : List String) :
    Prints options files names
      (printed (names.flatMap fun name => (inspectFile options (files name)).output name)) := by
  induction names with
  | nil => exact .nil
  | cons name names ih =>
    rw [List.flatMap_cons, printed_append, Inspection.output]
    by_cases h : ∃ mesh, Shows options (files name) mesh
    · obtain ⟨mesh, hmesh⟩ := h
      rw [(inspectFile_of_shows hmesh).1]
      exact .shown hmesh ih
    · have hnone := not_exists.1 h
      rw [(inspectFile_of_not_shows hnone).1]
      exact .passed hnone (by simpa [printed] using ih)

/-- A file is a failure if it is not shown. -/
theorem isFailure_inspectFile_iff :
    (inspectFile options contents).isFailure = true ↔ ∀ mesh, ¬ Shows options contents mesh := by
  by_cases h : ∃ mesh, Shows options contents mesh
  · obtain ⟨mesh, hmesh⟩ := h
    rw [Inspection.isFailure, (inspectFile_of_shows hmesh).2]
    exact iff_of_false Bool.false_ne_true fun hnone => hnone mesh hmesh
  · have hnone := not_exists.1 h
    obtain ⟨e, hresult⟩ := (inspectFile_of_not_shows hnone).2
    rw [Inspection.isFailure, hresult]
    exact iff_of_true rfl hnone

theorem text_inspectAll (files : Files) (accepted : Arguments) :
    (inspectAll files accepted).text = printed (accepted.files.flatMap fun name =>
      (inspectFile accepted.options (files name)).output name) := by
  rw [Run.text, inspectAll, List.flatMap_map]
  rfl

/-- The exit code tells whether an inspection has failed. -/
theorem exitCode_inspectAll (files : Files) (accepted : Arguments) :
    (inspectAll files accepted).exitCode =
      if ∀ name ∈ accepted.files, (inspectFile accepted.options (files name)).isFailure = false
      then 0 else 1 := by
  rw [inspectAll, List.countP_map]
  apply if_congr
  · simp
  · rfl
  · rfl

/-- **Files are shown in full or not at all**, each whatever the others are.  The output is made up
of the name and the report of every file that is shown, in the order of the command line; the exit
code tells whether all have been; and no mesh that has been reported on fails to be replayed. -/
theorem run_prints (files : Files) {arguments : List String} {accepted : Arguments}
    (h : Arguments.read arguments = .ok accepted) :
    Prints accepted.options files accepted.files (run files arguments).text ∧
      ((∀ name ∈ accepted.files, ∃ mesh, Shows accepted.options (files name) mesh) →
        (run files arguments).exitCode = 0) ∧
      ((∃ name ∈ accepted.files, ∀ mesh, ¬ Shows accepted.options (files name) mesh) →
        (run files arguments).exitCode = 1) ∧
      ∀ name ∈ accepted.files, ∀ mesh, Shows accepted.options (files name) mesh →
        (replay mesh).result = .ok () := by
  have hrun : run files arguments = inspectAll files accepted := by
    rw [run, h]
  rw [hrun, exitCode_inspectAll]
  refine ⟨?_, ?_, ?_, ?_⟩
  · rw [text_inspectAll]
    exact prints_outputs accepted.options files accepted.files
  · intro hall
    apply if_pos
    intro name hname
    obtain ⟨mesh, hmesh⟩ := hall name hname
    exact Bool.eq_false_iff.2 fun hfails => isFailure_inspectFile_iff.1 hfails mesh hmesh
  · rintro ⟨name, hname, hnone⟩
    apply if_neg
    intro hall
    have hfails := hall name hname
    rw [isFailure_inspectFile_iff.2 hnone] at hfails
    cases hfails
  · rintro name - mesh ⟨bytes, document, tokens, -, -, -, hmesh⟩
    exact replay_of_compile hmesh

/-- The bytes of a text are read as the text. -/
theorem fromUTF8?_toUTF8 (text : String) : String.fromUTF8? text.toUTF8 = some text :=
  dif_pos text.isValidUTF8

/-- A document that describes two points. -/
def pointsDocument : String :=
  String.ofList (Markup.writeElement "mesh" []
    (Markup.writeElement "attribute" [("index", "0"), ("type", "float"), ("size", "2")]
        "-0.5 0.1 2 -3".toList ++
      Markup.writeEmptyElement "arrays" [("cmd", "points"), ("start", "0"), ("count", "2")]))

/-- What it describes. -/
def pointsMesh : Mesh where
  attributes := [⟨0, 2, .float, 0, 16⟩]
  commands := [.direct .points 0 2]
  vertexData := ⟨.array, [0, 0, 0, 191, 205, 204, 204, 61, 0, 0, 0, 64, 0, 0, 64, 192]⟩
  indexData := ⟨.elementArray, []⟩

/-- A file with two points in it, and one whose document breaks off. -/
def pointsAndStump : Files := fun name =>
  if name = "points" then some pointsDocument.toUTF8
  else if name = "stump" then some "<mesh>".toUTF8
  else none

theorem tokens_pointsDocument : Markup.tokens pointsDocument =
    .ok [.opening "mesh" [],
      .opening "attribute" [("index", "0"), ("type", "float"), ("size", "2")],
      .text "-0.5 0.1 2 -3", .closing "attribute",
      .opening "arrays" [("cmd", "points"), ("start", "0"), ("count", "2")],
      .closing "arrays", .closing "mesh"] := by
  rw [Markup.tokens, pointsDocument, String.toList_ofList]
  rfl

/-- Of three files one is shown. -/
theorem prints_pointsAndStump :
    Shows .lenient (pointsAndStump "points") pointsMesh ∧
      (run pointsAndStump ["stump", "--lenient", "points", "nothing"]).text = String.join
        ["points\n",
          "slot  type         comps   offset    bytes vertices\n",
          "   0  float     2        0       16        2\n",
          "      bounds: [-0.5, 2] [-3, 0.1]\n",
          "vertex data: 16 bytes, index data: 0 bytes\n",
          "1 commands (0 indexed, 1 direct)\n",
          "command 0: Direct \x7b mode: Points, first: 0, count: 2 \x7d\n"] ∧
      (run pointsAndStump ["stump", "--lenient", "points", "nothing"]).exitCode = 1 ∧
      (replay pointsMesh).result = .ok () := by
  have hread : Arguments.read ["stump", "--lenient", "points", "nothing"] =
      .ok ⟨true, false, defaultLogFilter, .pretty, ["stump", "points", "nothing"]⟩ := by
    decide
  obtain ⟨hprints, -, hcode, hreplay⟩ := run_prints pointsAndStump hread
  have hpoints : Shows .lenient (pointsAndStump "points") pointsMesh :=
    ⟨_, _, _, rfl, fromUTF8?_toUTF8 _, tokens_pointsDocument, rfl⟩
  have hstump : ∀ mesh, ¬ Shows .lenient (pointsAndStump "stump") mesh := by
    rintro mesh ⟨bytes, document, tokens, hbytes, hdocument, htokens, hmesh⟩
    obtain rfl := Option.some.inj hbytes
    obtain rfl := Option.some.inj ((fromUTF8?_toUTF8 _).symm.trans hdocument)
    cases htokens
    cases hmesh
  have hnothing : ∀ mesh, ¬ Shows .lenient (pointsAndStump "nothing") mesh := by
    rintro mesh ⟨bytes, document, tokens, hbytes, -⟩
    cases hbytes
  refine ⟨hpoints, ?_, hcode ⟨"stump", by decide, hstump⟩,
    hreplay "points" (by decide) pointsMesh hpoints⟩
  rw [hprints.unique (.passed hstump (.shown hpoints (.passed hnothing .nil))),
    String.append_empty]
  decide +kernel

end MeshLayout
