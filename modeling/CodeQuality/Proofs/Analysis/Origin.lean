import CodeQuality.Proofs.Analysis.Aggregation
import CodeQuality.Proofs.Files.Names
import CodeQuality.Proofs.Text.Pieces

namespace CodeQuality
namespace Analysis

/-!
Where findings come from.

A finding is made in one of ten ways, and each has a label that opens its
identifiers.  No label continues another one, so an identifier tells how its finding
was made.  What it does not tell is where: the rest of an identifier is a few digits
of a digest, or the text of the request.
-/

open Survey Syntax Survey.Python Files List

/-- The ways in which a finding is made. -/
inductive Kind where
  | parsing
  | complexity
  | note
  | danger
  | package
  | scriptNote
  | suspicion
  | duplication
  | scripts
  | language
deriving DecidableEq

/-- How the identifiers of findings of a kind begin. -/
def Kind.label : Kind → String
  | .parsing => "PY-PARSE-"
  | .complexity => "PY-CPLX-"
  | .note => "PY-TODO-"
  | .danger => "PY-SEC-"
  | .package => "PY-TEST-"
  | .scriptNote => "JS-DOC-"
  | .suspicion => "JS-SEC-"
  | .duplication => "JS-DUP-"
  | .scripts => "JS-TEST-"
  | .language => "unknown-"

/-- No label continues another one. -/
theorem Kind.eq_of_label_prefix (first second : Kind) :
    first.label.toList <+: second.label.toList → first = second := by
  cases first <;> cases second <;> decide

/-- What begins with two labels begins with one label. -/
theorem Kind.eq_of_prefix_append {first second : Kind} {rest : List Char}
    (opening : first.label.toList <+: second.label.toList ++ rest) : first = second := by
  rcases prefix_or_prefix_of_prefix opening (prefix_append _ _) with shorter | longer
  · exact Kind.eq_of_label_prefix first second shorter
  · exact (Kind.eq_of_label_prefix second first longer).symm

/-- Whether an identifier begins with the label of a kind. -/
def Kind.opens (kind : Kind) (id : String) : Bool := kind.label.toList.isPrefixOf id.toList

/-! ## What the surveys find -/

/-- What is shown of a call: its text, or what it calls if the text is not known. -/
def shownCall (source : List Char) (callee : String) (node : Node) : String :=
  if String.ofList (node.text source) = "" then callee else String.ofList (node.text source)

/-- The finding for a call with the judgement on what it calls. -/
def callFinding (source : List Char) (file callee : String) (danger : Danger) (node : Node) :
    Finding :=
  { id := "PY-SEC-" ++ Finding.mark markWidth file (toString node.start.line) callee
    category := .security
    severity := danger.severity
    message := danger.message
    details := some ⟨file, some node.start.line, shownCall source callee node,
      danger.suggestedFix⟩ }

variable {source : List Char} {file : String} {finding : Finding}

/-- Exactly the calls of dangerous functions are findings. -/
theorem dangerFinding?_eq_some {node : Node} :
    dangerFinding? source file node = some finding ↔
      ∃ callee danger, node.kind = .call callee ∧ danger? callee = some danger ∧
        finding = callFinding source file callee danger node := by
  rw [dangerFinding?]
  split
  · next callee called =>
      rw [Option.map_eq_some_iff, called]
      constructor
      · rintro ⟨danger, known, rfl⟩
        exact ⟨callee, danger, rfl, known, rfl⟩
      · rintro ⟨_, danger, same, known, rfl⟩
        cases same
        exact ⟨danger, known, rfl⟩
  · next other =>
      constructor
      · intro impossible
        cases impossible
      · rintro ⟨callee, _, called, _⟩
        exact absurd called (other callee)

/-- What is found in a file: why it cannot be read, or what stands in its tree. -/
theorem mem_surveyFile {tools : Tools} :
    finding ∈ (surveyFile tools file source).2 ↔
      (∃ fault, tools.parse source = .error fault ∧
        finding = parsingFinding source file fault) ∨
      ∃ tree, tools.parse source = .ok tree ∧
        ((∃ node signature, (node, signature) ∈ functionNodes tree ∧
            complexityLimit < tools.complexity source node ∧
            finding = complexityFinding source file node
              (functionEntry tools source node signature)) ∨
          (∃ todo ∈ todos source, finding = todoFinding file todo) ∨
          ∃ node ∈ tree.depthFirst, dangerFinding? source file node = some finding) := by
  rw [surveyFile]
  cases tools.parse source with
  | error fault => simp
  | ok tree =>
      simp only [mem_append, mem_map, mem_filter, dangers, mem_filterMap]
      constructor
      · rintro ((⟨_, ⟨⟨⟨node, signature⟩, inside, rfl⟩, complex⟩, equal⟩ | ⟨todo, inside, equal⟩) |
          ⟨node, inside, judged⟩)
        · exact Or.inr ⟨tree, rfl, Or.inl ⟨node, signature, inside, of_decide_eq_true complex,
            equal.symm⟩⟩
        · exact Or.inr ⟨tree, rfl, Or.inr (Or.inl ⟨todo, inside, equal.symm⟩)⟩
        · exact Or.inr ⟨tree, rfl, Or.inr (Or.inr ⟨node, inside, judged⟩)⟩
      · rintro (⟨fault, impossible, _⟩ | ⟨_, same, found⟩)
        · cases impossible
        · cases same
          rcases found with ⟨node, signature, inside, complex, equal⟩ | ⟨todo, inside, equal⟩ |
            ⟨node, inside, judged⟩
          · exact Or.inl (Or.inl ⟨_, ⟨⟨(node, signature), inside, rfl⟩, decide_eq_true complex⟩,
              equal.symm⟩)
          · exact Or.inl (Or.inr ⟨todo, inside, equal.symm⟩)
          · exact Or.inr ⟨node, inside, judged⟩

/-- What is found in a script file. -/
theorem mem_scriptFile {tree : Option Script.Node} :
    finding ∈ (Script.surveyFile file source tree).2 ↔
      (∃ todo ∈ todos source, finding = Script.todoFinding file todo) ∨
      ∃ suspicion ∈ (Script.reading source tree).2,
        finding = Script.suspicionFinding file suspicion := by
  simp only [Script.surveyFile, mem_append, mem_map, eq_comm]

/-- The text of a file that is surveyed. -/
abbrev sourceAt (files : Files) (root path : Path) : List Char :=
  files.readLenient (root ++ path)

/-- How a finding of a kind comes about in the survey of a language: where it stands in the
repository and what shows it. -/
inductive Emission (reading : Reading) (files : Files) (root : Path) :
    RequestedLanguage → Kind → Finding → Prop where
  | parsing {path : Path} {fault : SourceFault}
      (member : path ∈ sourcePaths files root)
      (failed : reading.tools.parse (sourceAt files root path) = .error fault) :
      Emission reading files root .python .parsing
        (parsingFinding (sourceAt files root path) (relativeText path) fault)
  | complexity {path : Path} {tree node : Node} {signature : Signature}
      (member : path ∈ sourcePaths files root)
      (parsed : reading.tools.parse (sourceAt files root path) = .ok tree)
      (inside : (node, signature) ∈ functionNodes tree)
      (complex : complexityLimit <
        reading.tools.complexity (sourceAt files root path) node) :
      Emission reading files root .python .complexity
        (complexityFinding (sourceAt files root path) (relativeText path) node
          (functionEntry reading.tools (sourceAt files root path) node signature))
  | note {path : Path} {tree : Node} {todo : Todo}
      (member : path ∈ sourcePaths files root)
      (parsed : reading.tools.parse (sourceAt files root path) = .ok tree)
      (inside : todo ∈ todos (sourceAt files root path)) :
      Emission reading files root .python .note
        (todoFinding (relativeText path) todo)
  | danger {path : Path} {tree node : Node} {callee : String} {danger : Danger}
      (member : path ∈ sourcePaths files root)
      (parsed : reading.tools.parse (sourceAt files root path) = .ok tree)
      (inside : node ∈ tree.depthFirst) (called : node.kind = .call callee)
      (known : danger? callee = some danger) :
      Emission reading files root .python .danger
        (callFinding (sourceAt files root path) (relativeText path) callee danger node)
  | package {name : String} (untested : files.holds (root ++ ["tests"]) = false)
      (member : name ∈ packages files root) :
      Emission reading files root .python .package (testingFinding root name)
  | scriptNote {path : Path} {todo : Todo} (member : path ∈ Script.sourcePaths files root)
      (inside : todo ∈ todos (sourceAt files root path)) :
      Emission reading files root .script .scriptNote
        (Script.todoFinding (relativeText path) todo)
  | suspicion {position : Nat} {path : Path} {suspicion : Suspicion}
      (member : (Script.sourcePaths files root)[position]? = some path)
      (inside : suspicion ∈ (Script.reading (sourceAt files root path)
        (reading.grammar.tree? position)).2) :
      Emission reading files root .script .suspicion
        (Script.suspicionFinding (relativeText path) suspicion)
  | duplication {digest : String} {places : List String}
      (member : (digest, places) ∈
        Script.placesByDigest (Script.surveyAt reading.grammar files root).files)
      (several : 1 < places.length) :
      Emission reading files root .script .duplication (Script.duplicationFinding places)
  | scripts (untested : Script.hasTests files root = false) :
      Emission reading files root .script .scripts (Script.testingFinding root)
  | language {text : String} :
      Emission reading files root (.unknown text) .language (languageFinding text)

section

variable {reading : Reading} {files : Files} {root : Path}

/-! ## Surveys and emissions -/

/-- Whether a finding of a kind says that tests are missing. -/
def Kind.isMissingTest : Kind → Bool
  | .package => true
  | .scripts => true
  | _ => false

/-- What a survey says of the files one by one: the text of the path, the report and the
findings. -/
def surveyedFiles (reading : Reading) (files : Files) (root : Path) :
    RequestedLanguage → List (String × FileReport × List Finding)
  | .python => (sourcePaths files root).map fun path =>
      (relativeText path, surveyFile reading.tools (relativeText path)
        (sourceAt files root path))
  | .script => (Script.sourcePaths files root).mapIdx fun position path =>
      (relativeText path, Script.surveyFile (relativeText path)
        (sourceAt files root path) (reading.grammar.tree? position))
  | .unknown _ => []

/-- The reports among what is said of files. -/
def reportsOf (surveyed : List (String × FileReport × List Finding)) : List (String × FileReport) :=
  surveyed.map fun (path, report, _) => (path, report)

/-- What a survey finds in files, and the languages that are not known. -/
def fileFindings (reading : Reading) (files : Files) (root : Path) :
    RequestedLanguage → List Finding
  | .python => (surveyedFiles reading files root .python).flatMap (·.2.2)
  | .script => (surveyedFiles reading files root .script).flatMap (·.2.2) ++
      Script.duplicationFindings (reportsOf (surveyedFiles reading files root .script))
  | .unknown text => [languageFinding text]

/-- What a survey says about missing tests. -/
def missingTests (files : Files) (root : Path) : RequestedLanguage → List Finding
  | .python => testingFindings files root
  | .script => if Script.hasTests files root then [] else [Script.testingFinding root]
  | .unknown _ => []

/-- The findings of a survey are those in files and then those about tests. -/
theorem surveyed_eq (isRepository : files.isDir root = true) (language : RequestedLanguage) :
    surveyed reading files root language =
      (reportsOf (surveyedFiles reading files root language),
        fileFindings reading files root language ++ missingTests files root language) := by
  cases language with
  | python =>
      rcases isDir_eq_true.mp isRepository with ⟨listing, found⟩
      rw [surveyed, surveyAt, found]
      rfl
  | script => rfl
  | unknown text => rfl

variable {language : RequestedLanguage}

theorem mem_fileFindings :
    finding ∈ fileFindings reading files root language ↔
      ∃ kind, Emission reading files root language kind finding ∧ kind.isMissingTest = false := by
  cases language with
  | python =>
      simp only [fileFindings, surveyedFiles, mem_flatMap, mem_map]
      constructor
      · rintro ⟨_, ⟨path, member, rfl⟩, inFile⟩
        rcases mem_surveyFile.mp inFile with ⟨fault, failed, rfl⟩ | ⟨tree, parsed, found⟩
        · exact ⟨_, .parsing member failed, rfl⟩
        · rcases found with ⟨node, signature, inside, complex, rfl⟩ | ⟨todo, inside, rfl⟩ |
            ⟨node, inside, judged⟩
          · exact ⟨_, .complexity member parsed inside complex, rfl⟩
          · exact ⟨_, .note member parsed inside, rfl⟩
          · rcases dangerFinding?_eq_some.mp judged with ⟨callee, danger, called, known, rfl⟩
            exact ⟨_, .danger member parsed inside called known, rfl⟩
      · rintro ⟨kind, emission, present⟩
        cases emission with
        | parsing member failed =>
            exact ⟨_, ⟨_, member, rfl⟩, mem_surveyFile.mpr (Or.inl ⟨_, failed, rfl⟩)⟩
        | complexity member parsed inside complex =>
            exact ⟨_, ⟨_, member, rfl⟩, mem_surveyFile.mpr (Or.inr ⟨_, parsed,
              Or.inl ⟨_, _, inside, complex, rfl⟩⟩)⟩
        | note member parsed inside =>
            exact ⟨_, ⟨_, member, rfl⟩, mem_surveyFile.mpr (Or.inr ⟨_, parsed,
              Or.inr (Or.inl ⟨_, inside, rfl⟩)⟩)⟩
        | danger member parsed inside called known =>
            exact ⟨_, ⟨_, member, rfl⟩, mem_surveyFile.mpr (Or.inr ⟨_, parsed, Or.inr (Or.inr
              ⟨_, inside, dangerFinding?_eq_some.mpr ⟨_, _, called, known, rfl⟩⟩)⟩)⟩
        | package untested member => cases present
  | script =>
      simp only [fileFindings, surveyedFiles, mem_append, mem_flatMap, mem_mapIdx]
      constructor
      · rintro (⟨_, ⟨position, inRange, rfl⟩, inFile⟩ | repeated)
        · rcases mem_scriptFile.mp inFile with ⟨todo, inside, rfl⟩ | ⟨suspicion, inside, rfl⟩
          · exact ⟨_, .scriptNote (getElem_mem inRange) inside, rfl⟩
          · exact ⟨_, .suspicion (getElem?_eq_getElem inRange) inside, rfl⟩
        · rcases mem_map.mp repeated with ⟨⟨digest, places⟩, kept, rfl⟩
          rcases mem_filter.mp kept with ⟨member, several⟩
          exact ⟨_, .duplication member (of_decide_eq_true several), rfl⟩
      · rintro ⟨kind, emission, present⟩
        cases emission with
        | scriptNote member inside =>
            rcases getElem_of_mem member with ⟨position, inRange, rfl⟩
            exact Or.inl ⟨_, ⟨position, inRange, rfl⟩, mem_scriptFile.mpr (Or.inl ⟨_, inside, rfl⟩)⟩
        | suspicion member inside =>
            rcases List.getElem?_eq_some_iff.mp member with ⟨inRange, rfl⟩
            exact Or.inl ⟨_, ⟨_, inRange, rfl⟩, mem_scriptFile.mpr (Or.inr ⟨_, inside, rfl⟩)⟩
        | duplication member several =>
            exact Or.inr (mem_map.mpr
              ⟨_, mem_filter.mpr ⟨member, decide_eq_true several⟩, rfl⟩)
        | scripts untested => cases present
  | unknown text =>
      rw [fileFindings, mem_singleton]
      constructor
      · rintro rfl
        exact ⟨_, .language, rfl⟩
      · rintro ⟨kind, emission, _⟩
        cases emission
        rfl

theorem mem_missingTests (reading : Reading) :
    finding ∈ missingTests files root language ↔
      ∃ kind, Emission reading files root language kind finding ∧ kind.isMissingTest = true := by
  cases language with
  | python =>
      rw [missingTests, testingFindings]
      cases tested : files.holds (root ++ ["tests"]) with
      | true =>
          constructor
          · intro member
            cases member
          · rintro ⟨kind, emission, missing⟩
            cases emission with
            | package untested member => rw [tested] at untested; cases untested
            | _ => cases missing
      | false =>
          constructor
          · intro listed
            rcases mem_map.mp listed with ⟨name, member, rfl⟩
            exact ⟨_, .package tested member, rfl⟩
          · rintro ⟨kind, emission, missing⟩
            cases emission with
            | package untested member => exact mem_map_of_mem member
            | _ => cases missing
  | script =>
      rw [missingTests]
      cases tested : Script.hasTests files root with
      | true =>
          constructor
          · intro member
            cases member
          · rintro ⟨kind, emission, missing⟩
            cases emission with
            | scripts untested => rw [tested] at untested; cases untested
            | _ => cases missing
      | false =>
          constructor
          · intro listed
            rw [mem_singleton.mp listed]
            exact ⟨_, .scripts tested, rfl⟩
          · rintro ⟨kind, emission, missing⟩
            cases emission with
            | scripts untested => exact mem_singleton_self _
            | _ => cases missing
  | unknown text =>
      constructor
      · intro member
        cases member
      · rintro ⟨kind, emission, missing⟩
        cases emission
        cases missing

/-- Every finding of a survey comes about in one of the ten ways, and everything that comes about
so is found. -/
theorem mem_surveyed (isRepository : files.isDir root = true) :
    finding ∈ (surveyed reading files root language).2 ↔
      ∃ kind, Emission reading files root language kind finding := by
  rw [surveyed_eq isRepository, mem_append, mem_fileFindings, mem_missingTests reading,
    ← exists_or]
  refine exists_congr fun kind => ?_
  cases kind.isMissingTest <;> simp

/-- The findings of an analysis are those of the surveys of the languages that are asked for. -/
theorem mem_emitted (isRepository : files.isDir root = true) {requested : List RequestedLanguage} :
    finding ∈ emitted reading files root requested ↔
      ∃ language ∈ requested, ∃ kind, Emission reading files root language kind finding := by
  rw [emitted, mem_flatMap]
  exact exists_congr fun language => and_congr_right fun _ => mem_surveyed isRepository

/-! ## Kinds and identifiers -/

theorem Emission.id_eq {kind : Kind}
    (emission : Emission reading files root language kind finding) :
    ∃ rest, finding.id = kind.label ++ rest := by
  cases emission <;> exact ⟨_, rfl⟩

/-- The identifier of a finding begins with the label of its kind and with no other label. -/
theorem Emission.opens_eq {kind : Kind}
    (emission : Emission reading files root language kind finding) (other : Kind) :
    other.opens finding.id = decide (other = kind) := by
  rcases emission.id_eq with ⟨rest, id⟩
  rw [Bool.eq_iff_iff, decide_eq_true_eq, Kind.opens, isPrefixOf_iff_prefix, id,
    String.toList_append]
  constructor
  · exact Kind.eq_of_prefix_append
  · rintro rfl
    exact prefix_append _ _

/-- The kind of a finding can be read off its identifier. -/
theorem Emission.kind_eq {other : RequestedLanguage} {first second : Kind} {same : Finding}
    (emission : Emission reading files root language first finding)
    (another : Emission reading files root other second same) (ids : finding.id = same.id) :
    first = second := by
  have opened : first.opens finding.id = true := by
    rw [emission.opens_eq]
    exact decide_eq_true rfl
  rw [ids, another.opens_eq] at opened
  exact of_decide_eq_true opened

/-- So can the language whose survey made it: a kind belongs to one language, and the label for
unknown languages is followed by the language itself. -/
theorem Emission.language_eq {other : RequestedLanguage} {first second : Kind} {same : Finding}
    (emission : Emission reading files root language first finding)
    (another : Emission reading files root other second same) (ids : finding.id = same.id) :
    language = other := by
  have kinds := emission.kind_eq another ids
  subst kinds
  cases emission with
  | language =>
      cases another
      have texts : "unknown-" ++ _ = "unknown-" ++ _ := ids
      rw [String.append_right_inj] at texts
      rw [texts]
  | _ =>
      cases another
      rfl

end

end Analysis
end CodeQuality
