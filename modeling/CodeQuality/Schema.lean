import CodeQuality.Json.Arithmetic
import CodeQuality.Json.Display

namespace CodeQuality

/-!
Rules for the values of requests and answers.

A rule takes a value and gives back the accepted value, which may differ: a number
is accepted as a text, and a numeral as a number.  A value that breaks rules gives
all violations in the order of the fields, each with the way to its place.
-/

/-- A rule gives the accepted value, or what is violated. -/
abbrev Rule := Json → Outcome Json

/-- Put a step in front of the ways of the violations of a fault. -/
def Fault.within (step : FieldStep) : Fault → Fault
  | .invalid violations =>
      .invalid (violations.map fun violation =>
        { violation with location := step :: violation.location })
  | other => other

namespace Rule

/-- The fault of one violation at the value itself. -/
def violated (message code : String) : Fault := .invalid [⟨[], message, code⟩]

/-- The violation of a value that must not be null. -/
def isNull : Fault := violated "none is not an allowed value" "type_error.none.not_allowed"

/-- Both of two outcomes.  The violations of both are kept together. -/
def both (combine : α → β → γ) (first : Outcome α) (second : Outcome β) : Outcome γ :=
  match first, second with
  | .ok left, .ok right => .ok (combine left right)
  | .error (.invalid left), .error (.invalid right) => .error (.invalid (left ++ right))
  | .error (.invalid _), .error other => .error other
  | .error fault, _ => .error fault
  | .ok _, .error fault => .error fault

/-- Texts; numbers and truth values are accepted as the texts that are written for them. -/
def text : Rule
  | .null => .error isNull
  | .str content => .ok (.str content)
  | .arr _ => .error (violated "str type expected" "type_error.str")
  | .obj _ => .error (violated "str type expected" "type_error.str")
  | scalar => .ok (.str scalar.display)

/-- Whole numbers; fractions are cut off, and numerals are read. -/
def whole : Rule
  | .null => .error isNull
  | value =>
      match value.toInteger with
      | .ok n => .ok (.int n)
      | .error (.overflow reason) => .error (.overflow reason)
      | .error _ => .error (violated "value is not a valid integer" "type_error.integer")

/-- The words that are accepted as true. -/
def trueWords : List String := ["1", "on", "t", "true", "y", "yes"]

/-- The words that are accepted as false. -/
def falseWords : List String := ["0", "off", "f", "false", "n", "no"]

/-- The truth value that a value stands for. -/
def truth? : Json → Option Bool
  | .bool flag => some flag
  | .str word =>
      let lowered := Text.lowerString word
      if lowered ∈ trueWords then some true
      else if lowered ∈ falseWords then some false
      else none
  | value =>
      if value.same (.int 1) then some true
      else if value.same (.int 0) then some false
      else none

/-- Truth values. -/
def flag : Rule
  | .null => .error isNull
  | value =>
      match truth? value with
      | some truth => .ok (.bool truth)
      | none =>
          .error (violated "value could not be parsed to a boolean" "type_error.bool")

/-- Null, or what a rule accepts. -/
def orNull (rule : Rule) : Rule
  | .null => .ok .null
  | value => rule value

/-- The items that a rule accepts, from a position on. -/
def itemsFrom (rule : Rule) (position : Nat) : List Json → Outcome (List Json)
  | [] => .ok []
  | item :: rest =>
      both (· :: ·) ((rule item).mapError (Fault.within (.index position)))
        (itemsFrom rule (position + 1) rest)

/-- Lists of items that a rule accepts. -/
def listOf (rule : Rule) : Rule
  | .null => .error isNull
  | .arr items => do pure (.arr (← itemsFrom rule 0 items))
  | _ => .error (violated "value is not a valid list" "type_error.list")

/-- A field of a record: its name, its rule, and its value when it is absent. -/
structure Field where
  name : String
  rule : Rule
  absent : Option Json

/-- A field that has to be present. -/
def required (name : String) (rule : Rule) : Field := ⟨name, rule, none⟩

/-- A field that may be null or absent. -/
def optional (name : String) (rule : Rule) (absent : Json) : Field :=
  ⟨name, rule.orNull, some absent⟩

/-- The accepted value of a field of a record. -/
def Field.accept (field : Field) (members : List (String × Json)) : Outcome Json :=
  match Json.lookup? field.name members, field.absent with
  | some value, _ => (field.rule value).mapError (Fault.within (.name field.name))
  | none, some absent => .ok absent
  | none, none =>
      .error (Fault.within (.name field.name) (violated "field required" "value_error.missing"))

/-- The accepted fields of a record.  Members without a rule are left out. -/
def fields (members : List (String × Json)) : List Field → Outcome (List (String × Json))
  | [] => .ok []
  | field :: rest =>
      both (fun value others => (field.name, value) :: others) (field.accept members)
        (fields members rest)

/-- The member that a pair in place of a member stands for. -/
def pair? : Json → Option (String × Json)
  | .arr [.str key, value] => some (key, value)
  | .str text =>
      match text.toList with
      | [key, value] => some (String.singleton key, .str (String.singleton value))
      | _ => none
  | _ => none

/-- The members of a value that is used as a record: of a record, or of a list of pairs. -/
def members? : Json → Option (List (String × Json))
  | .obj members => some members
  | .arr items => do
      let pairs ← items.mapM pair?
      pure (pairs.foldl (fun members (key, value) => Json.insertMember key value members) [])
  | .str "" => some []
  | _ => none

/-- Records with given fields. -/
def record (list : List Field) : Rule
  | .null => .error isNull
  | value =>
      match members? value with
      | some members => do pure (.obj (← fields members list))
      | none => .error (violated "value is not a valid dict" "type_error.dict")

/-- A whole request or answer.  It has to be a record to be looked at. -/
def body (list : List Field) : Rule
  | .obj members => do pure (.obj (← fields members list))
  | _ => .error (.wrongKind "argument after ** must be a mapping")

end Rule

namespace Schema

open Rule

/-- What a report says about an analysis. -/
def metaFields : List Field := [required "path" text, required "analyzed_at" text]

/-- An issue of a report. -/
def issueFields : List Field :=
  [required "id" text, required "category" text, required "severity" text,
    required "score" whole, required "file" text, optional "lineno" whole .null,
    required "message" text, optional "suggested_fix" text .null,
    optional "evidence" (listOf text) (.arr [])]

/-- A whole report. -/
def reportFields : List Field :=
  [required "meta" (record metaFields), required "summary" text, required "overall_score" whole,
    required "issues" (listOf (record issueFields)),
    optional "recommendations" (listOf text) (.arr [])]

/-- A request to analyse a repository. -/
def analysisRequestFields : List Field :=
  [required "path" text, optional "languages" (listOf text) (.texts ["py", "js"]),
    optional "run_async" flag (.bool false), optional "use_llm" flag (.bool false),
    optional "index_for_rag" flag (.bool false)]

/-- A question about a report. -/
def questionFields : List Field := [required "report_id" whole, required "question" text]

/-- An answer to a question. -/
def answerFields : List Field :=
  [required "answer" text, required "sources" (listOf text), required "confidence" text]

end Schema
end CodeQuality
