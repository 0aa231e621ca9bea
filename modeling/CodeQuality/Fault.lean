import CodeQuality.Text.Quoted

namespace CodeQuality

/-!
What can go wrong.

Every operation that may fail returns a `Fault`, which names the cause.  The words
of a fault are given in one place, `Fault.message`, because a fault that ends a
job, a request or a command is shown to the user as text.
-/

/-- Why a file cannot be used. -/
inductive FileCause where
  | absent
  | present
  | notDirectory
  | isDirectory
  | linkLoop
deriving DecidableEq

/-- The number and the words that the operating system gives for a cause. -/
def FileCause.words : FileCause → String
  | .absent => "[Errno 2] No such file or directory"
  | .present => "[Errno 17] File exists"
  | .notDirectory => "[Errno 20] Not a directory"
  | .isDirectory => "[Errno 21] Is a directory"
  | .linkLoop => "[Errno 40] Too many levels of symbolic links"

/-- One step on the way to a field of a request: a name, or a position in a list. -/
inductive FieldStep where
  | name (key : String)
  | index (position : Nat)
deriving DecidableEq

/-- A field of a request that breaks a rule, with the rule and its code. -/
structure Violation where
  location : List FieldStep
  message : String
  code : String
deriving DecidableEq

/-- The ways in which a command line is misused. -/
inductive UsageKind where
  | failed
  | badParameter
  | missingParameter
  | noSuchOption
  | badOption
  | misused
deriving DecidableEq

/-- A cause of failure. -/
inductive Fault where
  /-- An operation met a value of a kind it does not work on. -/
  | wrongKind (text : String)
  /-- A value was asked for something that its kind does not offer. -/
  | noAttribute (text : String)
  /-- A record lacks a key. -/
  | missingKey (key : String)
  /-- A position lies outside a list. -/
  | outOfRange
  /-- A value is of the right kind and still not usable. -/
  | badValue (text : String)
  /-- A number or a date leaves its range. -/
  | overflow (text : String)
  /-- A text is not JSON. -/
  | malformedJson
  /-- Bytes are not text. -/
  | undecodable (text : String)
  /-- The operating system refuses a file. -/
  | file (cause : FileCause) (path : String)
  /-- A path to analyse does not exist. -/
  | missingPath (path : String)
  /-- A step failed while running. -/
  | runtime (text : String)
  /-- A service cannot be reached. -/
  | connection (text : String)
  /-- An optional component is not installed. -/
  | notInstalled (component : String)
  /-- A request is refused with a status. -/
  | refused (status : Nat) (detail : String)
  /-- A request breaks the rules of its schema. -/
  | invalid (violations : List Violation)
  /-- A command line is misused. -/
  | usage (kind : UsageKind) (text : String)
deriving DecidableEq

/-- The words of a fault. -/
def Fault.message : Fault → String
  | .wrongKind text => text
  | .noAttribute text => text
  | .missingKey key => Text.quoted key
  | .outOfRange => "list index out of range"
  | .badValue text => text
  | .overflow text => text
  | .malformedJson => "Expecting value: line 1 column 1 (char 0)"
  | .undecodable text => text
  | .file cause path => cause.words ++ ": " ++ Text.quoted path
  | .missingPath path => "Path does not exist: " ++ path
  | .runtime text => text
  | .connection text => text
  | .notInstalled component => "No module named " ++ Text.quoted component
  | .refused _ detail => detail
  | .invalid _ => "invalid request"
  | .usage _ text => text

/-- The fault of a numeral with more digits than are read. -/
def Fault.overlongNumeral (digits : Nat) : Fault :=
  .badValue ("Exceeds the limit (4300 digits) for integer string conversion: value has " ++
    toString digits ++ " digits; use sys.set_int_max_str_digits() to increase the limit")

/-- A computation that may end in a fault. -/
abbrev Outcome (α : Type) := Except Fault α

end CodeQuality
