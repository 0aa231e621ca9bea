import CodeQuality.CommandLine.Similar
import CodeQuality.Fault

namespace CodeQuality
namespace CommandLine

/-!
Reading the words of a command line.

A word that starts with a dash is an option or a cluster of one-letter options.  An
option may take the next word as its value, or have the value attached.  Two dashes
alone end the options.  Other words are arguments.
-/

/-- An option: the names it is given by, its key, and whether it takes a value. -/
structure OptionRule where
  names : List String
  key : String
  takesValue : Bool

/-- The option that shows the help. -/
def helpRule : OptionRule := ⟨["--help"], "help", false⟩

/-- What a command line gives: options in their order, each with its value, and arguments. -/
structure Given where
  options : List (String × Option String)
  arguments : List String

namespace Given

/-- Whether an option is given. -/
def has (given : Given) (key : String) : Bool := given.options.any fun pair => pair.1 == key

/-- The value of an option.  The last one counts. -/
def value? (given : Given) (key : String) : Option String :=
  (given.options.filter fun pair => pair.1 == key).getLast?.bind (·.2)

/-- Put options in front. -/
def prepend (given : Given) (options : List (String × Option String)) : Given :=
  { given with options := options ++ given.options }

end Given

/-- The option with a name. -/
def findRule? (rules : List OptionRule) (name : String) : Option OptionRule :=
  rules.find? fun rule => rule.names.contains name

/-- Whether a name is a long one. -/
def isLong (name : String) : Bool := "--".toList.isPrefixOf name.toList

/-- The long names of options. -/
def longNames (rules : List OptionRule) : List String :=
  (rules.flatMap (·.names)).filter isLong

/-- The fault of an option that is not known. -/
def noSuchOption (name : String) (similar : List String) : Fault :=
  let hint := match similar with
    | [] => ""
    | [one] => " Did you mean " ++ one ++ "?"
    | several => " (Possible options: " ++ ", ".intercalate several ++ ")"
  .usage .noSuchOption ("No such option: " ++ name ++ hint)

/-- The fault of an option without its value. -/
def valueMissing (name : String) : Fault :=
  .usage .badOption ("Option " ++ Text.quoted name ++ " requires an argument.")

/-- The fault of an option with a value that it does not take. -/
def valueRefused (name : String) : Fault :=
  .usage .badOption ("Option " ++ Text.quoted name ++ " does not take a value.")

/-- A word split at its first equals sign. -/
def attached (word : String) : String × Option String :=
  let characters := word.toList
  let name := characters.takeWhile (· ≠ '=')
  match characters.drop name.length with
  | [] => (word, none)
  | _ :: value => (String.ofList name, some (String.ofList value))

/-- What a word with options gives: options that are complete, and perhaps one that takes the
next word. -/
structure Piece where
  options : List (String × Option String)
  waiting : Option (String × String)

/-- The options of a cluster of letters. -/
def cluster (rules : List OptionRule) : List Char → Outcome Piece
  | [] => .ok ⟨[], none⟩
  | letter :: rest =>
      let name := String.ofList ['-', letter]
      match findRule? rules name with
      | none => .error (noSuchOption name [])
      | some rule =>
          if rule.takesValue then
            match rest with
            | [] => .ok ⟨[], some (name, rule.key)⟩
            | _ => .ok ⟨[(rule.key, some (String.ofList rest))], none⟩
          else do
            let piece ← cluster rules rest
            pure { piece with options := (rule.key, none) :: piece.options }

/-- The options of a word that starts with a dash. -/
def optionsOf (rules : List OptionRule) (word : String) : Outcome Piece :=
  let (name, value) := attached word
  match if isLong name then findRule? rules name else none with
  | some rule =>
      match rule.takesValue, value with
      | true, some given => .ok ⟨[(rule.key, some given)], none⟩
      | true, none => .ok ⟨[], some (name, rule.key)⟩
      | false, some _ => .error (valueRefused name)
      | false, none => .ok ⟨[(rule.key, none)], none⟩
  | none =>
      if isLong word then .error (noSuchOption name (suggestions name (longNames rules)))
      else cluster rules (word.toList.drop 1)

/-- Whether a word is an option. -/
def isOption (word : String) : Bool :=
  match word.toList with
  | '-' :: _ :: _ => true
  | _ => false

/-- Read the words of a command line.  Options may stand behind arguments only if they are
`mixed`. -/
def read (rules : List OptionRule) (mixed : Bool) : List String → Outcome Given
  | [] => .ok ⟨[], []⟩
  | word :: rest =>
      if word = "--" then .ok ⟨[], rest⟩
      else if isOption word then
        match optionsOf rules word with
        | .error fault => .error fault
        | .ok ⟨options, none⟩ => do pure ((← read rules mixed rest).prepend options)
        | .ok ⟨options, some (name, key)⟩ =>
            match rest with
            | [] => .error (valueMissing name)
            | value :: others => do
                pure ((← read rules mixed others).prepend (options ++ [(key, some value)]))
      else if mixed then do
        let given ← read rules mixed rest
        pure { given with arguments := word :: given.arguments }
      else .ok ⟨[], word :: rest⟩

end CommandLine
end CodeQuality
