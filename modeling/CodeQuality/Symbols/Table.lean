import CodeQuality.Files.Walk
import CodeQuality.Syntax.Source
import CodeQuality.Text.Matcher
import CodeQuality.Text.Search

namespace CodeQuality
namespace Symbols

/-!
Symbol tables.

A symbol table says for every module of a repository which functions and classes it
defines and what it imports.  A module is named after its path.  A file that cannot
be read has an entry with a warning.
-/

/-- A function with the beginning of its text.  Functions found by their heads alone have no
list of parameters. -/
structure FunctionSymbol where
  name : String
  line : Nat
  parameters : Option (List String)
  snippet : String
deriving DecidableEq

/-- A class with its methods and their lines. -/
structure ClassSymbol where
  name : String
  line : Nat
  methods : List (String × Nat)
deriving DecidableEq

/-- What is imported, and from where. -/
structure ImportSymbol where
  source : Option String
  names : List String
deriving DecidableEq

/-- What a symbol table says of a module. -/
structure ModuleEntry where
  functions : List FunctionSymbol
  classes : List ClassSymbol
  imports : List ImportSymbol
  warnings : List String
deriving DecidableEq

/-- A symbol table: an entry for each module, in order of first arrival. -/
abbrev Table := List (String × ModuleEntry)

/-! ## Records -/

/-- The record of a function. -/
def FunctionSymbol.toJson (symbol : FunctionSymbol) : Json :=
  .obj ([("name", .str symbol.name), ("lineno", .nat symbol.line)] ++
    (symbol.parameters.map fun names => ("args", Json.texts names)).toList ++
    [("snippet", .str symbol.snippet)])

/-- The record of a class. -/
def ClassSymbol.toJson (symbol : ClassSymbol) : Json :=
  .obj [("name", .str symbol.name), ("lineno", .nat symbol.line),
    ("methods", .arr (symbol.methods.map fun (name, line) =>
      .obj [("name", .str name), ("lineno", .nat line)]))]

/-- The record of an import. -/
def ImportSymbol.toJson (symbol : ImportSymbol) : Json :=
  .obj [("module", .ofText? symbol.source), ("names", .texts symbol.names)]

/-- The record of a module. -/
def ModuleEntry.toJson (entry : ModuleEntry) : Json :=
  .obj [("functions", .arr (entry.functions.map (·.toJson))),
    ("classes", .arr (entry.classes.map (·.toJson))),
    ("imports", .arr (entry.imports.map (·.toJson))), ("warnings", .texts entry.warnings)]

/-- The record of a symbol table. -/
def Table.toJson (table : Table) : Json :=
  .obj [("modules", .obj (table.map fun (name, entry) => (name, entry.toJson)))]

/-! ## Names of modules -/

/-- Put an entry under a name: in place when the name is there, and at the end otherwise. -/
def putEntry (name : String) (entry : ModuleEntry) : Table → Table
  | [] => [(name, entry)]
  | (own, old) :: rest =>
      if own = name then (own, entry) :: rest else (own, old) :: putEntry name entry rest

/-- The name of the module at a path: its names with dots between them, without the characters of
the ending that stand at the end. -/
def moduleName (ending : String) (path : Files.Path) : String :=
  let dotted := (Files.relativeText path).toList.map fun c => if c = '/' then '.' else c
  String.ofList (dotted.reverse.dropWhile ending.toList.contains).reverse

/-- The symbol table of the files with an ending below a directory, each of them read by a
function. -/
def tableOf (ending : String) (read : Files.Path → ModuleEntry) (paths : List Files.Path) : Table :=
  paths.foldl (fun table path => putEntry (moduleName ending path) (read path) table) []

/-- The entry of a file that could not be read. -/
def unreadable (path : Files.Path) (reason : String) : ModuleEntry :=
  ⟨[], [], [], ["Failed to parse " ++ Files.absoluteText path ++ ": " ++ reason]⟩

/-! ## Python modules -/

/-- How much of a function's text is kept. -/
def snippetWidth : Nat := 100

/-- The functions of a syntax tree level by level; asynchronous ones are left out. -/
def functionsOf (source : List Char) (tree : Syntax.Node) : List FunctionSymbol :=
  tree.breadthFirst.filterMap fun node =>
    match node.kind with
    | .function signature =>
        if signature.isAsync then none
        else some ⟨signature.name, node.start.line, some signature.parameters,
          String.ofList ((node.text source).take snippetWidth)⟩
    | _ => none

/-- The methods that a class defines itself. -/
def methodsOf (node : Syntax.Node) : List (String × Nat) :=
  node.children.filterMap fun child =>
    match child.kind with
    | .function signature =>
        if signature.isAsync then none else some (signature.name, child.start.line)
    | _ => none

/-- The classes of a syntax tree level by level. -/
def classesOf (tree : Syntax.Node) : List ClassSymbol :=
  tree.breadthFirst.filterMap fun node =>
    match node.kind with
    | .classDefinition name => some ⟨name, node.start.line, methodsOf node⟩
    | _ => none

/-- The imports of a syntax tree level by level. -/
def importsOf (tree : Syntax.Node) : List ImportSymbol :=
  tree.breadthFirst.filterMap fun node =>
    match node.kind with
    | .imports source names => some ⟨source, names⟩
    | _ => none

/-- The entry of the Python file at a path. -/
def pythonEntry (reader : Syntax.Reader) (files : Files) (path : Files.Path) : ModuleEntry :=
  match files.readStrict path with
  | .error fault => unreadable path fault.message
  | .ok source =>
      match reader.parse source with
      | .error fault => unreadable path fault.message
      | .ok tree => ⟨functionsOf source tree, classesOf tree, importsOf tree, []⟩

/-- The symbol table of the Python files below a path. -/
def pythonTable (reader : Syntax.Reader) (files : Files) (path : String) : Outcome Table := do
  let root ← files.resolve path
  pure (tableOf ".py" (fun file => pythonEntry reader files (root ++ file))
    (files.matching ".py" root))

/-! ## Scripts -/

open Text

/-- The head of a function with a name. -/
def functionHead : Scanner String := fun text => do
  let text ← after? "function".toList text
  let text ← afterBlanks? text
  let (name, text) ← run? isWord text
  let text ← after? ['('] (trimLeft text)
  pure (String.ofList name, text)

/-- The functions of a script. -/
def scriptFunctions (source : List Char) : List FunctionSymbol :=
  (findMatches (fun _ => functionHead) source).map fun found =>
    ⟨found.value, found.line, none, String.ofList (found.text.take found.length)⟩

/-- Whether a character is a quote. -/
def isQuote (c : Char) : Bool := c == '\'' || c == '"'

/-- The last place of a text from which on it looks as wanted; places are counted from an
offset. -/
def lastPlace? (looksRight : List Char → Bool) (offset : Nat) : List Char → Option Nat
  | [] => if looksRight [] then some offset else none
  | c :: rest =>
      match lastPlace? looksRight (offset + 1) rest with
      | some place => some place
      | none => if looksRight (c :: rest) then some offset else none

/-- The text up to the last quote of a line, and what follows the quote. -/
def untilLastQuote? (line : List Char) : Option (List Char × List Char) :=
  (lastPlace? (fun rest => (rest.head?.map isQuote).getD false) 0 line).map fun place =>
    (line.take place, line.drop (place + 1))

/-- What stands between quotes after the word that names the source of an import. -/
def quotedSource? (text : List Char) : Option (List Char × List Char) :=
  match after? " from ".toList text with
  | some (quote :: rest) => if isQuote quote then untilLastQuote? rest else none
  | _ => none

/-- An import statement: the source, which is the text between the last fitting quotes of the
line. -/
def importStatement : Scanner (List Char) := fun text => do
  let text ← after? "import ".toList text
  let line := text.takeWhile (· ≠ '\n')
  let place ← lastPlace? (fun rest => (quotedSource? rest).isSome) 0 line
  let (source, rest) ← quotedSource? (line.drop place)
  pure (source, rest ++ text.dropWhile (· ≠ '\n'))

/-- Whether a text starts with a quote and a closing bracket. -/
def closesRequire (text : List Char) : Bool :=
  match text with
  | quote :: ')' :: _ => isQuote quote
  | _ => false

/-- A call that loads a module: the text between the last fitting quotes of the line. -/
def requireCall : Scanner (List Char) := fun text => do
  let text ← after? "require(".toList text
  match text with
  | quote :: inside =>
      if isQuote quote then
        let line := inside.takeWhile (· ≠ '\n')
        let place ← lastPlace? closesRequire 0 line
        pure (line.take place, line.drop (place + 2) ++ inside.dropWhile (· ≠ '\n'))
      else none
  | [] => none

/-- The sources that a script imports. -/
def scriptImports (source : List Char) : List ImportSymbol :=
  let found := (findMatches (fun _ text => importStatement text <|> requireCall text) source)
  (found.filter fun item => !item.value.isEmpty).map fun item =>
    ⟨some (String.ofList item.value), []⟩

/-- The entry of the script at a path.  With a grammar at hand nothing is taken from the text. -/
def scriptEntry (hasGrammar : Bool) (files : Files) (path : Files.Path) : ModuleEntry :=
  match files.readStrict path with
  | .error fault => unreadable path fault.message
  | .ok source =>
      if hasGrammar then ⟨[], [], [], []⟩
      else ⟨scriptFunctions source, [], scriptImports source, []⟩

/-- The symbol table of the scripts below a path. -/
def scriptTable (hasGrammar : Bool) (files : Files) (path : String) : Outcome Table := do
  let root ← files.resolve path
  pure (tableOf ".js" (fun file => scriptEntry hasGrammar files (root ++ file))
    (files.matching ".js" root))

end Symbols
end CodeQuality
