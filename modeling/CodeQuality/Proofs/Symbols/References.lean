import CodeQuality.Proofs.Outcome
import CodeQuality.Proofs.Text.Scanning
import CodeQuality.Symbols.Reference

namespace CodeQuality
namespace Symbols

/-!
The references of a symbol table.

References are read from the record of a table, and reading a record can fail.  The
record of a table is always read, and gives the references of its functions one after
the other.  What is called has a name without dots, since a name with dots is cut at
its last one.
-/

open Text

/-- The references that the functions of a table make. -/
def tableReferences (table : Table) : List Reference :=
  table.flatMap fun (name, entry) => entry.functions.flatMap fun symbol =>
    referencesIn name (.nat symbol.line) symbol.snippet.toList

/-! ## Reading the record of a table -/

theorem member_toJson (symbol : FunctionSymbol) (absent : Json) :
    symbol.toJson.member "snippet" absent = .ok (.str symbol.snippet) ∧
      symbol.toJson.member "lineno" absent = .ok (.nat symbol.line) := by
  cases parameters : symbol.parameters with
  | none => simp [FunctionSymbol.toJson, Json.member, Json.lookup?, parameters]
  | some names => simp [FunctionSymbol.toJson, Json.member, Json.lookup?, parameters]

theorem moduleReferences_toJson (name : String) (entry : ModuleEntry) :
    moduleReferences name entry.toJson = .ok (entry.functions.flatMap fun symbol =>
      referencesIn name (.nat symbol.line) symbol.snippet.toList) := by
  have functions : entry.toJson.member "functions" (.arr []) =
      .ok (.arr (entry.functions.map (·.toJson))) := rfl
  rw [moduleReferences, functions]
  simp only [bind, Except.bind, Json.elements, List.mapM_map]
  rw [Outcome.mapM_eq_ok]
  rotate_left
  · intro symbol _
    simp only [Function.comp, (member_toJson symbol _).1, (member_toJson symbol _).2]
    rfl
  · rfl

/-- The record of a table is read without fault. -/
theorem references_toJson (table : Table) :
    references table.toJson = .ok (tableReferences table) := by
  have modules : table.toJson.member "modules" (.obj []) =
      .ok (.obj (table.map fun (name, entry) => (name, entry.toJson))) := rfl
  rw [references, modules]
  simp only [bind, Except.bind, List.mapM_map]
  rw [Outcome.mapM_eq_ok]
  rotate_left
  · intro pair _
    exact moduleReferences_toJson pair.1 pair.2
  · rfl

/-! ## Names without dots -/

/-- The words of a name consist of word characters. -/
theorem isWord_of_mem_dottedWords {bound : Nat} {text word : List Char}
    (member : word ∈ (dottedWords bound text).1) : ∀ c ∈ word, isWord c = true := by
  have own : ∀ text : List Char, ∀ c ∈ text.takeWhile isWord, isWord c = true :=
    fun _ _ => List.mem_takeWhile_imp
  fun_induction dottedWords bound text with
  | case1 => cases member
  | case2 bound text first rest next more cut isNext words left deeper ih =>
      rcases List.mem_cons.mp member with equal | later
      · exact equal ▸ own text
      · exact ih (deeper ▸ later)
  | case3 bound text =>
      rw [List.mem_singleton.mp member]
      exact own text
  | case4 bound text =>
      rw [List.mem_singleton.mp member]
      exact own text

theorem isWord_of_callee {text left : List Char} {words : List (List Char)}
    (read : callee text = some (words, left)) : ∀ word ∈ words, ∀ c ∈ word, isWord c = true := by
  rw [callee] at read
  by_cases starts : startsWithWord text = true
  · rw [if_pos starts] at read
    cases cut : dottedWords text.length text with
    | mk parts rest =>
        have own : ∀ word ∈ parts, ∀ c ∈ word, isWord c = true := by
          intro word member
          rw [← show (dottedWords text.length text).1 = parts from congrArg Prod.fst cut] at member
          exact isWord_of_mem_dottedWords member
        simp only [cut] at read
        split at read
        · cases read
          exact own
        · cases read
  · rw [if_neg starts] at read
    cases read

/-- What a function refers to has a name without dots. -/
theorem point_notMem_calleeName {caller : String} {line : Json} {snippet : List Char}
    {reference : Reference} (member : reference ∈ referencesIn caller line snippet) :
    '.' ∉ reference.calleeName.toList := by
  rcases List.mem_map.mp member with ⟨found, matched, rfl⟩
  rcases scan_of_mem_matchesFrom matched with ⟨left, read⟩
  rw [String.toList_ofList]
  intro inside
  cases last : found.value.getLast? with
  | none =>
      rw [List.getLastD_eq_getLast?, last] at inside
      cases inside
  | some word =>
      rw [List.getLastD_eq_getLast?, last] at inside
      have isWord := isWord_of_callee read word (List.mem_of_getLast? last) '.' inside
      exact absurd isWord (by decide)

theorem point_notMem_of_tableReferences {table : Table} {reference : Reference}
    (member : reference ∈ tableReferences table) : '.' ∉ reference.calleeName.toList := by
  rcases List.mem_flatMap.mp member with ⟨pair, _, below⟩
  rcases List.mem_flatMap.mp below with ⟨symbol, _, inside⟩
  exact point_notMem_calleeName inside

end Symbols
end CodeQuality
