import CodeQuality.Calendar
import CodeQuality.Json.Arithmetic

namespace CodeQuality
namespace Archive

/-!
Reports kept as rows of a table.

Rows are numbered from one in the order of their arrival, and none is ever removed.
A row also holds the moment of its saving, by which reports are listed.  Whole
numbers of a row have 64 bits: a report whose score has more is not saved, and neither
is one for which no number is left.
-/

/-- A row of the table. -/
structure Row where
  number : Nat
  savedAt : Moment
  report : Json

/-- A table of reports, in the order of their arrival. -/
structure Table where
  rows : List Row

namespace Table

/-- A table without reports. -/
def empty : Table := ⟨[]⟩

/-- The fault of a whole number that does not fit into a row. -/
def tooLarge : Fault := .overflow "Python int too large to convert to SQLite INTEGER"

/-- The fault of a table in which every number is in use. -/
def full : Fault := .runtime "database or disk is full"

/-- Whether a whole number has 64 bits. -/
def fits (n : Int) : Bool :=
  decide (-9223372036854775808 ≤ n) && decide (n ≤ 9223372036854775807)

/-- What a row says about a report beside its text: that there is a path, and a score. -/
def scoreOf (report : Json) : Outcome Int := do
  let details ← report.member "meta" (.obj [])
  let _ ← details.member "path" (.str "")
  (← report.member "overall_score" (.int 0)).toInteger

/-- Save a report as the next row. -/
def save (table : Table) (now : Moment) (report : Json) : Outcome (Nat × Table) := do
  let score ← scoreOf report
  if fits score then
    let number := table.rows.length + 1
    if fits number then pure (number, ⟨table.rows ++ [⟨number, now, report⟩]⟩)
    else .error full
  else .error tooLarge

/-- The number that a value stands for when it is compared with the number of a row. -/
def wanted (id : Json) : Outcome (Option Int) :=
  match id with
  | .int n => if fits n then .ok (some n) else .error tooLarge
  | .bool flag => .ok (some (if flag then 1 else 0))
  | .float value =>
      .ok (if value.compareInt value.truncate = some .eq then some value.truncate else none)
  | .str text => .ok ((Json.integerOfText text).toOption)
  | _ => .ok none

/-- The report with a number. -/
def find? (table : Table) (id : Json) : Outcome (Option Json) := do
  match ← wanted id with
  | none => pure none
  | some n => pure ((table.rows.find? fun row => decide ((row.number : Int) = n)).map (·.report))

/-- The rows by the moment of their saving, the newest first; of rows saved at one moment the
lower number is first. -/
def byNewest (table : Table) : List Row :=
  table.rows.mergeSort fun first second => !first.savedAt.isBefore second.savedAt

/-- Some of the reports, the newest first.  A limit below zero is none. -/
def list (table : Table) (limit offset : Int) : Outcome (List Json) :=
  if fits limit && fits offset then
    let rest := table.byNewest.drop offset.toNat
    let shown := if limit < 0 then rest else rest.take limit.toNat
    .ok (shown.map (·.report))
  else .error tooLarge

end Table
end Archive
end CodeQuality
