import CodeQuality.Json.Writer
import CodeQuality.LanguageModel.Answer
import Mathlib.Data.List.TakeWhile

namespace CodeQuality
namespace LanguageModel

/-!
A record is recovered from the words around it.

Whoever looks for a record in a text knows nothing of nesting and of quotes; the text
from the first opening to the last closing brace is taken for it.  The text of a record
begins and ends with a brace of its own, so the braces inside it are never the outermost
ones.  What matters is that no opening brace comes before it and no closing one after it.
That the text of a record can be read back is assumed.
-/

/-! ## The outermost braces -/

theorem dropWhile_ne_append {mark : Char} {front : List Char} (absent : mark ∉ front)
    (rest : List Char) : (front ++ mark :: rest).dropWhile (· ≠ mark) = mark :: rest := by
  have passed : ∀ c ∈ front, decide (c ≠ mark) = true :=
    fun c member => decide_eq_true fun same => absent (same ▸ member)
  rw [List.dropWhile_append_of_pos passed, List.dropWhile_cons_of_neg (by simp)]

variable {text : List Char}

theorem dropWhile_ne_eq_nil {mark : Char} (absent : mark ∉ text) :
    text.dropWhile (· ≠ mark) = [] := by
  rw [List.dropWhile_eq_nil_iff]
  exact fun c member => decide_eq_true fun same => absent (same ▸ member)

theorem untilLastBrace?_append {after : List Char} (unclosed : '\x7d' ∉ after) (front : List Char) :
    untilLastBrace? (front ++ '\x7d' :: after) = some (front ++ ['\x7d']) := by
  have turned : (front ++ '\x7d' :: after).reverse =
      after.reverse ++ '\x7d' :: front.reverse := by simp
  have absent : '\x7d' ∉ after.reverse := fun member => unclosed (List.mem_reverse.mp member)
  simp only [untilLastBrace?, turned, dropWhile_ne_append absent, List.reverse_cons,
    List.reverse_reverse]

theorem untilLastBrace?_eq_none (unclosed : '\x7d' ∉ text) : untilLastBrace? text = none := by
  have absent : '\x7d' ∉ text.reverse := fun member => unclosed (List.mem_reverse.mp member)
  simp only [untilLastBrace?, dropWhile_ne_eq_nil absent]

/-- What stands between the outermost braces is found, whatever braces there are inside. -/
theorem braced?_append {before after : List Char} (unopened : '\x7b' ∉ before)
    (unclosed : '\x7d' ∉ after) (inside : List Char) :
    braced? (before ++ ('\x7b' :: inside ++ ['\x7d']) ++ after) =
      some ('\x7b' :: inside ++ ['\x7d']) := by
  have whole : before ++ ('\x7b' :: inside ++ ['\x7d']) ++ after =
      before ++ '\x7b' :: (inside ++ '\x7d' :: after) := by simp
  have last := untilLastBrace?_append unclosed ('\x7b' :: inside)
  rw [List.cons_append] at last
  simp only [braced?, whole, dropWhile_ne_append unopened, last]

/-- Nothing is found when no closing brace comes behind an opening one. -/
theorem braced?_eq_none (unclosed : ¬ ['\x7b', '\x7d'].Sublist text) : braced? text = none := by
  by_cases opened : '\x7b' ∈ text
  · rcases List.eq_append_cons_of_mem opened with ⟨before, after, rfl, unopened⟩
    have absent : '\x7d' ∉ '\x7b' :: after := by
      intro member
      rcases List.mem_cons.mp member with same | behind
      · exact absurd same (by decide)
      · have follows : ['\x7b', '\x7d'].Sublist ('\x7b' :: after) :=
          (List.singleton_sublist.mpr behind).cons_cons _
        exact unclosed (follows.trans (List.sublist_append_right before _))
    simp only [braced?, dropWhile_ne_append unopened, untilLastBrace?_eq_none absent]
  · simp only [braced?, dropWhile_ne_eq_nil opened]

/-! ## Records -/

/-- The text of a record stands in braces. -/
theorem toList_render_obj (members : List (String × Json)) :
    ∃ inside, (Json.obj members).render.toList = '\x7b' :: inside ++ ['\x7d'] := by
  refine ⟨(", ".intercalate (Json.renderMembers members)).toList, ?_⟩
  rw [Json.render, String.toList_append, String.toList_append]
  rfl

/-- A record that a text holds is recovered if no opening brace comes before it and no closing one
after it, however many there are in the record itself, provided that the record can be read back
from its own text.  A text in which no closing brace comes behind an opening one gives an empty
record. -/
theorem record_is_recovered :
    (∀ (members : List (String × Json)) (before after : String), '\x7b' ∉ before.toList →
      '\x7d' ∉ after.toList →
      Json.load (Json.obj members).render.toList = .ok (.obj members) →
      recordIn (.str (before ++ (Json.obj members).render ++ after)) = .ok (.obj members)) ∧
    ∀ text : String, ¬ ['\x7b', '\x7d'].Sublist text.toList →
      recordIn (.str text) = .ok (.obj []) := by
  constructor
  · intro members before after unopened unclosed readable
    rcases toList_render_obj members with ⟨inside, written⟩
    have found := braced?_append unopened unclosed inside
    rw [← written] at found
    rw [recordIn, String.toList_append, String.toList_append, record, found]
    simp only [readable]
  · intro text unclosed
    rw [recordIn, record, braced?_eq_none unclosed]

/-- A record with braces of every kind: around a nested record, in its key, and in texts. -/
def bracedMembers : List (String × Json) :=
  [("fix_plan", .arr [.str "\x7d \x7b", .obj [("\x7d", .null)]]), ("explanation", .str "\"\x7b")]

/-- The text of the record. -/
def bracedText : String :=
  "\x7b\"fix_plan\": [\"\x7d \x7b\", \x7b\"\x7d\": null\x7d], \"explanation\": \"\\\"\x7b\"\x7d"

/-- The record is recovered from a text with more braces on the harmless sides of it. -/
theorem bracedMembers_recovered :
    recordIn (.str ("Sure \x7d:\n```json\n" ++ (Json.obj bracedMembers).render ++ "\n``` \x7b")) =
        .ok (.obj bracedMembers) ∧
      recordIn (.str "\x7d, but \x7b") = .ok (.obj []) := by
  have written : (Json.obj bracedMembers).render = bracedText := by decide +kernel
  have readable : Json.load (Json.obj bracedMembers).render.toList = .ok (.obj bracedMembers) := by
    rw [written, bracedText, String.toList_ofList]
    rfl
  exact ⟨record_is_recovered.1 bracedMembers _ _ (by decide) (by decide) readable,
    record_is_recovered.2 _ (by decide)⟩

end LanguageModel
end CodeQuality
