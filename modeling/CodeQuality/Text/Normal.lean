import CodeQuality.Text.Blank

namespace CodeQuality
namespace Text

/-!
Normal forms of source text, for comparing pieces of code.

Comments go, runs of blanks become single spaces, and the ends are trimmed.  There
are two forms: one for any source, in which a hash sign opens a comment too, and
one for scripts.
-/

/-- Remove everything from an opening mark up to the end of its line; `inside` says that a
comment is open. -/
def dropLineCommentsFrom (mark : List Char) (inside : Bool) : List Char → List Char
  | [] => []
  | c :: rest =>
      if c = '\n' then '\n' :: dropLineCommentsFrom mark false rest
      else if inside || mark.isPrefixOf (c :: rest) then dropLineCommentsFrom mark true rest
      else c :: dropLineCommentsFrom mark false rest

/-- Remove the comments that a mark opens and the line ends. -/
def dropLineComments (mark : String) (text : List Char) : List Char :=
  dropLineCommentsFrom mark.toList false text

/-- What follows the first end of a block comment, if there is one. -/
def afterBlock? : List Char → Option (List Char)
  | '*' :: '/' :: rest => some rest
  | _ :: rest => afterBlock? rest
  | [] => none

/-- What follows a block comment is shorter than the comment. -/
theorem length_afterBlock? {text rest : List Char} (found : afterBlock? text = some rest) :
    rest.length < text.length := by
  induction text using afterBlock?.induct with
  | case1 more =>
      simp only [afterBlock?, Option.some.injEq] at found
      subst found
      simp only [List.length_cons]
      omega
  | case2 c more shape ih =>
      simp only [afterBlock?] at found
      have shorter := ih found
      simp only [List.length_cons]
      omega
  | case3 => simp [afterBlock?] at found

/-- Remove every block comment that is closed. -/
def dropBlockComments (text : List Char) : List Char :=
  match text with
  | '/' :: '*' :: rest =>
      match _found : afterBlock? rest with
      | some after => dropBlockComments after
      | none => '/' :: dropBlockComments ('*' :: rest)
  | c :: rest => c :: dropBlockComments rest
  | [] => []
termination_by text.length
decreasing_by
  · have shorter := length_afterBlock? _found
    simp only [List.length_cons]
    omega
  · simp only [List.length_cons]
    omega
  · simp only [List.length_cons]
    omega

/-- The normal form of a source text of any language. -/
def normalForm (source : List Char) : List Char :=
  trim <| collapseBlanks <| dropBlockComments <| dropLineComments "//" <| dropLineComments "#" <|
    trim source

/-- The normal form of a script. -/
def scriptForm (source : List Char) : List Char :=
  trim <| collapseBlanks <| dropBlockComments <| dropLineComments "//" source

end Text
end CodeQuality
