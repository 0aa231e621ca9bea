import CodeQuality.Proofs.Text.Matches
import CodeQuality.Proofs.Text.Patterns
import CodeQuality.Script.Function

namespace CodeQuality
namespace Script

open Text List

/-!
Heads of functions as patterns.

A head is looked for by a scanner, which takes each part of it as far as it goes and
never goes back.  The heads are written here as patterns, for which all ways of a match
count.  A part that could also be shorter is always followed by something that cannot
begin with one of its own characters, so a head is matched in one way at most, and the
scanners find it.
-/

/-- One pattern after the other. -/
def inTurn (patterns : List Pattern) : Pattern := patterns.foldr .next (.word [])

/-- A pattern of a head: what it can open with, in the order in which it is tried, the name, which is
remembered, and what stands behind the name. -/
structure HeadPattern where
  openings : List Pattern
  name : Pattern
  ending : Pattern

/-- The ways in which a pattern matches the front of a text, the preferred one first: the name, and
what is left of the text. -/
def HeadPattern.ways (pattern : HeadPattern) (text : List Char) : List (List Char × List Char) :=
  pattern.openings.flatMap fun opening =>
    (opening.rests text).flatMap fun start =>
      (pattern.name.rests start).flatMap fun stop =>
        (pattern.ending.rests stop).map fun left =>
          (start.take (start.length - stop.length), left)

/-- Any number of blanks. -/
def blanks : Pattern := .most isBlank

/-- A name of at least one character. -/
def nameRun : Pattern := .next (.one isNameChar) (.most isNameChar)

/-- Anything in brackets, up to the first one that closes. -/
def parameters : List Pattern :=
  [.word "(".toList, .most (fun c => decide (c ≠ ')')), .word ")".toList]

/-- The brace that opens a body, with blanks before it. -/
def brace : List Pattern := [blanks, .word "\x7b".toList]

/-- An opening word with blanks behind it. -/
def opening (word : String) : Pattern := inTurn [.word word.toList, blankRun]

/-- The head of a declaration. -/
def declarationPattern : HeadPattern :=
  ⟨[opening "function"], nameRun, inTurn (blanks :: parameters ++ brace)⟩

/-- The head of a function that is given to a variable. -/
def variablePattern (value : List Pattern) : HeadPattern :=
  ⟨[opening "const", opening "let", opening "var"], nameRun,
    inTurn (blanks :: .word "=".toList :: blanks :: value)⟩

/-- The patterns of heads, in the order in which they are looked for. -/
def headPatterns : List HeadPattern :=
  [declarationPattern,
    variablePattern (.word "function".toList :: blanks :: parameters ++ brace),
    variablePattern (parameters ++ blanks :: .word "=>".toList :: brace),
    variablePattern (nameRun :: blanks :: .word "=>".toList :: brace)]

/-! ## Patterns that match in one way -/

/-- A pattern matches a text in one way at most, and a step finds it. -/
def Reads (pattern : Pattern) (step : List Char → Option (List Char)) : Prop :=
  ∀ text, pattern.rests text = (step text).toList

/-- A pattern matches no text that begins with a character of a class. -/
def Refuses (pattern : Pattern) (isMember : Char → Bool) : Prop :=
  ∀ c rest, isMember c = true → pattern.rests (c :: rest) = []

section

variable {pattern : Pattern} {step : List Char → Option (List Char)} {isMember : Char → Bool}

variable {β : Type} {rest : List Pattern}

/-- Of the ways to take characters of a class only the longest goes on if nothing that follows begins
with one of them. -/
theorem flatMap_rests_most {next : List Char → List β}
    (refuses : ∀ c rest, isMember c = true → next (c :: rest) = []) (text : List Char) :
    ((Pattern.most isMember).rests text).flatMap next = next (text.dropWhile isMember) := by
  rw [Pattern.rests]
  induction text with
  | nil => exact append_nil _
  | cons c rest ih =>
      by_cases member : isMember c = true
      · rw [stops, if_pos member, reverse_cons, flatMap_append, flatMap_singleton,
          refuses c rest member, append_nil, ih, dropWhile_cons_of_pos member]
      · rw [stops, if_neg member, dropWhile_cons_of_neg member]
        exact append_nil _

/-- The same for runs of at least one character. -/
theorem flatMap_rests_run {next : List Char → List β}
    (refuses : ∀ c rest, isMember c = true → next (c :: rest) = []) (text : List Char) :
    ((Pattern.next (.one isMember) (.most isMember)).rests text).flatMap next =
      (run? isMember text).toList.flatMap fun found => next found.2 := by
  cases text with
  | nil => rfl
  | cons c rest =>
      change ((if isMember c then [rest] else []).flatMap (Pattern.most isMember).rests).flatMap
        next = _
      by_cases member : isMember c = true
      · rw [if_pos member, flatMap_singleton, flatMap_rests_most refuses, run?,
          takeWhile_cons_of_pos member, dropWhile_cons_of_pos member]
        exact (append_nil _).symm
      · rw [if_neg member, run?, takeWhile_cons_of_neg member]
        rfl

/-! ### One way at most -/

theorem toList_flatMap_toList {α : Type} (first : Option α) (next : α → Option β) :
    (first.toList.flatMap fun value => (next value).toList) = (first.bind next).toList := by
  cases first with
  | none => rfl
  | some value => exact append_nil _

theorem reads_nothing : Reads (inTurn []) some := fun text => by
  rw [inTurn, foldr_nil, Pattern.rests, after?_eq_some_iff.mpr (nil_append text).symm]

theorem Reads.word (reads : Reads (inTurn rest) step) (mark : List Char) :
    Reads (inTurn (.word mark :: rest)) fun text => (after? mark text).bind step := by
  intro text
  change ((after? mark text).toList).flatMap (inTurn rest).rests = _
  rw [← toList_flatMap_toList]
  congr 1
  funext left
  exact reads left

theorem Reads.most (reads : Reads (inTurn rest) step) (refuses : Refuses (inTurn rest) isMember) :
    Reads (inTurn (.most isMember :: rest)) fun text => step (text.dropWhile isMember) := by
  intro text
  exact (flatMap_rests_most refuses text).trans (reads _)

theorem Reads.run (reads : Reads (inTurn rest) step) (refuses : Refuses (inTurn rest) isMember) :
    Reads (inTurn (.next (.one isMember) (.most isMember) :: rest)) fun text =>
      (run? isMember text).bind fun found => step found.2 := by
  intro text
  refine (flatMap_rests_run refuses text).trans ?_
  rw [← toList_flatMap_toList]
  congr 1
  funext found
  exact reads found.2

/-! ### What a pattern does not begin with -/

theorem refuses_word {mark : List Char} {c : Char} (front : mark.head? = some c)
    (other : isMember c = false) (rest : List Pattern) :
    Refuses (inTurn (.word mark :: rest)) isMember := by
  intro d text member
  have absent : after? mark (d :: text) = none := by
    rcases head?_eq_some_iff.mp front with ⟨more, rfl⟩
    rw [after?_eq_none_iff, cons_prefix_cons]
    rintro ⟨rfl, -⟩
    rw [other] at member
    cases member
  change ((after? mark (d :: text)).toList).flatMap _ = _
  rw [absent]
  rfl

theorem refuses_run {isOther : Char → Bool} (apart : ∀ c, isMember c = true → isOther c = false)
    (more : Pattern) (rest : List Pattern) :
    Refuses (inTurn (.next (.one isOther) more :: rest)) isMember := by
  intro c text member
  change ((if isOther c then [text] else []).flatMap more.rests).flatMap _ = _
  rw [apart c member]
  rfl

theorem Refuses.most {isOther : Char → Bool} (refuses : Refuses (inTurn rest) isMember)
    (apart : ∀ c, isMember c = true → isOther c = false) :
    Refuses (inTurn (.most isOther :: rest)) isMember := by
  intro c text member
  change ((stops isOther (c :: text)).reverse).flatMap (inTurn rest).rests = _
  rw [stops, apart c member]
  exact (append_nil _).trans (refuses c text member)

/-! ## The parts of a head -/

/-- No character of a name is a blank. -/
theorem isBlank_of_isNameChar (c : Char) (member : isNameChar c = true) : isBlank c = false := by
  have between : 33 ≤ c.toNat ∧ c.toNat ≤ 122 := by
    simp only [isNameChar, Bool.or_eq_true, Bool.and_eq_true, decide_eq_true_eq, beq_iff_eq,
      Char.le_def, UInt32.le_iff_toNat_le] at member
    rcases member with (((⟨low, high⟩ | ⟨low, high⟩) | ⟨low, high⟩) | rfl) | rfl
    · exact ⟨Nat.le_trans (by decide) low, Nat.le_trans high (by decide)⟩
    · exact ⟨Nat.le_trans (by decide) low, Nat.le_trans high (by decide)⟩
    · exact ⟨Nat.le_trans (by decide) low, Nat.le_trans high (by decide)⟩
    · decide
    · decide
  rw [← Bool.not_eq_true]
  intro blank
  simp only [isBlank, Bool.or_eq_true, Bool.and_eq_true, decide_eq_true_eq, beq_iff_eq] at blank
  omega

theorem isNameChar_of_isBlank (c : Char) (blank : isBlank c = true) : isNameChar c = false := by
  rw [← Bool.not_eq_true]
  intro member
  rw [isBlank_of_isNameChar c member] at blank
  cases blank

theorem Reads.symbol (reads : Reads (inTurn rest) step) {symbol : String} {c : Char}
    (front : symbol.toList.head? = some c) (other : isBlank c = false) :
    Reads (inTurn (blanks :: .word symbol.toList :: rest)) fun text =>
      (afterSymbol? symbol text).bind step :=
  (reads.word symbol.toList).most (refuses_word front other rest)

theorem reads_brace : Reads (inTurn brace) (afterSymbol? "\x7b") := by
  intro text
  have reads : (inTurn brace).rests text = ((afterSymbol? "\x7b" text).bind some).toList :=
    reads_nothing.symbol rfl (by decide) text
  rw [reads, Option.bind_fun_some]

theorem Reads.parameters (reads : Reads (inTurn rest) step) :
    Reads (inTurn (parameters ++ rest)) fun text => (afterParameters? text).bind step := by
  intro text
  have refuses : Refuses (inTurn (.word ")".toList :: rest)) fun c => decide (c ≠ ')') :=
    refuses_word rfl (by decide) rest
  have closed := ((reads.word ")".toList).most refuses).word "(".toList
  refine (closed text).trans (congrArg Option.toList ?_)
  simp only
  cases text with
  | nil => rfl
  | cons c more =>
      by_cases bracket : c = '('
      · subst bracket
        rfl
      · have absent : after? "(".toList (c :: more) = none := by
          rw [after?_eq_none_iff]
          exact fun front => bracket (cons_prefix_cons.mp front).1.symm
        have none : afterParameters? (c :: more) = none :=
          afterParameters?.eq_2 (c :: more) fun rest same => bracket (cons.inj same).1
        rw [absent, none]
        rfl

/-! ## Names and what stands around them -/

/-- Take the blanks behind an opening word, a name and what stands behind it. -/
def named (step : List Char → Option (List Char)) (text : List Char) :
    Option (List Char × List Char) :=
  (afterBlanks? text).bind fun start =>
    (run? isNameChar start).bind fun found => (step found.2).map fun left => (found.1, left)

theorem map_snd_run? (text : List Char) : (run? isBlank text).map Prod.snd = afterBlanks? text := by
  cases text with
  | nil => rfl
  | cons c rest =>
      by_cases blank : isBlank c = true
      · rw [run?, takeWhile_cons_of_pos blank, dropWhile_cons_of_pos blank, afterBlanks?,
          if_pos blank]
        rfl
      · rw [run?, takeWhile_cons_of_neg blank, afterBlanks?, if_neg blank]
        rfl

/-- What is taken is what stands before the rest. -/
theorem take_run? {text : List Char} {found : List Char × List Char}
    (taken : run? isMember text = some found) :
    text.take (text.length - found.2.length) = found.1 := by
  have parts : found = (text.takeWhile isMember, text.dropWhile isMember) := by
    unfold run? at taken
    split at taken
    next => cases taken
    next => exact (Option.some.inj taken).symm
  have lengths := congrArg length (takeWhile_append_dropWhile (p := isMember) (l := text))
  rw [length_append] at lengths
  have taking : text.length - (text.dropWhile isMember).length =
      (text.takeWhile isMember).length := by omega
  rw [parts, taking]
  exact (prefix_iff_eq_take.mp (List.takeWhile_prefix isMember)).symm

theorem flatMap_nameRun {ending : Pattern} (reads : Reads ending step)
    (refuses : Refuses ending isNameChar) (start : List Char) :
    ((nameRun.rests start).flatMap fun stop => (ending.rests stop).map fun left =>
        (start.take (start.length - stop.length), left)) =
      ((run? isNameChar start).bind fun found =>
        (step found.2).map fun left => (found.1, left)).toList := by
  rw [nameRun, flatMap_rests_run]
  · rw [← toList_flatMap_toList]
    cases taken : run? isNameChar start with
    | none => rfl
    | some found =>
        rw [Option.toList_some, flatMap_singleton, flatMap_singleton, reads found.2,
          take_run? taken, Option.toList_map]
  · intro c rest member
    rw [refuses c rest member]
    rfl

theorem ways_eq (words : List String) {ending : Pattern} (reads : Reads ending step)
    (refuses : Refuses ending isNameChar) (text : List Char) :
    HeadPattern.ways ⟨words.map opening, nameRun, ending⟩ text =
      words.flatMap fun word => ((after? word.toList text).bind (named step)).toList := by
  rw [HeadPattern.ways, flatMap_map]
  congr 1
  funext word
  have alone : (inTurn []).rests = fun text => [text] := funext reads_nothing
  change (((after? word.toList text).toList).flatMap fun rest =>
    (blankRun.rests rest).flatMap (inTurn []).rests).flatMap _ = _
  rw [flatMap_assoc, ← toList_flatMap_toList, alone]
  congr 1
  funext rest
  rw [flatMap_singleton', blankRun, flatMap_rests_run]
  · simp only [flatMap_nameRun reads refuses]
    rw [toList_flatMap_toList, named, ← map_snd_run?, Option.bind_map]
    rfl
  · intro c more blank
    change (((if isNameChar c then [more] else []).flatMap _).flatMap _) = _
    rw [isNameChar_of_isBlank c blank]
    rfl

end

/-! ## The scanners -/

/-- A scanner finds the only way in which a pattern of a head can match. -/
def Scans (head : Scanner String) (pattern : HeadPattern) : Prop :=
  ∀ text, pattern.ways text = ((head text).map fun found => (found.1.toList, found.2)).toList

theorem scans_declaration : Scans declaration declarationPattern := by
  intro text
  have reads : Reads declarationPattern.ending fun text =>
      (afterParameters? (trimLeft text)).bind (afterSymbol? "\x7b") :=
    reads_brace.parameters.most (refuses_word rfl (by decide) _)
  have refuses : Refuses declarationPattern.ending isNameChar :=
    (refuses_word rfl (by decide) _).most isBlank_of_isNameChar
  refine (ways_eq ["function"] reads refuses text).trans ?_
  unfold named declaration
  simp only [flatMap_singleton, Option.bind_eq_bind, Option.bind_assoc, Option.map_eq_bind,
    Function.comp_def, Option.pure_def, Option.bind_some, String.toList_ofList]

/-- A text begins with at most one of the words that open a variable. -/
theorem flatMap_variableWords {β : Type} (next : List Char → Option β) (text : List Char) :
    (["const", "let", "var"].flatMap fun word => ((after? word.toList text).bind next).toList) =
      (((after? "const".toList text) <|> (after? "let".toList text) <|>
        (after? "var".toList text)).bind next).toList := by
  simp only [flatMap_cons, flatMap_nil, append_nil]
  cases first : after? "const".toList text with
  | some rest =>
      rw [after?_eq_some_iff] at first
      have others : after? "let".toList text = none ∧ after? "var".toList text = none := by
        rw [first]
        exact ⟨rfl, rfl⟩
      rw [others.1, others.2]
      exact append_nil _
  | none =>
      cases second : after? "let".toList text with
      | some rest =>
          rw [after?_eq_some_iff] at second
          have other : after? "var".toList text = none := by
            rw [second]
            rfl
          rw [other]
          exact append_nil _
      | none => rfl

/-- The head of a variable, and what reads that which is given to it. -/
theorem scans_variable {head : Scanner String} {value : List Pattern}
    {step : List Char → Option (List Char)} (reads : Reads (inTurn value) step)
    (refuses : Refuses (inTurn value) isBlank)
    (same : ∀ text, head text = (variableHead text).bind fun found =>
      (step found.2).bind fun left => some (found.1, left)) :
    Scans head (variablePattern value) := by
  intro text
  have ending : Reads (variablePattern value).ending fun text =>
      (afterSymbol? "=" text).bind fun rest => step (trimLeft rest) :=
    (reads.most refuses).symbol rfl (by decide)
  have separate : Refuses (variablePattern value).ending isNameChar :=
    (refuses_word rfl (by decide) _).most isBlank_of_isNameChar
  refine (ways_eq ["const", "let", "var"] ending separate text).trans ?_
  rw [flatMap_variableWords, same]
  unfold named variableHead
  simp only [Option.bind_eq_bind, Option.bind_assoc, Option.map_eq_bind, Function.comp_def,
    Option.pure_def, Option.bind_some, String.toList_ofList]

theorem scans_functionVariable : Scans functionVariable
    (variablePattern (.word "function".toList :: blanks :: parameters ++ brace)) := by
  have reads : Reads (inTurn (.word "function".toList :: blanks :: parameters ++ brace))
      fun text => (after? "function".toList text).bind fun rest =>
        (afterParameters? (trimLeft rest)).bind (afterSymbol? "\x7b") :=
    (reads_brace.parameters.most (refuses_word rfl (by decide) _)).word _
  refine scans_variable reads (refuses_word rfl (by decide) _) fun text => ?_
  simp only [functionVariable, Option.bind_eq_bind, Option.bind_assoc, Option.pure_def]

theorem scans_arrowVariable : Scans arrowVariable
    (variablePattern (parameters ++ blanks :: .word "=>".toList :: brace)) := by
  have reads : Reads (inTurn (parameters ++ blanks :: .word "=>".toList :: brace)) fun text =>
      (afterParameters? text).bind fun rest =>
        (afterSymbol? "=>" rest).bind (afterSymbol? "\x7b") :=
    (reads_brace.symbol rfl (by decide)).parameters
  refine scans_variable reads (refuses_word rfl (by decide) _) fun text => ?_
  simp only [arrowVariable, Option.bind_eq_bind, Option.bind_assoc, Option.pure_def]

theorem scans_bareArrowVariable : Scans bareArrowVariable
    (variablePattern (nameRun :: blanks :: .word "=>".toList :: brace)) := by
  have reads : Reads (inTurn (nameRun :: blanks :: .word "=>".toList :: brace)) fun text =>
      (run? isNameChar text).bind fun found =>
        (afterSymbol? "=>" found.2).bind (afterSymbol? "\x7b") :=
    (reads_brace.symbol rfl (by decide)).run
      ((refuses_word rfl (by decide) _).most isBlank_of_isNameChar)
  refine scans_variable reads (refuses_run isNameChar_of_isBlank _ _) fun text => ?_
  simp only [bareArrowVariable, Option.bind_eq_bind, Option.bind_assoc, Option.pure_def]

/-- The scanners of heads belong to the patterns one by one. -/
theorem scans_heads : Forall₂ Scans heads headPatterns :=
  .cons scans_declaration (.cons scans_functionVariable
    (.cons scans_arrowVariable (.cons scans_bareArrowVariable .nil)))

end Script
end CodeQuality
