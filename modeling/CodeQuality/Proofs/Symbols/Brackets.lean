import CodeQuality.Proofs.Symbols.DottedNames
import CodeQuality.Proofs.Text.Matches

namespace CodeQuality
namespace Symbols

open Text List

/-!
References and brackets.

References are found by a pattern that is tried from left to right.  They can be told
without the pattern: every opening bracket with a word character before it, blanks left
aside, is one reference, and what it refers to is the longest name with dots that ends
there.  No match takes a bracket from another one, since a match has one bracket only, at
its end, and the next one is looked for behind it.
-/

/-! ## Brackets -/

/-- What stands before a place of a text, without the blanks at its end. -/
def stem (text : List Char) (place : Nat) : List Char := trimRight (text.take place)

/-- Whether an opening bracket stands at a place and a word character before it, with nothing but
blanks between them. -/
def isCallAt (text : List Char) (place : Nat) : Bool :=
  text[place]? == some '(' && (stem text place).getLast?.any isWord

/-- The places of such brackets from a place on. -/
def callPlacesFrom (text : List Char) (place : Nat) : List Nat :=
  (range' place (text.length - place)).filter (isCallAt text)

/-- A name that ends before a bracket, blanks left aside, with what stands in front of it. -/
structure NameAt (text : List Char) (place : Nat) (words : List (List Char))
    (front name : List Char) : Prop where
  spells : Spells words name
  parts : stem text place = front ++ name
  bracket : text[place]? = some '('

theorem trimRight_append_blanks {text blanks : List Char} {c : Char}
    (last : text.getLast? = some c) (letter : isWord c = true)
    (clear : ∀ c ∈ blanks, isBlank c = true) : trimRight (text ++ blanks) = text := by
  have kept : isBlank c ≠ true := by
    intro blank
    rw [isWord_of_isBlank blank] at letter
    cases letter
  rcases getLast?_eq_some_iff.mp last with ⟨front, rfl⟩
  rw [trimRight, reverse_append, dropWhile_append_of_pos, reverse_append,
    reverse_singleton, singleton_append, dropWhile_cons_of_neg kept,
    reverse_cons, reverse_reverse]
  exact fun a member => clear a (mem_reverse.mp member)

theorem exists_blanks (text : List Char) :
    ∃ blanks, (∀ c ∈ blanks, isBlank c = true) ∧ text = trimRight text ++ blanks :=
  ⟨text.rtakeWhile isBlank, fun _ => mem_rtakeWhile_imp,
    rdropWhile_append_rtakeWhile.symm⟩

namespace NameAt

variable {text : List Char} {place : Nat} {words : List (List Char)} {front name : List Char}

/-- The text around a name. -/
theorem exists_whole (named : NameAt text place words front name) :
    ∃ blanks, (∀ c ∈ blanks, isBlank c = true) ∧
      place = front.length + (name.length + blanks.length) ∧
      text = front ++ (name ++ (blanks ++ '(' :: text.drop (place + 1))) := by
  rcases exists_blanks (text.take place) with ⟨blanks, clear, before⟩
  rcases List.getElem?_eq_some_iff.mp named.bracket with ⟨inside, bracket⟩
  rw [show trimRight (text.take place) = front ++ name from named.parts] at before
  refine ⟨blanks, clear, ?_, ?_⟩
  · have length := congrArg length before
    rw [length_take, length_append, length_append] at length
    omega
  · have behind : text.drop place = '(' :: text.drop (place + 1) := by
      rw [drop_eq_getElem_cons inside, bracket]
    rw [← behind, ← append_assoc, ← append_assoc, ← before, take_append_drop]

/-- Between the start of a name and its bracket there is no other bracket. -/
theorem no_bracket (named : NameAt text place words front name) {other : Nat}
    (behind : front.length ≤ other) (before : other < place) : text[other]? ≠ some '(' := by
  intro found
  rcases named.exists_whole with ⟨blanks, clear, length, whole⟩
  have inside : other - front.length < (name ++ blanks).length := by
    rw [length_append]
    omega
  rw [whole, getElem?_append_right behind, ← append_assoc,
    getElem?_append_left inside] at found
  rcases mem_append.mp (mem_of_getElem? found) with member | member
  · exact named.spells.bracket_notMem member
  · exact absurd (isBlank_bracket.symm.trans (clear _ member)) Bool.false_ne_true

theorem isCallAt (named : NameAt text place words front name) : isCallAt text place = true := by
  rcases named.spells.getLast?_eq with ⟨c, last, letter⟩
  rw [Symbols.isCallAt, named.bracket, named.parts, getLast?_append, last]
  exact letter

end NameAt

theorem nameAt_of_whole {text front name blanks left : List Char} {words : List (List Char)}
    (spells : Spells words name) (clear : ∀ c ∈ blanks, isBlank c = true)
    (whole : text = front ++ (name ++ (blanks ++ '(' :: left))) :
    NameAt text (front.length + (name.length + blanks.length)) words front name where
  spells := spells
  parts := by
    rcases spells.getLast?_eq with ⟨c, last, letter⟩
    have before : text.take (front.length + (name.length + blanks.length)) =
        front ++ name ++ blanks := by
      rw [whole, ← append_assoc, ← append_assoc, ← length_append,
        ← length_append, ← append_assoc, take_left]
    rw [stem, before]
    refine trimRight_append_blanks ?_ letter clear
    rw [getLast?_append, last]
    rfl
  bracket := by
    rw [whole, getElem?_append_right (Nat.le_add_right _ _), Nat.add_sub_cancel_left,
      getElem?_append_right (Nat.le_add_right _ _), Nat.add_sub_cancel_left,
      getElem?_append_right (Nat.le_refl _), Nat.sub_self]
    rfl

variable {text : List Char} {place : Nat}

/-- A bracket with a word character before it has a longest name before it. -/
theorem exists_nameAt_of_isCallAt (call : isCallAt text place = true) :
    ∃ words front name, NameAt text place words front name ∧
      IsLongestName (stem text place) name := by
  rw [isCallAt, Bool.and_eq_true, beq_iff_eq] at call
  rcases (Option.any_eq_true _ _).mp call.2 with ⟨c, last, letter⟩
  rcases exists_isLongestName last letter with ⟨name, longest⟩
  rcases longest.isName with ⟨words, spells⟩
  rcases longest.ends with ⟨front, parts⟩
  exact ⟨words, front, name, ⟨spells, parts.symm, call.1⟩, longest⟩

/-- What the pattern reads in a text is a name before a bracket. -/
theorem readAt_callee_iff {span : Span (List (List Char))} :
    ReadAt (fun _ => callee) text span ↔
      ∃ place front name, NameAt text place span.value front name ∧
        span.start = front.length ∧ span.stop = place + 1 := by
  constructor
  · intro read
    rcases callee_eq_some_iff.mp read.scanned with ⟨name, blanks, spells, clear, behind⟩
    have within : span.start ≤ text.length := Nat.le_of_lt (Nat.lt_of_lt_of_le read.advances
      read.inside)
    have start : (text.take span.start).length = span.start := length_take_of_le within
    have whole :
        text = text.take span.start ++ (name ++ (blanks ++ '(' :: text.drop span.stop)) := by
      rw [← behind, take_append_drop]
    refine ⟨_, _, name, nameAt_of_whole spells clear whole, start.symm, ?_⟩
    have length := congrArg length behind
    have inside := read.inside
    simp only [length_append, length_cons, length_drop] at length
    omega
  · rintro ⟨place, front, name, named, start, stop⟩
    rcases named.exists_whole with ⟨blanks, clear, length, whole⟩
    refine ⟨by omega, ?_, ?_⟩
    · have inside := (List.getElem?_eq_some_iff.mp named.bracket).1
      omega
    · rw [start, stop]
      refine callee_eq_some_iff.mpr ⟨name, blanks, named.spells, clear, ?_⟩
      nth_rewrite 1 [whole]
      exact drop_left

theorem shortens_callee : Shortens fun _ => callee := by
  intro _ text words left read
  rcases callee_eq_some_iff.mp read with ⟨name, blanks, spells, clear, rfl⟩
  constructor
  · exact ((suffix_cons '(' left).trans (suffix_append blanks _)).trans
      (suffix_append name _)
  · simp only [length_append, length_cons]
    omega

/-! ## One reference for each bracket -/

theorem callPlacesFrom_eq_nil (none : ∀ call, place ≤ call → isCallAt text call = false) :
    callPlacesFrom text place = [] := by
  rw [callPlacesFrom, filter_eq_nil_iff]
  intro call member
  rw [none call (mem_range'_1.mp member).1]
  exact Bool.false_ne_true

theorem callPlacesFrom_eq_cons {call : Nat} (behind : place ≤ call)
    (isCall : isCallAt text call = true)
    (first : ∀ other, place ≤ other → other < call → isCallAt text other = false) :
    callPlacesFrom text place = call :: callPlacesFrom text (call + 1) := by
  have inside : call < text.length := by
    rw [isCallAt, Bool.and_eq_true, beq_iff_eq] at isCall
    exact (List.getElem?_eq_some_iff.mp isCall.1).1
  have places : range' place (text.length - place) =
      range' place (call - place) ++
        call :: range' (call + 1) (text.length - (call + 1)) := by
    rw [← range'_succ, show text.length - place =
      (call - place) + (text.length - (call + 1) + 1) by omega, ← range'_append_1,
      Nat.add_sub_cancel' behind]
  have none : (range' place (call - place)).filter (isCallAt text) = [] := by
    rw [filter_eq_nil_iff]
    intro other member
    have range := mem_range'_1.mp member
    rw [first other range.1 (by omega)]
    exact Bool.false_ne_true
  rw [callPlacesFrom, places, filter_append, none, nil_append,
    filter_cons_of_pos isCall, ← callPlacesFrom]

/-- What is found before a bracket: the words of the longest name there. -/
def Names (text : List Char) (place : Nat) (span : Span (List (List Char))) : Prop :=
  ∃ front name, NameAt text place span.value front name ∧ IsLongestName (stem text place) name

/-- A search that begins in front of a bracket, at the beginning or right behind another bracket,
begins in front of the name before it. -/
theorem NameAt.le_front {text : List Char} {place call : Nat} {words : List (List Char)}
    {front name : List Char} (named : NameAt text call words front name) (behind : place ≤ call)
    (fresh : place = 0 ∨ text[place - 1]? = some '(') : place ≤ front.length := by
  rcases fresh with rfl | bracket
  · exact Nat.zero_le _
  · by_contra inside
    exact named.no_bracket (show front.length ≤ place - 1 by omega) (by omega) bracket

/-- The pattern finds the brackets one after the other.  A search that goes on behind a bracket does
not cut into the next name. -/
theorem names_of_finds {text : List Char} {place : Nat} {spans : List (Span (List (List Char)))}
    (finds : Finds (ReadAt (fun _ => callee) text) place spans)
    (fresh : place = 0 ∨ text[place - 1]? = some '(') :
    Forall₂ (Names text) (callPlacesFrom text place) spans := by
  -- every bracket behind the place can be read from the longest name before it on
  have readable : ∀ place call, (place = 0 ∨ text[place - 1]? = some '(') → place ≤ call →
      isCallAt text call = true → ∃ words front name, NameAt text call words front name ∧
        IsLongestName (stem text call) name ∧ place ≤ front.length ∧
        ReadAt (fun _ => callee) text ⟨front.length, call + 1, words⟩ := by
    intro place call fresh behind isCall
    rcases exists_nameAt_of_isCallAt isCall with ⟨words, front, name, named, longest⟩
    exact ⟨words, front, name, named, longest, named.le_front behind fresh,
      readAt_callee_iff.mpr ⟨call, front, name, named, rfl, rfl⟩⟩
  induction finds with
  | @nothing place none =>
      rw [callPlacesFrom_eq_nil]
      · exact .nil
      · intro call behind
        rw [Bool.eq_false_iff]
        intro isCall
        rcases readable place call fresh behind isCall with ⟨words, front, name, _, _, later, read⟩
        exact none _ read later
  | @next place span rest behind read first others ih =>
      rcases readAt_callee_iff.mp read with ⟨call, front, name, named, start, stop⟩
      have later : place ≤ call := by
        have advances := read.advances
        omega
      have only : ∀ other, place ≤ other → other < call → isCallAt text other = false := by
        intro other onward before
        rw [Bool.eq_false_iff]
        intro isCall
        rcases readable place other fresh onward isCall with
          ⟨words, early, own, ownNamed, _, inside, reading⟩
        have reached : span.start ≤ early.length := first _ reading inside
        rcases ownNamed.exists_whole with ⟨_, _, length, _⟩
        exact named.no_bracket (by omega) before ownNamed.bracket
      rw [callPlacesFrom_eq_cons later named.isCallAt only]
      refine .cons ?_ (stop ▸ ih (Or.inr ?_))
      · rcases readable place call fresh later named.isCallAt with
          ⟨words, early, own, ownNamed, longest, inside, reading⟩
        have reached : span.start ≤ early.length := first _ reading inside
        have parts : front ++ name = early ++ own := named.parts.symm.trans ownNamed.parts
        have shorter : name.length ≤ own.length :=
          longest.longest name ⟨_, named.spells⟩ ⟨front, named.parts.symm⟩
        have lengths := congrArg length parts
        rw [length_append, length_append] at lengths
        cases (append_inj' parts (by omega)).2
        exact ⟨front, name, named, longest⟩
      · rw [stop]
        exact named.bracket

/-! ## What a reference says -/

theorem dotted_singleton (word : List Char) : (dotted [word]).toList = word := by
  rw [dotted, map_singleton, String.intercalate_singleton, String.toList_ofList]

theorem dotted_cons (word : List Char) {words : List (List Char)} (present : words ≠ []) :
    (dotted (word :: words)).toList = word ++ '.' :: (dotted words).toList := by
  rcases exists_cons_of_ne_nil present with ⟨next, more, rfl⟩
  rw [dotted, map_cons, map_cons, String.intercalate_cons_cons, String.toList_append,
    String.toList_append, String.toList_ofList, append_assoc]
  rfl

/-- A name is cut at its last dot. -/
theorem Spells.split {words : List (List Char)} {name : List Char} (spells : Spells words name) :
    '.' ∉ words.getLastD [] ∧
      ((words.dropLast = [] ∧ words.getLastD [] = name ∧ '.' ∉ name) ∨
        (words.dropLast ≠ [] ∧
          name = (dotted words.dropLast).toList ++ '.' :: words.getLastD [])) := by
  induction spells with
  | @last word _ letters =>
      have noPoint : '.' ∉ word := fun member =>
        absurd (isWord_point.symm.trans (letters '.' member)) Bool.false_ne_true
      exact ⟨noPoint, Or.inl ⟨rfl, rfl, noPoint⟩⟩
  | @dot word name words _ _ rest ih =>
      have present : words ≠ [] := by cases rest <;> exact cons_ne_nil _ _
      have same : (word :: words).getLastD [] = words.getLastD [] := by
        rw [getLastD_cons, getLastD_eq_getLast?, getLastD_eq_getLast?,
          getLast?_eq_some_getLast present]
        rfl
      rw [same, dropLast_cons_of_ne_nil present]
      refine ⟨ih.1, Or.inr ⟨cons_ne_nil _ _, ?_⟩⟩
      rcases ih.2 with ⟨single, whole, _⟩ | ⟨several, whole⟩
      · rw [single, whole, dotted_singleton]
      · nth_rewrite 1 [whole]
        rw [dotted_cons word several, append_assoc, cons_append]

/-- A reference is that of a bracket in the text of a function: it refers to the longest name before
the bracket, cut at its last dot; without a dot, to something in the module of the function. -/
structure Refers (home : String) (number : Json) (snippet : List Char) (place : Nat)
    (reference : Reference) : Prop where
  caller : reference.caller = home
  line : reference.line = number
  undotted : '.' ∉ reference.calleeName.toList
  callee : ∃ name, IsLongestName (stem snippet place) name ∧
    (('.' ∉ name ∧ reference.calleeModule = home ∧ reference.calleeName.toList = name) ∨
      name = reference.calleeModule.toList ++ '.' :: reference.calleeName.toList)

/-- The places of the brackets of a text with a word character before them, blanks left aside. -/
def callPlaces (text : List Char) : List Nat := (range text.length).filter (isCallAt text)

theorem refers_referencesIn (caller : String) (line : Json) (snippet : List Char) :
    Forall₂ (Refers caller line snippet) (callPlaces snippet)
      (referencesIn caller line snippet) := by
  have found := names_of_finds (finds_findMatches shortens_callee snippet) (Or.inl rfl)
  rw [forall₂_map_right_iff] at found
  rw [callPlaces, range_eq_range', ← Nat.sub_zero snippet.length, ← callPlacesFrom,
    referencesIn, forall₂_map_right_iff]
  refine found.imp fun place matched names => ?_
  rcases names with ⟨front, name, named, longest⟩
  rcases Spells.split (show Spells matched.value name from named.spells) with ⟨undotted, cut⟩
  rw [← @String.toList_ofList (matched.value.getLastD [])] at undotted cut
  refine ⟨rfl, rfl, undotted, name, longest, ?_⟩
  rcases cut with ⟨single, whole, noPoint⟩ | ⟨several, whole⟩
  · exact Or.inl ⟨noPoint, if_pos (isEmpty_iff.mpr single), whole⟩
  · right
    simp only [isEmpty_eq_false_iff.mpr several, Bool.false_eq_true, if_false]
    exact whole

/-! ## Symbol tables -/

/-- The text of a function in a symbol table. -/
def snippetOf (function : Json) : String :=
  (((function.get? "snippet").getD (.str "")).text?).getD ""

/-- The line of a function in a symbol table. -/
def lineOf (function : Json) : Json := (function.get? "lineno").getD .null

/-- The functions of a module in a symbol table. -/
def recordedFunctions (entry : Json) : List Json :=
  match (entry.get? "functions").getD (.arr []) with
  | .arr functions => functions
  | _ => []

/-- The functions of a symbol table, each with the name of its module. -/
def callersIn (table : Json) : List (String × Json) :=
  match (table.get? "modules").getD (.obj []) with
  | .obj modules => modules.flatMap fun (name, entry) => (recordedFunctions entry).map (name, ·)
  | _ => []

/-- A symbol table whose snippets are texts.  Modules, functions and snippets may be missing. -/
def HasTexts (table : Json) : Prop :=
  ∃ modules, table.member "modules" (.obj []) = .ok (.obj modules) ∧
    ∀ entry ∈ modules, ∃ functions, entry.2.member "functions" (.arr []) = .ok (.arr functions) ∧
      ∀ function ∈ functions, ∃ text, function.member "snippet" (.str "") = .ok (.str text)

/-- What is read under a key of a record is its member, or what stands in for it. -/
theorem exists_members {record absent value : Json} {key : String}
    (read : record.member key absent = .ok value) :
    ∃ members, record = .obj members ∧ (record.get? key).getD absent = value := by
  cases record with
  | obj members => exact ⟨members, rfl, Except.ok.inj read⟩
  | _ => cases read

theorem member_of_text {function : Json} {text : String}
    (read : function.member "snippet" (.str "") = .ok (.str text)) :
    snippetOf function = text ∧ function.member "lineno" .null = .ok (lineOf function) := by
  rcases exists_members read with ⟨members, rfl, own⟩
  rw [snippetOf, own]
  exact ⟨rfl, rfl⟩

theorem moduleReferences_eq {entry : Json} {functions : List Json}
    (listed : entry.member "functions" (.arr []) = .ok (.arr functions))
    (texts : ∀ function ∈ functions, ∃ text,
      function.member "snippet" (.str "") = .ok (.str text)) (name : String) :
    moduleReferences name entry = .ok ((recordedFunctions entry).flatMap fun function =>
      referencesIn name (lineOf function) (snippetOf function).toList) := by
  rcases exists_members listed with ⟨members, -, own⟩
  rw [recordedFunctions, own, moduleReferences, listed]
  simp only [bind, Except.bind, Json.elements]
  rw [Outcome.mapM_eq_ok]
  rotate_left
  · intro function member
    rcases texts function member with ⟨text, read⟩
    rcases member_of_text read with ⟨own, line⟩
    simp only [read, line, ← own]
    rfl
  · rfl

/-- The references of a symbol table are, function by function, those of the brackets in the texts
of the functions that have a word character before them, blanks left aside: one for each, in order,
to the longest name with dots before it. -/
theorem references_are_brackets {table : Json} (texts : HasTexts table) :
    ∃ found, references table = .ok found.flatten ∧
      Forall₂ (fun caller own => Forall₂
          (Refers caller.1 (lineOf caller.2) (snippetOf caller.2).toList)
          (callPlaces (snippetOf caller.2).toList) own)
        (callersIn table) found := by
  rcases texts with ⟨modules, listed, each⟩
  refine ⟨(callersIn table).map fun caller =>
    referencesIn caller.1 (lineOf caller.2) (snippetOf caller.2).toList, ?_, ?_⟩
  · rcases exists_members listed with ⟨members, -, own⟩
    rw [references, listed, callersIn, own]
    simp only [bind, Except.bind]
    rw [Outcome.mapM_eq_ok]
    rotate_left
    · intro entry member
      rcases each entry member with ⟨functions, recorded, read⟩
      exact moduleReferences_eq recorded read entry.1
    · simp only [← flatMap_def, flatMap_assoc, flatMap_map]
      rfl
  · rw [forall₂_map_right_iff]
    exact forall₂_same.mpr fun caller _ => refers_referencesIn _ _ _

/-- The text of a function with two dots in a row, and with blanks before a bracket. -/
def dottedSnippet : String := "x..y.z \n(d(1)) (2"

/-- A symbol table with that function. -/
def dottedTable : Json :=
  .obj [("modules", .obj [("m", .obj [("functions", .arr [.obj [("name", .str "f"),
    ("lineno", .int 3), ("snippet", .str dottedSnippet)]])])])]

/-- The first two brackets are references, to `y.z` and to `d`; the last one has no name before
it. -/
theorem dottedTable_references :
    HasTexts dottedTable ∧ callPlaces dottedSnippet.toList = [8, 10] ∧
      (references dottedTable).toOption.map (map fun reference =>
        (reference.caller, reference.calleeModule, reference.calleeName)) =
          some [("m", "y", "z"), ("m", "m", "d")] ∧
      ∃ found, references dottedTable = .ok found.flatten ∧
        Forall₂ (fun caller own => Forall₂
            (Refers caller.1 (lineOf caller.2) (snippetOf caller.2).toList)
            (callPlaces (snippetOf caller.2).toList) own)
          (callersIn dottedTable) found := by
  have texts : HasTexts dottedTable := by
    refine ⟨_, rfl, ?_⟩
    intro entry member
    cases mem_singleton.mp member
    refine ⟨_, rfl, ?_⟩
    intro function listed
    cases mem_singleton.mp listed
    exact ⟨_, rfl⟩
  exact ⟨texts, by decide +kernel, by decide +kernel, references_are_brackets texts⟩

end Symbols
end CodeQuality
