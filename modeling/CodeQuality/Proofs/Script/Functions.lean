import CodeQuality.Proofs.Analysis.Latest
import CodeQuality.Proofs.Script.Heads
import CodeQuality.Proofs.Text.Pieces
import Mathlib.Data.List.Forall2

namespace CodeQuality
namespace Script

open Text List

/-!
The functions of a script.

A function stands where one of the patterns of heads matches, and its body reaches from
there to the first brace at which as many braces are closed as were opened since the
head.  Functions with one name on one line are told once, by the first match.
-/

/-- The preferred match of a pattern at a place of a source. -/
structure HeadPattern.FoundAt (pattern : HeadPattern) (source : List Char) (span : Span String) :
    Prop where
  advances : span.start < span.stop
  inside : span.stop ≤ source.length
  preferred : (pattern.ways (source.drop span.start)).head? =
    some (span.value.toList, source.drop span.stop)

/-- A closing brace ends a stretch of a source with as many opening braces as closing ones. -/
structure Closes (source : List Char) (brace stop : Nat) : Prop where
  behind : brace < stop
  closing : source[stop - 1]? = some '\x7d'
  even : (slice source brace stop).count '\x7b' = (slice source brace stop).count '\x7d'

/-- The first brace that does so.  In front of it more braces are opened than closed. -/
structure ClosesFirst (source : List Char) (brace stop : Nat) : Prop
    extends Closes source brace stop where
  first : ∀ earlier, Closes source brace earlier → stop ≤ earlier
  opened : ∀ earlier : Nat, brace < earlier → earlier < stop →
    (slice source brace earlier).count '\x7d' < (slice source brace earlier).count '\x7b'

/-- The body of a function whose head starts at a place and ends in a brace. -/
inductive IsBody (source : List Char) (start brace : Nat) : List Char → Prop
  | closed {stop : Nat} (closes : ClosesFirst source brace stop) :
      IsBody source start brace (slice source start stop)
  | unclosed (never : ∀ stop, ¬ Closes source brace stop) :
      IsBody source start brace (slice source start (brace + 201))

/-- What tells functions apart. -/
def Function.key (function : Function) : String × Nat := (function.name, function.line)

/-- What tells matches apart: the name, and the line on which the match starts. -/
def matchKey (source : List Char) (span : Span String) : String × Nat :=
  (span.value, 1 + (source.take span.start).count '\n')

/-- A function is what a match says. -/
structure Describes (source : List Char) (span : Span String) (function : Function) : Prop where
  key : function.key = matchKey source span
  brace : source[span.stop - 1]? = some '\x7b'
  body : IsBody source span.start (span.stop - 1) function.body

/-! ## Braces -/

/-- So many characters close the braces that are open at the start of a text, and fewer do not. -/
structure ShutsAfter (depth : Nat) (text : List Char) (count : Nat) : Prop where
  present : 0 < count
  closing : text[count - 1]? = some '\x7d'
  even : (text.take count).count '\x7d' = depth + (text.take count).count '\x7b'
  opened : ∀ fewer < count,
    (text.take fewer).count '\x7d' < depth + (text.take fewer).count '\x7b'

/-- The braces that are open at the start of a text are never all closed. -/
def NeverShuts (depth : Nat) (text : List Char) : Prop :=
  ∀ count, (text.take count).count '\x7d' < depth + (text.take count).count '\x7b'

section

variable {depth after : Nat} {c : Char} {rest : List Char}

theorem count_take_cons (brace : Char) (count : Nat) :
    ((c :: rest).take (count + 1)).count brace =
      (rest.take count).count brace + if c = brace then 1 else 0 := by
  rw [take_succ_cons, count_cons]
  simp only [beq_iff_eq]

/-- One character changes how many braces are open. -/
theorem ShutsAfter.cons {count : Nat} (shuts : ShutsAfter after rest count) (positive : 0 < depth)
    (step : after + (if c = '\x7d' then 1 else 0) = depth + if c = '\x7b' then 1 else 0) :
    ShutsAfter depth (c :: rest) (count + 1) where
  present := Nat.succ_pos count
  closing := by
    rcases Nat.exists_eq_succ_of_ne_zero (Nat.ne_of_gt shuts.present) with ⟨fewer, rfl⟩
    exact shuts.closing
  even := by
    have even := shuts.even
    rw [count_take_cons, count_take_cons]
    omega
  opened := by
    intro fewer less
    cases fewer with
    | zero => simpa using positive
    | succ fewer =>
        have opened := shuts.opened fewer (Nat.lt_of_succ_lt_succ less)
        rw [count_take_cons, count_take_cons]
        omega

theorem NeverShuts.cons (never : NeverShuts after rest) (positive : 0 < depth)
    (step : after + (if c = '\x7d' then 1 else 0) = depth + if c = '\x7b' then 1 else 0) :
    NeverShuts depth (c :: rest) := by
  intro count
  cases count with
  | zero => simpa using positive
  | succ count =>
      have opened := never count
      rw [count_take_cons, count_take_cons]
      omega

end

/-- The search for the closing brace, from a point at which some braces are open. -/
theorem closingWidth?_of_open (text : List Char) {depth : Nat} (positive : 0 < depth)
    (width : Nat) :
    (∃ count, closingWidth? depth width text = some (width + count) ∧
        ShutsAfter depth text count) ∨
      closingWidth? depth width text = none ∧ NeverShuts depth text := by
  induction text generalizing depth width with
  | nil =>
      refine .inr ⟨rfl, fun count => ?_⟩
      rw [take_nil, count_nil, count_nil]
      exact positive
  | cons c rest ih =>
      -- whatever number of braces is open behind the character, the search goes on from there
      have onward : ∀ after, 0 < after →
          after + (if c = '\x7d' then 1 else 0) = depth + (if c = '\x7b' then 1 else 0) →
          closingWidth? depth width (c :: rest) = closingWidth? after (width + 1) rest →
          (∃ count, closingWidth? depth width (c :: rest) = some (width + count) ∧
            ShutsAfter depth (c :: rest) count) ∨
          closingWidth? depth width (c :: rest) = none ∧ NeverShuts depth (c :: rest) := by
        intro after opened step same
        rcases ih opened (width + 1) with ⟨count, found, shuts⟩ | ⟨absent, never⟩
        · refine .inl ⟨count + 1, ?_, shuts.cons positive step⟩
          rw [same, found, Nat.add_assoc, Nat.add_comm 1 count]
        · exact .inr ⟨same.trans absent, never.cons positive step⟩
      by_cases opening : c = '\x7b'
      · subst opening
        exact onward (depth + 1) (Nat.succ_pos depth) rfl rfl
      · by_cases closing : c = '\x7d'
        · subst closing
          by_cases last : depth ≤ 1
          · have one : depth = 1 := Nat.le_antisymm last positive
            subst one
            refine .inl ⟨1, rfl, Nat.one_pos, rfl, rfl, fun fewer less => ?_⟩
            rw [Nat.lt_one_iff.mp less]
            exact Nat.one_pos
          · refine onward (depth - 1) (by omega) ?_ ?_
            · rw [if_pos rfl, if_neg (by decide)]
              omega
            · rw [closingWidth?, if_neg opening, if_pos rfl, if_neg last]
        · refine onward depth positive ?_ ?_
          · rw [if_neg opening, if_neg closing]
          · rw [closingWidth?, if_neg opening, if_neg closing]

/-! ## Bodies -/

section

variable {source : List Char}

theorem slice_of_le {start stop : Nat} (forward : start ≤ stop) :
    slice source start stop = (source.drop start).take (stop - start) := by
  rcases Nat.exists_eq_add_of_le forward with ⟨count, rfl⟩
  rw [Int.natCast_add, slice_natCast, Nat.add_sub_cancel_left]

variable {brace : Nat} {rest : List Char}

/-- From an opening brace on, one more brace is open than behind it. -/
theorem count_slice_behind (split : source.drop brace = '\x7b' :: rest) (count : Nat) :
    (slice source brace (brace + 1 + count : Nat)).count '\x7b' =
        1 + (rest.take count).count '\x7b' ∧
      (slice source brace (brace + 1 + count : Nat)).count '\x7d' =
        (rest.take count).count '\x7d' := by
  have width : brace + 1 + count - brace = count + 1 := by omega
  rw [slice_of_le (by omega), width, split, count_take_cons, count_take_cons]
  exact ⟨Nat.add_comm _ _, rfl⟩

theorem closesFirst_of_shutsAfter (split : source.drop brace = '\x7b' :: rest) {count : Nat}
    (shuts : ShutsAfter 1 rest count) : ClosesFirst source brace (brace + 1 + count) := by
  have opened : ∀ earlier : Nat, brace < earlier → earlier < brace + 1 + count →
      (slice source brace earlier).count '\x7d' < (slice source brace earlier).count '\x7b' := by
    intro earlier behind before
    rcases Nat.exists_eq_add_of_le behind with ⟨fewer, rfl⟩
    rw [(count_slice_behind split fewer).1, (count_slice_behind split fewer).2]
    exact shuts.opened fewer (by omega)
  refine ⟨⟨by omega, ?_, ?_⟩, ?_, opened⟩
  · have place : brace + 1 + count - 1 = brace + (1 + (count - 1)) := by
      have present := shuts.present
      omega
    rw [place, ← getElem?_drop, split, Nat.add_comm 1, getElem?_cons_succ]
    exact shuts.closing
  · rw [(count_slice_behind split count).1, (count_slice_behind split count).2]
    exact shuts.even.symm
  · intro earlier closes
    by_contra before
    have more := opened earlier closes.behind (Nat.lt_of_not_le before)
    exact Nat.ne_of_gt more closes.even

theorem not_closes_of_neverShuts (split : source.drop brace = '\x7b' :: rest)
    (never : NeverShuts 1 rest) (stop : Nat) : ¬ Closes source brace stop := by
  intro closes
  rcases Nat.exists_eq_add_of_le closes.behind with ⟨count, rfl⟩
  have even := closes.even
  rw [(count_slice_behind split count).1, (count_slice_behind split count).2] at even
  exact Nat.ne_of_gt (never count) even

/-- The text of a match whose last character is a brace. -/
theorem isBody_bodyOf {found : Match String} (nonempty : 0 < found.length)
    (text : found.text = source.drop found.offset)
    (split : source.drop (found.offset + found.length - 1) = '\x7b' :: rest) :
    IsBody source found.offset (found.offset + found.length - 1) (bodyOf found) := by
  have place : found.offset + (found.length - 1) = found.offset + found.length - 1 := by omega
  have behind : found.text.drop (found.length - 1) = '\x7b' :: rest := by
    rw [text, drop_drop, place, split]
  have search : closingWidth? 0 (found.length - 1) (found.text.drop (found.length - 1)) =
      closingWidth? 1 (found.length - 1 + 1) rest := by
    rw [behind]
    rfl
  rcases closingWidth?_of_open rest Nat.one_pos (found.length - 1 + 1) with
    ⟨count, width, shuts⟩ | ⟨absent, never⟩
  · have body : bodyOf found = slice source found.offset
        (found.offset + found.length - 1 + 1 + count : Nat) := by
      rw [bodyOf, search, width, slice_of_le (by omega), text]
      simp only
      congr 1
      omega
    rw [body]
    exact .closed (closesFirst_of_shutsAfter split shuts)
  · have body : bodyOf found = slice source found.offset
        (found.offset + found.length - 1 + 201 : Nat) := by
      rw [bodyOf, search, absent, slice_of_le (by omega), text]
      simp only [openWidth]
      congr 1
      omega
    rw [body]
    exact .unclosed (not_closes_of_neverShuts split never)

end

/-! ## Matches of the heads -/

/-- The last thing that a pattern of a head matches is a brace. -/
def HeadPattern.EndsInBrace (pattern : HeadPattern) : Prop :=
  ∃ parts, pattern.ending = inTurn (parts ++ [.word "\x7b".toList])

theorem headPatterns_endInBrace : ∀ pattern ∈ headPatterns, pattern.EndsInBrace := by
  simp only [headPatterns, forall_mem_cons]
  refine ⟨⟨blanks :: parameters ++ [blanks], rfl⟩, ?_, ?_, ?_, forall_mem_nil _⟩
  · exact ⟨blanks :: .word "=".toList :: blanks :: .word "function".toList :: blanks ::
      parameters ++ [blanks], rfl⟩
  · exact ⟨blanks :: .word "=".toList :: blanks :: (parameters ++
      [blanks, .word "=>".toList, blanks]), rfl⟩
  · exact ⟨[blanks, .word "=".toList, blanks, nameRun, blanks, .word "=>".toList, blanks], rfl⟩

theorem suffix_of_mem_inTurn {mark : List Char} (parts : List Pattern) {text left : List Char}
    (rest : left ∈ (inTurn (parts ++ [.word mark])).rests text) : mark ++ left <:+ text := by
  induction parts generalizing text with
  | nil =>
      have reads : (inTurn [.word mark]).rests text = ((after? mark text).bind some).toList :=
        reads_nothing.word mark text
      rw [Option.bind_fun_some] at reads
      rw [nil_append, reads, Option.mem_toList, after?_eq_some_iff] at rest
      exact rest ▸ suffix_refl _
  | cons part parts ih =>
      change left ∈ (part.rests text).flatMap (inTurn (parts ++ [.word mark])).rests at rest
      rcases mem_flatMap.mp rest with ⟨middle, front, back⟩
      exact (ih back).trans (part.suffix_of_mem_rests front)

theorem HeadPattern.EndsInBrace.suffix {pattern : HeadPattern} (ends : pattern.EndsInBrace)
    {text : List Char} {way : List Char × List Char} (member : way ∈ pattern.ways text) :
    '\x7b' :: way.2 <:+ text := by
  rcases ends with ⟨parts, ending⟩
  simp only [HeadPattern.ways, mem_flatMap, mem_map, ending] at member
  rcases member with ⟨opening, -, start, opens, stop, named, left, ended, rfl⟩
  exact (suffix_of_mem_inTurn parts ended).trans
    ((pattern.name.suffix_of_mem_rests named).trans (opening.suffix_of_mem_rests opens))

section

variable {head : Scanner String} {pattern : HeadPattern}

theorem Scans.brace_before (scans : Scans head pattern) (ends : pattern.EndsInBrace)
    {text left : List Char} {name : String} (scanned : head text = some (name, left)) :
    '\x7b' :: left <:+ text := by
  have member : (name.toList, left) ∈ pattern.ways text := by
    rw [scans text, scanned]
    exact mem_singleton_self _
  exact ends.suffix member

theorem Scans.shortens (scans : Scans head pattern) (ends : pattern.EndsInBrace) :
    Shortens fun _ => head := by
  intro before text name left scanned
  have brace := scans.brace_before ends scanned
  exact ⟨(suffix_cons _ left).trans brace, brace.length_le⟩

/-- The scanner and the pattern find the same at every place. -/
theorem Scans.foundAt_iff (scans : Scans head pattern) {source : List Char} {span : Span String} :
    pattern.FoundAt source span ↔ ReadAt (fun _ => head) source span := by
  have same : (pattern.ways (source.drop span.start)).head? =
        some (span.value.toList, source.drop span.stop) ↔
      head (source.drop span.start) = some (span.value, source.drop span.stop) := by
    rw [scans, Option.head?_toList]
    constructor
    · intro found
      rcases Option.map_eq_some_iff.mp found with ⟨result, scanned, pair⟩
      rcases Prod.mk.inj pair with ⟨names, lefts⟩
      rw [scanned, ← String.toList_injective names, ← lefts]
    · intro scanned
      rw [scanned]
      rfl
  exact ⟨fun found => ⟨found.advances, found.inside, same.mp found.preferred⟩,
    fun read => ⟨read.advances, read.inside, same.mpr read.scanned⟩⟩

theorem Scans.finds (scans : Scans head pattern) (ends : pattern.EndsInBrace) (source : List Char) :
    Finds (pattern.FoundAt source) 0 ((findMatches (fun _ => head) source).map Match.span) := by
  have same : pattern.FoundAt source = ReadAt (fun _ => head) source :=
    funext fun span => propext scans.foundAt_iff
  rw [same]
  exact finds_findMatches (scans.shortens ends) source

/-- The function of a match, as it is told. -/
def functionOf (found : Match String) : Function := ⟨found.value, found.line, bodyOf found⟩

theorem Scans.describes (scans : Scans head pattern) (ends : pattern.EndsInBrace)
    {source : List Char} {found : Match String}
    (member : found ∈ findMatches (fun _ => head) source) :
    Describes source found.span (functionOf found) := by
  have read : ReadAt (fun _ => head) source found.span :=
    (finds_findMatches (scans.shortens ends) source).reads_of_mem (mem_map_of_mem member)
  rcases placed_of_mem_findMatches member with ⟨text, line⟩
  have advances : found.offset < found.offset + found.length := read.advances
  -- the brace is the character before what the scanner leaves
  have split : source.drop (found.offset + found.length - 1) =
      '\x7b' :: source.drop (found.offset + found.length) := by
    have brace : '\x7b' :: source.drop (found.offset + found.length) <:+ source :=
      (scans.brace_before ends read.scanned).trans (drop_suffix _ _)
    have inside : found.offset + found.length ≤ source.length := read.inside
    rw [suffix_iff_eq_drop.mp brace]
    congr 1
    rw [length_cons, length_drop]
    omega
  refine ⟨?_, ?_, isBody_bodyOf (by omega) text split⟩
  · change (found.value, found.line) = (found.value, _)
    rw [line, lineNumberAfter, Nat.add_comm]
    rfl
  · change source[found.offset + found.length - 1]? = _
    rw [← head?_drop, split]
    rfl

end

/-! ## One function for each name and line -/

theorem distinctFrom_cons (seen : List (String × Nat)) (function : Function)
    (rest : List Function) :
    distinctFrom seen (function :: rest) =
      if seen.contains function.key then distinctFrom seen rest
      else function :: distinctFrom (function.key :: seen) rest := rfl

theorem map_key_distinctFrom (seen : List (String × Nat)) (all : List Function) :
    (distinctFrom seen all).map Function.key =
      ((all.map Function.key).filter fun key => !seen.contains key).eraseDups := by
  induction all generalizing seen with
  | nil => rfl
  | cons function rest ih =>
      by_cases known : seen.contains function.key = true
      · rw [distinctFrom_cons, if_pos known, ih, map_cons,
          filter_cons_of_neg (by simpa using known)]
      · rw [distinctFrom_cons, if_neg known, map_cons, ih, map_cons,
          filter_cons_of_pos (by simpa using known), eraseDups_cons, filter_filter]
        refine congrArg (fun keys => function.key :: eraseDups keys) (filter_congr ?_)
        intro key _
        rw [contains_cons, Bool.not_or]

/-- What is kept is the first of its key, and the key has not been seen before. -/
theorem first_of_mem_distinctFrom {seen : List (String × Nat)} {all : List Function}
    {function : Function} (kept : function ∈ distinctFrom seen all) :
    seen.contains function.key = false ∧
      all.find? (fun other => other.key == function.key) = some function := by
  induction all generalizing seen with
  | nil => cases kept
  | cons first rest ih =>
      by_cases known : seen.contains first.key = true
      · rw [distinctFrom_cons, if_pos known] at kept
        rcases ih kept with ⟨unseen, found⟩
        refine ⟨unseen, (find?_cons_of_neg ?_).trans found⟩
        intro same
        rw [← eq_of_beq same, known] at unseen
        cases unseen
      · rw [distinctFrom_cons, if_neg known] at kept
        rcases mem_cons.mp kept with rfl | later
        · exact ⟨Bool.eq_false_iff.mpr known, find?_cons_of_pos (beq_self_eq_true _)⟩
        · rcases ih later with ⟨unseen, found⟩
          rw [contains_cons, Bool.or_eq_false_iff] at unseen
          refine ⟨unseen.2, (find?_cons_of_neg ?_).trans found⟩
          intro same
          rw [eq_of_beq same, beq_self_eq_true] at unseen
          cases unseen.1

/-- What is found first in one list corresponds to what is found first in another. -/
theorem find?_of_forall₂ {α β : Type} {related : α → β → Prop} {isSought : α → Bool}
    {isFound : β → Bool} {items : List α} {others : List β} (pairs : Forall₂ related items others)
    (same : ∀ item other, related item other → isSought item = isFound other) {other : β}
    (found : others.find? isFound = some other) :
    ∃ item, items.find? isSought = some item ∧ related item other := by
  induction pairs with
  | nil => cases found
  | cons pair _ ih =>
      rw [find?_cons] at found ⊢
      rw [same _ _ pair]
      split at found
      next => exact ⟨_, rfl, Option.some.inj found ▸ pair⟩
      next => exact ih found

/-! ## All matches of the heads -/

theorem scans_of_mem_heads {head : Scanner String} (listed : head ∈ heads) :
    ∃ pattern, Scans head pattern ∧ pattern.EndsInBrace := by
  rcases get_of_mem listed with ⟨place, rfl⟩
  have inside : place.1 < headPatterns.length := Nat.lt_of_lt_of_eq place.2 scans_heads.length_eq
  exact ⟨headPatterns.get ⟨place, inside⟩, scans_heads.get place.2 inside,
    headPatterns_endInBrace _ (get_mem _ _)⟩

/-- The matches of the heads, each head with its own. -/
def headMatches (source : List Char) : List (List (Span String)) :=
  heads.map fun head => (findMatches (fun _ => head) source).map Match.span

theorem finds_headMatches (source : List Char) :
    Forall₂ (fun pattern spans => Finds (pattern.FoundAt source) 0 spans)
      headPatterns (headMatches source) := by
  rw [headMatches, forall₂_map_right_iff]
  have scanned := (forall₂_and_left headPatterns heads).mpr
    ⟨headPatterns_endInBrace, scans_heads.flip⟩
  exact scanned.imp fun pattern head both => Scans.finds both.2 both.1 source

theorem describes_headMatches (source : List Char) :
    Forall₂ (Describes source) (headMatches source).flatten (allFunctions source) := by
  refine rel_flatten ?_
  rw [headMatches, forall₂_map_left_iff, forall₂_map_right_iff, forall₂_same]
  intro head listed
  rcases scans_of_mem_heads listed with ⟨pattern, scans, ends⟩
  rw [forall₂_map_left_iff, forall₂_map_right_iff, forall₂_same]
  exact fun found member => scans.describes ends member

/-- The functions of a script are the matches of the patterns of heads, each name and line with its
first match.  A function starts with its head, and its body reaches to the brace that closes the
brace of the head. -/
theorem functions_are_first_matches (source : List Char) :
    ∃ found : List (List (Span String)),
      Forall₂ (fun pattern spans => Finds (pattern.FoundAt source) 0 spans)
        headPatterns found ∧
      ((functions source).map Function.key).Nodup ∧
      (functions source).map Function.key =
        (found.flatten.map (matchKey source)).eraseDups ∧
      ∀ function ∈ functions source, ∃ span,
        found.flatten.find? (fun span => matchKey source span == function.key) = some span ∧
          Describes source span function := by
  have described := describes_headMatches source
  have keys : (functions source).map Function.key =
      ((headMatches source).flatten.map (matchKey source)).eraseDups := by
    have same : (allFunctions source).map Function.key =
        (headMatches source).flatten.map (matchKey source) := by
      rw [← forall₂_eq_eq_eq, forall₂_map_left_iff, forall₂_map_right_iff]
      exact (described.imp fun span function describes => describes.key).flip
    have unseen : ((allFunctions source).map Function.key).filter
        (fun key => !([] : List (String × Nat)).contains key) =
          (allFunctions source).map Function.key :=
      filter_eq_self.mpr fun _ _ => rfl
    rw [functions, map_key_distinctFrom, unseen, same]
  refine ⟨headMatches source, finds_headMatches source, ?_, keys, ?_⟩
  · rw [keys]
    exact Analysis.nodup_eraseDups _
  · intro function kept
    refine find?_of_forall₂ described ?_ (first_of_mem_distinctFrom kept).2
    intro span other describes
    rw [describes.key]

end Script
end CodeQuality
