import CodeQuality.Files.Tree
import CodeQuality.Json.Reader
import CodeQuality.Proofs.Text.Encoding
import CodeQuality.Proofs.Text.Scanning

namespace CodeQuality

open List

namespace Json

/-!
Records of which each stands on a line of its own.

The text of a value is made of printable ASCII characters only, whatever characters the
texts in the value contain.  So a line break behind a record is the only one in its
line, and a reader of the bytes finds the same lines that were written.  That each of
these lines is read back as the record that was written is not shown here.
-/

/-- The printable ASCII characters. -/
def Plain (c : Char) : Prop := 32 ≤ c.toNat ∧ c.toNat ≤ 126

instance (c : Char) : Decidable (Plain c) := inferInstanceAs (Decidable (_ ∧ _))

/-! ## The text of a value -/

theorem plain_of_all {text : List Char} (all : (text.all fun c => decide (Plain c)) = true) :
    ∀ c ∈ text, Plain c :=
  fun c member => of_decide_eq_true (all_eq_true.mp all c member)

theorem plain_of_isDigit {c : Char} (digit : c.isDigit = true) : Plain c := by
  rw [Char.isDigit, Bool.and_eq_true, decide_eq_true_eq, decide_eq_true_eq] at digit
  have low := UInt32.le_iff_toNat_le.mp digit.1
  have high := UInt32.le_iff_toNat_le.mp digit.2
  constructor
  · exact Nat.le_trans (by decide) low
  · exact Nat.le_trans high (by decide)

theorem plain_toDigits (n : Nat) : ∀ c ∈ Nat.toDigits 10 n, Plain c := by
  intro c member
  exact plain_of_isDigit (Nat.isDigit_of_mem_toDigits (by decide) (by decide) member)

theorem plain_hexDigits (width value : Nat) : ∀ c ∈ Text.hexDigits width value, Plain c :=
  fun c member => plain_of_all (by decide) c (Text.mem_hexLetters member)

theorem plain_unitEscape (unit : Nat) : ∀ c ∈ unitEscape unit, Plain c := by
  intro c member
  rcases mem_append.mp member with mark | digit
  · exact plain_of_all (by decide) c mark
  · exact plain_hexDigits 4 unit c digit

/-- What holds of both branches holds of a choice between them. -/
theorem plain_ite {condition : Prop} [Decidable condition] {first second : List Char}
    (plainFirst : condition → ∀ c ∈ first, Plain c)
    (plainSecond : ¬ condition → ∀ c ∈ second, Plain c) :
    ∀ c ∈ if condition then first else second, Plain c := by
  by_cases holds : condition
  · rw [if_pos holds]
    exact plainFirst holds
  · rw [if_neg holds]
    exact plainSecond holds

theorem plain_escapedChar (c : Char) : ∀ shown ∈ escapedChar c, Plain shown := by
  unfold escapedChar
  -- the seven characters with an escape of their own
  iterate 7
    apply plain_ite
    · intro _
      exact plain_of_all (by decide)
    intro _
  apply plain_ite
  · rintro ⟨low, high⟩ shown member
    rw [mem_singleton.mp member]
    exact ⟨low, high⟩
  intro _
  apply plain_ite
  · intro _
    exact plain_unitEscape c.toNat
  · intro _ shown member
    rcases mem_append.mp member with high | low
    · exact plain_unitEscape _ shown high
    · exact plain_unitEscape _ shown low

theorem plain_stringText (text : String) : ∀ c ∈ (stringText text).toList, Plain c := by
  intro c member
  rw [stringText, String.toList_ofList] at member
  rcases mem_append.mp member with front | quote
  · rcases mem_append.mp front with quote | inside
    · exact plain_of_all (by decide) c quote
    · rcases mem_flatMap.mp inside with ⟨own, _, shown⟩
      exact plain_escapedChar own c shown
  · exact plain_of_all (by decide) c quote

theorem plain_positional {digits : List Char} (plain : ∀ c ∈ digits, Plain c) (lead : Int) :
    ∀ c ∈ Number.positional digits lead, Plain c := by
  have zeros : ∀ count, ∀ c ∈ replicate count '0', Plain c := by
    intro count c member
    rw [eq_of_mem_replicate member]
    decide
  intro c member
  rw [Number.positional] at member
  split at member
  · rcases mem_append.mp member with front | digit
    · rcases mem_append.mp front with point | zero
      · exact plain_of_all (by decide) c point
      · exact zeros _ c zero
    · exact plain c digit
  · rcases mem_append.mp member with front | back
    · rcases mem_append.mp front with whole | point
      · rcases mem_append.mp whole with digit | zero
        · exact plain c (mem_of_mem_take digit)
        · exact zeros _ c zero
      · exact plain_of_all (by decide) c point
    · split at back
      · exact plain_of_all (by decide) c back
      · exact plain c (mem_of_mem_drop back)

theorem plain_withExponent {digits : List Char} (plain : ∀ c ∈ digits, Plain c) (lead : Int) :
    ∀ c ∈ Number.withExponent digits lead, Plain c := by
  intro c member
  unfold Number.withExponent at member
  rcases mem_append.mp member with front | size
  · rcases mem_append.mp front with mantissa | mark
    · match digits, plain, mantissa with
      | [], _, mantissa => exact plain_of_all (by decide) c mantissa
      | [digit], plain, mantissa => exact plain c mantissa
      | first :: second :: rest, plain, mantissa =>
          rcases mem_cons.mp mantissa with here | further
          · exact plain c (here ▸ mem_cons_self)
          · rcases mem_cons.mp further with point | digit
            · rw [point]
              decide
            · exact plain c (mem_cons_of_mem first digit)
    · by_cases negative : lead < 0
      · rw [if_pos negative] at mark
        exact plain_of_all (by decide) c mark
      · rw [if_neg negative] at mark
        exact plain_of_all (by decide) c mark
  · split at size
    · rcases mem_cons.mp size with zero | digit
      · rw [zero]
        decide
      · exact plain_toDigits _ c digit
    · exact plain_toDigits _ c size

theorem plain_shortestDigits (x : Number.Binary64) :
    ∀ c ∈ (Number.shortestDigits x).1, Plain c := by
  intro c member
  have digit := (dropWhile_sublist _).mem (mem_reverse.mp member)
  exact plain_toDigits _ c (mem_reverse.mp digit)

theorem plain_decimalText (x : Number.Binary64) : ∀ c ∈ (Number.decimalText x).toList, Plain c := by
  rw [Number.decimalText]
  split
  · exact plain_of_all (by decide)
  · intro c member
    rw [String.toList_ofList] at member
    rcases mem_append.mp member with sign | body
    · split at sign
      · exact plain_of_all (by decide) c sign
      · cases sign
    · split at body
      · exact plain_of_all (by decide) c body
      · have digits := plain_shortestDigits x
        split at body
        · exact plain_of_all (by decide) c body
        · split at body
          next shown lead taken =>
            rw [taken] at digits
            split at body
            · exact plain_positional digits lead c body
            · exact plain_withExponent digits lead c body

theorem plain_floatText (x : Number.Binary64) : ∀ c ∈ (floatText x).toList, Plain c := by
  rw [floatText]
  split
  · exact plain_of_all (by decide)
  · split
    · split
      · exact plain_of_all (by decide)
      · exact plain_of_all (by decide)
    · exact plain_decimalText x

theorem plain_int (value : Int) : ∀ c ∈ (toString value).toList, Plain c := by
  intro c member
  rw [Int.toString_eq_repr] at member
  cases value with
  | ofNat n =>
      rw [Int.repr, Nat.toList_repr] at member
      exact plain_toDigits n c member
  | negSucc n =>
      rw [Int.repr, String.toList_append, Nat.toList_repr] at member
      rcases mem_append.mp member with sign | digit
      · exact plain_of_all (by decide) c sign
      · exact plain_toDigits _ c digit

theorem plain_intercalate {separator : String} {parts : List String}
    (between : ∀ c ∈ separator.toList, Plain c) (each : ∀ part ∈ parts, ∀ c ∈ part.toList, Plain c) :
    ∀ c ∈ (separator.intercalate parts).toList, Plain c := by
  match parts, each with
  | [], _ =>
      intro c member
      cases member
  | [part], each =>
      rw [String.intercalate_singleton]
      exact each part mem_cons_self
  | part :: next :: rest, each =>
      intro c member
      rw [String.intercalate_cons_cons, String.toList_append, String.toList_append] at member
      have further := plain_intercalate between
        fun other inside => each other (mem_cons_of_mem part inside)
      rcases mem_append.mp member with front | back
      · rcases mem_append.mp front with here | mark
        · exact each part mem_cons_self c here
        · exact between c mark
      · exact further c back

theorem plain_between {opening closing inner : String} (left : ∀ c ∈ opening.toList, Plain c)
    (right : ∀ c ∈ closing.toList, Plain c) (inside : ∀ c ∈ inner.toList, Plain c) :
    ∀ c ∈ (opening ++ inner ++ closing).toList, Plain c := by
  intro c member
  rw [String.toList_append, String.toList_append] at member
  rcases mem_append.mp member with front | last
  · rcases mem_append.mp front with first | middle
    · exact left c first
    · exact inside c middle
  · exact right c last

mutual

/-- The text of a value has printable ASCII characters only. -/
theorem plain_render : ∀ value : Json, ∀ c ∈ value.render.toList, Plain c
  | .null => by
      rw [render]
      exact plain_of_all (by decide)
  | .bool true => by
      rw [render]
      exact plain_of_all (by decide)
  | .bool false => by
      rw [render]
      exact plain_of_all (by decide)
  | .int value => by
      rw [render]
      exact plain_int value
  | .float value => by
      rw [render]
      exact plain_floatText value
  | .str text => by
      rw [render]
      exact plain_stringText text
  | .arr items => by
      rw [render]
      exact plain_between (plain_of_all (by decide)) (plain_of_all (by decide))
        (plain_intercalate (plain_of_all (by decide)) (plain_renderItems items))
  | .obj members => by
      rw [render]
      exact plain_between (plain_of_all (by decide)) (plain_of_all (by decide))
        (plain_intercalate (plain_of_all (by decide)) (plain_renderMembers members))

theorem plain_renderItems : ∀ items : List Json,
    ∀ part ∈ renderItems items, ∀ c ∈ part.toList, Plain c
  | [] => by
      rw [renderItems]
      intro part member
      cases member
  | item :: items => by
      rw [renderItems]
      intro part member
      rcases mem_cons.mp member with here | below
      · rw [here]
        exact plain_render item
      · exact plain_renderItems items part below

theorem plain_renderMembers : ∀ members : List (String × Json),
    ∀ part ∈ renderMembers members, ∀ c ∈ part.toList, Plain c
  | [] => by
      rw [renderMembers]
      intro part member
      cases member
  | (key, value) :: members => by
      rw [renderMembers]
      intro part member
      rcases mem_cons.mp member with here | below
      · rw [here]
        exact fun c inside => plain_between (plain_stringText key) (plain_render value)
          (plain_of_all (by decide) : ∀ c ∈ ": ".toList, Plain c) c inside
      · exact plain_renderMembers members part below

end

/-! ## Bytes and lines -/

/-- A line of a file: a record and its line break. -/
def line (value : Json) : List Char := value.render.toList ++ ['\n']

theorem return_notMem_line (value : Json) : '\r' ∉ line value := by
  intro member
  rcases mem_append.mp member with inside | last
  · exact absurd (plain_render value _ inside) (by decide)
  · exact absurd last (by decide)

theorem unifyNewlines_of_notMem {text : List Char} (without : '\r' ∉ text) :
    Text.unifyNewlines text = text := by
  induction text with
  | nil => rfl
  | cons c rest ih =>
      rw [mem_cons, not_or] at without
      have different : c ≠ '\r' := fun equal => without.1 equal.symm
      rw [Text.unifyNewlines, if_neg different, ih without.2]
      intro other equal
      exact absurd equal different

/-- Up to its break, a line is read as one. -/
theorem physicalLinesFrom_append {front : List Char}
    (unbroken : ∀ c ∈ front, c ≠ '\n' ∧ c ≠ '\r') (current rest : List Char) :
    Text.physicalLinesFrom current (front ++ '\n' :: rest) =
      (current.reverse ++ front ++ ['\n']) :: Text.physicalLinesFrom [] rest := by
  induction front generalizing current with
  | nil =>
      rw [nil_append, Text.physicalLinesFrom, if_pos (.inl rfl), reverse_cons,
        append_nil]
      intro other equal
      exact absurd equal (by decide)
  | cons c front ih =>
      have here := unbroken c mem_cons_self
      have further := ih (fun other member => unbroken other (mem_cons_of_mem c member))
        (c :: current)
      rw [cons_append, Text.physicalLinesFrom, if_neg (not_or.mpr here), further,
        reverse_cons, append_assoc, append_assoc, append_assoc,
        singleton_append, cons_append]
      intro other equal
      exact absurd equal here.2

theorem physicalLines_flatMap_line (values : List Json) :
    Text.physicalLines (values.flatMap line) = values.map line := by
  induction values with
  | nil => rfl
  | cons value rest ih =>
      have unbroken : ∀ c ∈ value.render.toList, c ≠ '\n' ∧ c ≠ '\r' := by
        intro c member
        have plain := plain_render value c member
        constructor
        · rintro rfl
          exact absurd plain (by decide)
        · rintro rfl
          exact absurd plain (by decide)
      rw [flatMap_cons, line, append_assoc, singleton_append, Text.physicalLines,
        physicalLinesFrom_append unbroken, map_cons]
      exact congrArg (line value :: ·) ih

theorem toBytes_records (values : List Json) :
    (Files.Content.records values).toBytes = (values.flatMap line).flatMap String.utf8EncodeChar := by
  rw [Files.Content.toBytes, flatMap_assoc]
  apply flatMap_congr
  intro value _
  rw [Files.textBytes, String.toList_append]
  rfl

/-- A reader of the bytes of some records finds one line for each of them. -/
theorem lines_of_records (values : List Json) :
    ∃ text, Text.decodeStrict (Files.Content.records values).toBytes = .ok text ∧
      Text.physicalLines (Text.unifyNewlines text) = values.map line := by
  have without : '\r' ∉ values.flatMap line := by
    intro member
    rcases mem_flatMap.mp member with ⟨value, _, inside⟩
    exact return_notMem_line value inside
  refine ⟨values.flatMap line, ?_, ?_⟩
  · rw [toBytes_records]
    exact Text.decodeStrict_encoded _
  · rw [unifyNewlines_of_notMem without]
    exact physicalLines_flatMap_line values

end Json
end CodeQuality
