import CodeQuality.Dashboard
import CodeQuality.Proofs.Report.Fidelity
import CodeQuality.Proofs.Selection
import Mathlib.Algebra.BigOperators.Group.List.Lemmas
import Mathlib.Algebra.GroupWithZero.Nat

namespace CodeQuality

open Json Sorting List

/-!
The charts of a dashboard.

The issues of a report are gone through once, and two lists of pairs are kept on the way:
how many issues each category has, and the highest score of each file.  Both can be said
without the pass, by counting and by comparing over all issues.
-/

/-! ## Pairs with keys -/

namespace Json

section

variable {κ α : Type} [DecidableEq κ] {key : κ → Json} (exact : ∀ own, IsExact (key own))
  (injective : Function.Injective key)

include exact injective

omit [DecidableEq κ] in
theorem same_key_iff {own wanted : κ} : same (key own) (key wanted) = true ↔ own = wanted :=
  (exact wanted (key own)).trans injective.eq_iff

theorem findPair?_map (keys : List κ) (value : κ → α) (wanted : κ) :
    findPair? (key wanted) (keys.map fun own => (key own, value own)) =
      if wanted ∈ keys then some (value wanted) else none := by
  induction keys with
  | nil => rfl
  | cons own rest ih =>
      rw [map_cons, findPair?, ih]
      by_cases here : own = wanted
      · rw [if_pos ((same_key_iff exact injective).mpr here), here, if_pos mem_cons_self]
      · rw [if_neg (mt (same_key_iff exact injective).mp here)]
        simp only [mem_cons, Ne.symm here, false_or]

theorem updatePair_of_mem {keys : List κ} (distinct : keys.Nodup) {wanted : κ}
    (member : wanted ∈ keys) (change : Option α → α) (value : κ → α) :
    updatePair (key wanted) change (keys.map fun own => (key own, value own)) =
      keys.map fun own =>
        (key own, if own = wanted then change (some (value own)) else value own) := by
  induction keys with
  | nil => cases member
  | cons own rest ih =>
      rw [nodup_cons] at distinct
      rw [map_cons, map_cons, updatePair]
      by_cases here : own = wanted
      · subst here
        rw [if_pos ((same_key_iff exact injective).mpr rfl), if_pos rfl]
        refine congrArg (cons _) (map_congr_left fun other inside => ?_)
        rw [if_neg]
        rintro rfl
        exact distinct.1 inside
      · rw [if_neg (mt (same_key_iff exact injective).mp here), if_neg here,
          ih distinct.2 ((mem_cons.mp member).resolve_left (Ne.symm here))]

omit [DecidableEq κ] in
theorem updatePair_of_notMem {keys : List κ} {wanted : κ} (absent : wanted ∉ keys)
    (change : Option α → α) (value : κ → α) :
    updatePair (key wanted) change (keys.map fun own => (key own, value own)) =
      (keys.map fun own => (key own, value own)) ++ [(key wanted, change none)] := by
  induction keys with
  | nil => rfl
  | cons own rest ih =>
      rw [mem_cons, not_or] at absent
      rw [map_cons, updatePair, if_neg (mt (same_key_iff exact injective).mp
        (Ne.symm absent.1)), ih absent.2, cons_append]

/-- One more key in order of first occurrence: its value is changed, or made if the key is new. -/
theorem updatePair_eraseDups [BEq κ] [LawfulBEq κ] (keys : List κ) (wanted : κ)
    (change : Option α → α) (value : κ → α) :
    updatePair (key wanted) change (keys.eraseDups.map fun own => (key own, value own)) =
      (keys ++ [wanted]).eraseDups.map fun own => (key own,
        if own = wanted then change (if wanted ∈ keys then some (value own) else none)
        else value own) := by
  rw [Analysis.eraseDups_concat]
  by_cases known : wanted ∈ keys
  · rw [if_pos known, updatePair_of_mem exact injective (Analysis.nodup_eraseDups keys)
      (mem_eraseDups.mpr known)]
    simp only [known, if_true]
  · rw [if_neg known, updatePair_of_notMem exact injective (mt mem_eraseDups.mp known),
      map_append, map_singleton, if_pos rfl, if_neg known]
    refine congrArg (· ++ _) (map_congr_left fun own inside => ?_)
    rw [if_neg]
    rintro rfl
    exact known (mem_eraseDups.mp inside)

end

end Json

namespace Dashboard

/-! ## What the charts take from an issue -/

/-- The category of an issue, which is general unless the issue says otherwise; there is none if a
null stands for it. -/
def category? (issue : Json) : Option String :=
  ((issue.get? "category").getD (.str "general")).text?

/-- The file of an issue, if it has one with a name. -/
def file? (issue : Json) : Option String :=
  (((issue.get? "file").getD .null).text?).filter (· ≠ "")

/-- The score of an issue, nought if it has none. -/
def scoreOf (issue : Json) : Int := (((issue.get? "score").getD (.int 0)).wholeNumber?).getD 0

/-- Under a key of a record stands a text, a null or nothing. -/
def HasText (record : Json) (key : String) : Prop :=
  ∀ value, record.get? key = some value → value = .null ∨ ∃ text, value = .str text

/-- The record of an issue that can be shown: its category and its file are texts and its score is a
whole number, as far as they are there.  Without a file, a null may stand for the score. -/
structure IsIssue (issue : Json) : Prop where
  record : ∃ members, issue = .obj members
  category : HasText issue "category"
  file : HasText issue "file"
  score : ∀ value, issue.get? "score" = some value →
    (∃ number, value = .int number) ∨ (value = .null ∧ file? issue = none)

theorem HasText.getD {record : Json} {key : String} (texts : HasText record key)
    (absent : Option String) :
    (record.get? key).getD (.ofText? absent) =
      .ofText? ((record.get? key).getD (.ofText? absent)).text? := by
  cases found : record.get? key with
  | none => cases absent <;> rfl
  | some value => rcases texts value found with rfl | ⟨text, rfl⟩ <;> rfl

theorem isTruthy_ofText? (text : Option String) :
    (ofText? text).isTruthy = (text.filter (· ≠ "")).isSome := by
  cases text with
  | none => rfl
  | some text => by_cases empty : text = "" <;> simp [ofText?, isTruthy, empty]

namespace IsIssue

variable {issue : Json} (known : IsIssue issue)

include known

theorem member_category :
    issue.member "category" (.str "general") = .ok (.ofText? (category? issue)) := by
  have own := known.category.getD (some "general")
  rcases known.record with ⟨members, rfl⟩
  exact congrArg Except.ok own

theorem member_file :
    ∃ text, issue.member "file" .null = .ok (.ofText? text) ∧
      file? issue = text.filter (· ≠ "") := by
  have own := known.file.getD none
  rcases known.record with ⟨members, rfl⟩
  exact ⟨_, congrArg Except.ok own, rfl⟩

theorem member_score (filed : file? issue ≠ none) :
    issue.member "score" (.int 0) = .ok (.int (scoreOf issue)) := by
  have own : (issue.get? "score").getD (.int 0) = .int (scoreOf issue) := by
    rw [scoreOf]
    cases found : issue.get? "score" with
    | none => rfl
    | some value =>
        rcases known.score value found with ⟨number, rfl⟩ | ⟨-, unfiled⟩
        · rfl
        · exact absurd unfiled filed
  rcases known.record with ⟨members, rfl⟩
  exact congrArg Except.ok own

end IsIssue

/-! ## The pass over the issues -/

/-- The files of issues, in the order of the issues and with repetitions. -/
def filesIn (issues : List Json) : List String := issues.filterMap file?

/-- The highest of nought and the scores of the issues of a file. -/
def best (issues : List Json) (file : String) : Int :=
  ((issues.filter fun issue => file? issue = some file).map scoreOf).foldl max 0

/-- What the pass has counted after some issues. -/
def countsOf (issues : List Json) : Counts where
  categories := (issues.map category?).eraseDups.map fun category =>
    (.ofText? category, (issues.map category?).count category)
  scores := (filesIn issues).eraseDups.map fun file => (.str file, .int (best issues file))

theorem best_concat (issues : List Json) (issue : Json) (file : String) :
    best (issues ++ [issue]) file =
      if file? issue = some file then max (best issues file) (scoreOf issue)
      else best issues file := by
  by_cases own : file? issue = some file <;> simp [best, own]

variable {issues : List Json} {issue : Json}

theorem best_of_notMem {file : String} (absent : file ∉ filesIn issues) : best issues file = 0 := by
  rw [best, filter_eq_nil_iff.mpr]
  · rfl
  · intro issue member own
    exact absent (mem_filterMap.mpr ⟨issue, member, of_decide_eq_true own⟩)

theorem larger_int (first second : Int) :
    larger (.int first) (.int second) = .ok (.int (max first second)) := by
  rw [larger, isBefore_int]
  by_cases below : first < second
  · simp only [below, decide_true, bind, Except.bind, pure, Except.pure, if_true]
    rw [max_eq_right below.le]
  · simp only [below, decide_false, bind, Except.bind, pure, Except.pure, Bool.false_eq_true,
      if_false]
    rw [max_eq_left (not_lt.mp below)]

theorem isExact_ofText? (text : Option String) : (ofText? text).IsExact := by
  cases text with
  | none => exact isExact_null
  | some text => exact isExact_str text

theorem ofText?_injective : Function.Injective ofText? := by
  intro first second equal
  cases first <;> cases second <;> cases equal <;> rfl

theorem updatePair_categories (issues : List Json) (issue : Json) :
    updatePair (.ofText? (category? issue)) (fun count => count.getD 0 + 1)
        (countsOf issues).categories = (countsOf (issues ++ [issue])).categories := by
  have labels : (issues ++ [issue]).map category? = issues.map category? ++ [category? issue] :=
    map_append
  refine (updatePair_eraseDups isExact_ofText? ofText?_injective _ _ _ _).trans ?_
  rw [countsOf, labels]
  refine map_congr_left fun category _ => congrArg (Prod.mk _) ?_
  rw [count_append, count_singleton]
  by_cases own : category = category? issue
  · subst own
    by_cases seen : category? issue ∈ issues.map category?
    · simp only [seen, if_true, Option.getD_some, beq_self_eq_true]
    · simp only [seen, if_true, if_false, Option.getD_none, beq_self_eq_true,
        count_eq_zero_of_not_mem seen]
  · simp only [own, Ne.symm own, beq_iff_eq, if_false, Nat.add_zero]

theorem updatePair_scores (issues : List Json) {file : String} (filed : file? issue = some file) :
    updatePair (.str file) (fun _ => .int (max (best issues file) (scoreOf issue)))
        (countsOf issues).scores = (countsOf (issues ++ [issue])).scores := by
  have files : filesIn (issues ++ [issue]) = filesIn issues ++ [file] := by
    simp [filesIn, filed]
  refine (updatePair_eraseDups isExact_str (fun _ _ => str.inj) _ _ _ _).trans ?_
  rw [countsOf, files]
  refine map_congr_left fun other _ => congrArg (Prod.mk _) ?_
  rw [best_concat, filed]
  by_cases own : other = file
  · rw [if_pos own, if_pos (congrArg some own.symm), own]
  · rw [if_neg own, if_neg fun equal => own (Option.some.inj equal).symm]

theorem scores_of_unfiled (issues : List Json) (unfiled : file? issue = none) :
    (countsOf (issues ++ [issue])).scores = (countsOf issues).scores := by
  have files : filesIn (issues ++ [issue]) = filesIn issues := by
    simp [filesIn, unfiled]
  rw [countsOf, countsOf, files]
  refine map_congr_left fun file _ => ?_
  rw [best_concat, unfiled, if_neg (Option.some_ne_none file).symm]

theorem findPair?_scores (issues : List Json) (file : String) :
    (findPair? (.str file) (countsOf issues).scores).getD (.int 0) = .int (best issues file) := by
  have found := findPair?_map isExact_str (fun _ _ => str.inj)
    (filesIn issues).eraseDups (fun file => int (best issues file)) file
  rw [countsOf, found]
  by_cases seen : file ∈ filesIn issues
  · rw [if_pos (mem_eraseDups.mpr seen)]
    rfl
  · rw [if_neg (mt mem_eraseDups.mp seen), best_of_notMem seen]
    rfl

/-- One more issue. -/
theorem add_countsOf (issues : List Json) (known : IsIssue issue) :
    (countsOf issues).add issue = .ok (countsOf (issues ++ [issue])) := by
  rcases known.member_file with ⟨text, read, own⟩
  have key : (ofText? (category? issue)).asKey = .ok (.ofText? (category? issue)) := by
    cases category? issue <;> rfl
  have truthy := isTruthy_ofText? text
  rw [← own] at truthy
  rw [Counts.add, known.member_category, read]
  simp only [bind, Except.bind, key, updatePair_categories]
  cases filed : file? issue with
  | none =>
      rw [filed] at truthy
      rw [truthy, ← scores_of_unfiled issues filed]
      rfl
  | some file =>
      rw [filed, Option.isSome_some] at truthy
      rw [filed] at own
      have name : text = some file := (Option.filter_eq_some_iff.mp own.symm).1
      have present : file? issue ≠ none := filed ▸ Option.some_ne_none file
      rw [if_pos truthy, name, known.member_score present]
      simp only [ofText?, asKey, findPair?_scores, larger_int,
        updatePair_scores issues filed]
      rfl

/-- The pass counts all issues. -/
theorem foldlM_add (known : ∀ issue ∈ issues, IsIssue issue) :
    issues.foldlM Counts.add ⟨[], []⟩ = .ok (countsOf issues) := by
  -- from the end: what `countsOf` says of the issues before is what the last step starts from
  induction issues using reverseRecOn with
  | nil => rfl
  | append_singleton issues issue ih =>
      rw [foldlM_append, ih fun other member => known other (mem_append_left _ member)]
      simp only [bind, Except.bind, foldlM_cons, foldlM_nil,
        add_countsOf issues (known issue (by simp))]
      rfl

/-! ## Files by falling scores -/

/-- Keys in order of first occurrence stand as they first occur. -/
theorem pairwise_idxOf_eraseDups {α : Type} [BEq α] [LawfulBEq α] (items : List α) :
    items.eraseDups.Pairwise fun first second => items.idxOf first < items.idxOf second := by
  induction items using reverseRecOn with
  | nil => exact .nil
  | append_singleton items added ih =>
      have kept : items.eraseDups.Pairwise fun first second =>
          (items ++ [added]).idxOf first < (items ++ [added]).idxOf second := by
        refine ih.imp_of_mem fun early late before => ?_
        rwa [idxOf_append_of_mem (mem_eraseDups.mp early),
          idxOf_append_of_mem (mem_eraseDups.mp late)]
      rw [Analysis.eraseDups_concat]
      -- an item that was there before moves nothing, and a new one comes behind all others
      by_cases seen : added ∈ items
      · rwa [if_pos seen]
      · rw [if_neg seen, pairwise_append]
        refine ⟨kept, pairwise_singleton _ _, ?_⟩
        intro first early last new
        rw [mem_singleton.mp new, idxOf_append_of_notMem seen,
          idxOf_append_of_mem (mem_eraseDups.mp early)]
        exact Nat.lt_add_right _ (idxOf_lt_length_of_mem (mem_eraseDups.mp early))

/-- A file belongs before another one: its highest score is higher, or both are equal and it comes
up first. -/
def IsHotter (issues : List Json) (first second : String) : Prop :=
  best issues second < best issues first ∨
    (best issues first = best issues second ∧
      (filesIn issues).idxOf first < (filesIn issues).idxOf second)

/-- The files of issues, the hottest first. -/
def byHeat (issues : List Json) : List String :=
  ranked (best issues) (filesIn issues).eraseDups

theorem descendingBy_scores (issues : List Json) :
    descendingBy (fun entry : Json × Json => entry.2) (countsOf issues).scores =
      .ok ((byHeat issues).map fun file => (.str file, .int (best issues file))) := by
  refine descending_map ?_ _
  exact fun first second => isBefore_int (best issues first) (best issues second)

theorem isTop_byHeat (issues : List Json) (count : Nat) :
    IsTop count (IsHotter issues) (filesIn issues).eraseDups ((byHeat issues).take count) :=
  isTop_take (Analysis.nodup_eraseDups _) (ranked_perm _ _)
    (pairwise_ranked _ (pairwise_idxOf_eraseDups _)) count

/-! ## What the charts show -/

/-- Categories are shown with their numbers of issues: each once, in order of first appearance. -/
structure CountsCategories (issues : List Json) (shown : List (Option String × Nat)) : Prop where
  categories : shown.map Prod.fst = (issues.map category?).eraseDups
  counts : ∀ entry ∈ shown, entry.2 = issues.countP fun issue => category? issue = entry.1
  total : (shown.map Prod.snd).sum = issues.length

/-- Files are shown with their highest scores: the ten hottest, or all if there are fewer. -/
structure RanksFiles (issues : List Json) (shown : List (String × Int)) : Prop where
  files : IsTop 10 (IsHotter issues) (filesIn issues).eraseDups (shown.map Prod.fst)
  scores : ∀ entry ∈ shown, entry.2 = best issues entry.1

theorem sum_count_eraseDups {α : Type} [DecidableEq α] [own : BEq α] [LawfulBEq α]
    (items : List α) : (items.eraseDups.map fun item => items.count item).sum = items.length := by
  have order : items.eraseDups.Perm items.dedup :=
    (perm_ext_iff_of_nodup (Analysis.nodup_eraseDups _) (nodup_dedup _)).mpr
      fun item => mem_eraseDups.trans mem_dedup.symm
  rw [(order.map _).sum_eq, lawful_beq_subsingleton own instBEqOfDecidableEq]
  exact sum_map_count_dedup_eq_length items

def categoryChart (issues : List Json) : List (Option String × Nat) :=
  (issues.map category?).eraseDups.map fun category =>
    (category, (issues.map category?).count category)

def fileChart (issues : List Json) : List (String × Int) :=
  ((byHeat issues).take fileCount).map fun file => (file, best issues file)

theorem countsCategories_categoryChart (issues : List Json) :
    CountsCategories issues (categoryChart issues) where
  categories := by
    rw [categoryChart, map_map]
    exact map_id _
  counts := by
    intro entry member
    rcases mem_map.mp member with ⟨category, -, rfl⟩
    rw [count, countP_map]
    refine countP_congr fun issue _ => ?_
    rw [Function.comp_apply, beq_iff_eq, decide_eq_true_eq]
  total := by
    rw [categoryChart, map_map]
    exact (sum_count_eraseDups _).trans (length_map category?)

theorem ranksFiles_fileChart (issues : List Json) : RanksFiles issues (fileChart issues) where
  files := by
    rw [fileChart, map_map]
    exact (map_id _).symm ▸ isTop_byHeat issues 10
  scores := by
    intro entry member
    rcases mem_map.mp member with ⟨file, -, rfl⟩
    rfl

/-! ## The data of a dashboard -/

/-- What a dashboard shows besides the charts of the issues: its header, the last days and the
dependencies. -/
def surroundings (reader : Syntax.Reader) (order : Dependencies.Order) (files : Files)
    (now : Moment) (report : Json) : Outcome (Json × List Json × Dependencies) := do
  let score ← report.member "overall_score" (.int 0)
  let about ← report.member "meta" (.obj [])
  let path ← about.member "path" (.str "?")
  let analyzedAt ← about.member "analyzed_at" (.str now.text)
  let days ← trend now.date score
  let graph ← Dependencies.ofRepository reader order files (← pathText path)
  pure (.obj [("overall_score", score), ("repo_path", path), ("analyzed_at", analyzedAt)],
    days, graph)

def categoriesJson (shown : List (Option String × Nat)) : Json :=
  .arr (shown.map fun entry => .obj [("category", .ofText? entry.1), ("count", .nat entry.2)])

def filesJson (shown : List (String × Int)) : Json :=
  .arr (shown.map fun entry => .obj [("id", .str entry.1), ("score", .int entry.2)])

/-- The data of a dashboard from its parts. -/
def assembled (hasLibrary : Bool) (categories files : Json)
    (parts : Json × List Json × Dependencies) : Json :=
  .obj [("header", parts.1),
    ("charts", .obj [("issues_by_category", categories), ("top_hotspots", files),
      ("recent_trend", .arr parts.2.1)]),
    ("dep_graph", parts.2.2.toJson hasLibrary)]

/-- Apart from the pass and the sorting, nothing in the data of a dashboard looks at issues. -/
theorem payload_eq {report : Json} {counts : Counts} {hottest : List (Json × Json)}
    (listed : report.member "issues" (.arr []) = .ok (.arr issues))
    (counted : issues.foldlM Counts.add ⟨[], []⟩ = .ok counts)
    (sorted : descendingBy (fun entry : Json × Json => entry.2) counts.scores =
      .ok hottest) (reader : Syntax.Reader) (order : Dependencies.Order) (files : Files)
    (now : Moment) (hasLibrary : Bool) :
    payload reader order files now hasLibrary report =
      assembled hasLibrary
        (.arr (counts.categories.map fun entry =>
          .obj [("category", entry.1), ("count", .nat entry.2)]))
        (.arr ((hottest.take fileCount).map fun entry =>
          .obj [("id", entry.1), ("score", entry.2)])) <$>
          surroundings reader order files now report := by
  unfold payload surroundings
  rw [listed]
  simp only [map_bind, map_pure]
  refine bind_congr fun score => bind_congr fun about => bind_congr fun path =>
    bind_congr fun analyzedAt => ?_
  change (issues.foldlM Counts.add ⟨[], []⟩ >>= _) = _
  rw [counted]
  change (descendingBy _ counts.scores >>= _) = _
  rw [sorted]
  rfl

theorem payload_of_known {report : Json}
    (listed : report.member "issues" (.arr []) = .ok (.arr issues))
    (known : ∀ issue ∈ issues, IsIssue issue) (reader : Syntax.Reader)
    (order : Dependencies.Order) (files : Files) (now : Moment) (hasLibrary : Bool) :
    payload reader order files now hasLibrary report =
      assembled hasLibrary (categoriesJson (categoryChart issues))
        (filesJson (fileChart issues)) <$> surroundings reader order files now report := by
  rw [payload_eq listed (foldlM_add known) (descendingBy_scores issues), ← map_take,
    map_map, categoriesJson, categoryChart, map_map, filesJson, fileChart, map_map,
    countsOf, map_map]
  rfl

theorem surroundings_set (reader : Syntax.Reader) (order : Dependencies.Order) (files : Files)
    (now : Moment) (report issues : Json) :
    surroundings reader order files now (report.set "issues" issues) =
      surroundings reader order files now report := by
  cases report with
  | obj members =>
      have score := Json.lookup?_insertMember_of_ne (by decide : "overall_score" ≠ "issues") issues
        members
      have about := Json.lookup?_insertMember_of_ne (by decide : "meta" ≠ "issues") issues members
      unfold surroundings
      simp only [Json.set, Json.member, score, about]
  | _ => rfl

/-- Whatever the surroundings, issues do not keep a dashboard from being made, and the charts show
what can be counted and compared over all of them: each category once, in order of first appearance
and with its number of issues, and the ten files with the highest scores, equal ones in order of
first appearance. -/
theorem charts_aggregate_issues {report : Json} {issues : List Json}
    (listed : report.member "issues" (.arr []) = .ok (.arr issues))
    (known : ∀ issue ∈ issues, IsIssue issue) :
    ∃ categories hotspots, CountsCategories issues categories ∧ RanksFiles issues hotspots ∧
      ∀ reader order files now hasLibrary,
        (payload reader order files now hasLibrary report).map (fun _ => ()) =
            (payload reader order files now hasLibrary (report.set "issues" (.arr []))).map
              (fun _ => ()) ∧
          ∀ data, payload reader order files now hasLibrary report = .ok data →
            ∃ charts, data.get? "charts" = some charts ∧
              charts.get? "issues_by_category" = some (categoriesJson categories) ∧
              charts.get? "top_hotspots" = some (filesJson hotspots) := by
  refine ⟨categoryChart issues, fileChart issues, countsCategories_categoryChart issues,
    ranksFiles_fileChart issues, fun reader order files now hasLibrary => ⟨?_, ?_⟩⟩
  · have emptied : (report.set "issues" (.arr [])).member "issues" (.arr []) = .ok (.arr []) := by
      cases report with
      | obj members => rw [Json.set, member, lookup?_insertMember_self, Option.getD_some]
      | _ => cases listed
    rw [payload_of_known listed known, payload_of_known emptied (forall_mem_nil IsIssue),
      surroundings_set]
    cases surroundings reader order files now report <;> rfl
  · intro data made
    rw [payload_of_known listed known] at made
    rcases Outcome.exists_of_map made with ⟨parts, -, rfl⟩
    exact ⟨_, rfl, rfl, rfl⟩

/-- Issues with and without categories, files and scores. -/
def mixedIssues : List Json :=
  [.obj [("category", .str "security"), ("file", .str "b.py"), ("score", .int 70)],
    .obj [("file", .str "a.py"), ("score", .int 90)],
    .obj [("category", .null), ("file", .str "c.py"), ("score", .int 90)],
    .obj [("category", .str "security"), ("file", .str "b.py"), ("score", .int 40)],
    .obj [("category", .str "style"), ("file", .str ""), ("score", .int 100)],
    .obj [("category", .str "style"), ("file", .str "d.py"), ("score", .int (-5))],
    .obj [("category", .str "style"), ("file", .null), ("score", .null)]]

def namelessIssues : List Json :=
  [.obj [("category", .str "security"), ("file", .str ""), ("score", .int 70)]]

/-- A report on a directory. -/
def reportOn (issues : List Json) : Json :=
  .obj [("meta", .obj [("path", .str "/")]), ("issues", .arr issues)]

def bareFiles : Files := ⟨.dir [], []⟩

def secondOfJanuary : Moment := ⟨.ofCivil 2025 1 2, 0⟩

theorem bareFiles_dependencies :
    Dependencies.ofRepository .plain .byName bareFiles "/" = .ok ⟨[], []⟩ := by
  have listed : bareFiles.matching ".py" [] = [] := by
    rw [Files.matching, Files.stat_nil]
    decide +kernel
  rw [Dependencies.ofRepository, Symbols.pythonTable, Files.resolve_slash]
  simp only [bind, Except.bind, pure, Except.pure, listed]
  rfl

/-- The report on a directory without files has a dashboard if the pass over its issues ends. -/
theorem exists_charts (issues : List Json) (counts : Counts) (hottest : List (Json × Json))
    (counted : issues.foldlM Counts.add ⟨[], []⟩ = .ok counts)
    (sorted : descendingBy (fun entry : Json × Json => entry.2) counts.scores =
      .ok hottest) :
    ∃ data charts,
      payload .plain .byName bareFiles secondOfJanuary true (reportOn issues) = .ok data ∧
      data.get? "charts" = some charts ∧
      charts.get? "issues_by_category" = some (.arr (counts.categories.map fun entry =>
        .obj [("category", entry.1), ("count", .nat entry.2)])) ∧
      charts.get? "top_hotspots" = some (.arr ((hottest.take fileCount).map fun entry =>
        .obj [("id", entry.1), ("score", entry.2)])) := by
  have days : trend secondOfJanuary.date (.int 0) = .ok _ := rfl
  have surrounded : surroundings .plain .byName bareFiles secondOfJanuary (reportOn issues) =
      trend secondOfJanuary.date (.int 0) >>= fun days =>
        Dependencies.ofRepository .plain .byName bareFiles "/" >>= fun graph =>
          pure (.obj [("overall_score", .int 0), ("repo_path", .str "/"),
            ("analyzed_at", .str secondOfJanuary.text)], days, graph) := rfl
  rw [days, bareFiles_dependencies] at surrounded
  have listed : (reportOn issues).member "issues" (.arr []) = .ok (.arr issues) := rfl
  rw [payload_eq listed counted sorted, surrounded]
  exact ⟨_, _, rfl, rfl, rfl, rfl⟩

theorem categoriesJson_injective : Function.Injective categoriesJson := by
  intro first second equal
  refine map_injective_iff.mpr ?_ (arr.inj equal)
  intro entry other same
  simp only [obj.injEq, cons.injEq, Prod.mk.injEq, true_and, and_true, nat,
    int.injEq, Int.natCast_inj] at same
  exact Prod.ext (ofText?_injective same.1) same.2

theorem filesJson_injective : Function.Injective filesJson := by
  intro first second equal
  refine map_injective_iff.mpr ?_ (arr.inj equal)
  intro entry other same
  simp only [obj.injEq, cons.injEq, Prod.mk.injEq, true_and, and_true, str.injEq,
    int.injEq] at same
  exact Prod.ext same.1 same.2

theorem mixedIssues_known : ∀ issue ∈ mixedIssues, IsIssue issue := by
  intro issue member
  simp only [mixedIssues, mem_cons, not_mem_nil, or_false] at member
  rcases member with rfl | rfl | rfl | rfl | rfl | rfl | rfl <;> constructor <;>
    simp [HasText, file?, get?, lookup?, text?]

/-- A null for a category is a category, issues without a file count in their categories only, and
of two files with equal scores the first one comes first. -/
theorem mixedIssues_charts :
    ∃ data charts,
      payload .plain .byName bareFiles secondOfJanuary true (reportOn mixedIssues) = .ok data ∧
      data.get? "charts" = some charts ∧
      charts.get? "issues_by_category" = some (categoriesJson
        [(some "security", 2), (some "general", 1), (none, 1), (some "style", 3)]) ∧
      charts.get? "top_hotspots" = some (filesJson
        [("a.py", 90), ("c.py", 90), ("b.py", 70), ("d.py", 0)]) ∧
      CountsCategories mixedIssues
        [(some "security", 2), (some "general", 1), (none, 1), (some "style", 3)] ∧
      RanksFiles mixedIssues [("a.py", 90), ("c.py", 90), ("b.py", 70), ("d.py", 0)] := by
  rcases exists_charts mixedIssues
    ⟨[(.str "security", 2), (.str "general", 1), (.null, 1), (.str "style", 3)],
      [(.str "b.py", .int 70), (.str "a.py", .int 90), (.str "c.py", .int 90),
        (.str "d.py", .int 0)]⟩
    [(.str "a.py", .int 90), (.str "c.py", .int 90), (.str "b.py", .int 70), (.str "d.py", .int 0)]
    rfl rfl with ⟨data, charts, made, charted, categories, hotspots⟩
  have listed : (reportOn mixedIssues).member "issues" (.arr []) = .ok (.arr mixedIssues) := rfl
  rcases charts_aggregate_issues listed mixedIssues_known with
    ⟨counted, ranked, counts, ranks, shown⟩
  rcases (shown .plain .byName bareFiles secondOfJanuary true).2 data made with
    ⟨own, same, ownCategories, ownHotspots⟩
  cases charted.symm.trans same
  -- what was evaluated and what the charts have to show can only be the same lists
  cases categoriesJson_injective (Option.some.inj (ownCategories.symm.trans categories) :
    categoriesJson counted = categoriesJson
      [(some "security", 2), (some "general", 1), (none, 1), (some "style", 3)])
  cases filesJson_injective (Option.some.inj (ownHotspots.symm.trans hotspots) :
    filesJson ranked = filesJson [("a.py", 90), ("c.py", 90), ("b.py", 70), ("d.py", 0)])
  exact ⟨data, charts, made, charted, categories, hotspots, counts, ranks⟩

/-- A file without a name is a text, but it is not shown. -/
theorem namelessFile_not_shown :
    ∃ data charts shown,
      payload .plain .byName bareFiles secondOfJanuary true (reportOn namelessIssues) = .ok data ∧
      data.get? "charts" = some charts ∧ charts.get? "top_hotspots" = some (.arr shown) ∧
      shown.length ≠ min 10 (namelessIssues.filterMap fun issue =>
        (issue.get? "file").bind text?).eraseDups.length := by
  rcases exists_charts namelessIssues ⟨[(.str "security", 1)], []⟩ [] rfl rfl with
    ⟨data, charts, made, charted, -, hotspots⟩
  exact ⟨data, charts, [], made, charted, hotspots, by decide⟩

end Dashboard

end CodeQuality
