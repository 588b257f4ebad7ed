import SourceAudit.Proofs.Text.Markup
import SourceAudit.Report.Page

/-!
# The page of a report is safe from what it shows

File names, messages, notes and advice come from the tree or from a linter, and any of them may be hostile. Compare two
reports that are put together alike, result by result, whatever their texts and positions: their pages have the same
skeleton, so that no text opens or closes anything. And on every page each ampersand begins an entity of the page's own.

Results:
* `flatMap_skeleton_concernElements`: the skeleton of a concern's block hangs on how its result is put together alone.
* `begins_concernElements`: each ampersand in a concern's block begins an entity.
* `page_inert`: pages of reports that are put together alike have the same skeleton, and each ampersand of a page begins
  an entity.
-/
namespace SourceAudit

open Text

/-- Two results are put together alike: they are about the same concern, are marked alike, and hold as many findings,
passed checks and notes. -/
structure Result.Alike (a b : Result) : Prop where
  concern : a.concern = b.concern
  applicable : a.applicable = b.applicable
  implemented : a.implemented = b.implemented
  toolFailed : a.toolFailed = b.toolFailed
  findings : a.findings.length = b.findings.length
  passedChecks : a.passedChecks.length = b.passedChecks.length
  notes : a.notes.length = b.notes.length

theorem Result.Alike.message {a b : Result} (h : a.Alike b) : a.message = b.message := by
  unfold Result.message
  rw [h.concern, h.applicable, h.implemented, h.toolFailed]

namespace Report

theorem filter_chartData {p : Char → Bool} (hp : ∀ c, c.isDigit = true → p c = false) (r r' : Report) :
    r.chartData.compact.toList.filter p = r'.chartData.compact.toList.filter p := by
  have hcount : ∀ n : Nat, (Json.writeInt n).filter p = [] := by
    intro n
    rw [Json.writeInt, if_neg (by omega), Int.natAbs_natCast, List.filter_eq_nil_iff]
    intro c hc
    rw [hp c (Nat.isDigit_of_mem_toDigits (by decide) (by decide) hc)]
    exact Bool.false_ne_true
  simp only [Json.compact, String.toList_ofList, chartData, stateColors, List.map_cons, List.map_nil,
    Json.compactChars, Json.compactMembers, Json.compactItems, List.filter_cons, List.filter_append, hcount]

/-- A character that is no digit stands in every chart, or in none. -/
theorem notMem_chartData {c : Char} (hc : c.isDigit = false) (hnone : c ∉ Json.compactChars ({} : Report).chartData)
    (r : Report) : c ∉ r.chartData.compact.toList := by
  have hsame := filter_chartData (p := (· == c)) (fun x hx => by
    rw [beq_eq_false_iff_ne]
    rintro rfl
    rw [hc] at hx
    cases hx) r {}
  intro hmem
  have hfound : c ∈ r.chartData.compact.toList.filter (· == c) := List.mem_filter.2 ⟨hmem, beq_self_eq_true c⟩
  rw [hsame, Json.compact, String.toList_ofList] at hfound
  exact hnone (List.mem_filter.1 hfound).1

/-- No chart has anything in it that would end its script. -/
theorem script_chartData (r : Report) : Text.script r.chartData.compact = r.chartData.compact :=
  script_of_notMem (r.notMem_chartData (by decide) (by decide +kernel))

/-! ## Skeletons -/

theorem skeleton_stateName (s : State) : skeleton s.name = [] := by
  cases s <;> rfl

theorem skeleton_severityName (s : Severity) : skeleton s.name = [] := by
  cases s <;> rfl

theorem flatMap_skeleton_map {α : Type} {f : α → String} (h : ∀ x y, skeleton (f x) = skeleton (f y)) :
    ∀ {xs ys : List α}, xs.length = ys.length → (xs.map f).flatMap skeleton = (ys.map f).flatMap skeleton
  | [], [], _ => rfl
  | x :: xs, y :: ys, hlen => by
    rw [List.map_cons, List.map_cons, List.flatMap_cons, List.flatMap_cons, h x y,
      flatMap_skeleton_map h (Nat.succ.inj hlen)]
  | [], _ :: _, hlen => by cases hlen
  | _ :: _, [], hlen => by cases hlen

theorem skeleton_findingElement (f g : Finding) : skeleton (findingElement f) = skeleton (findingElement g) := by
  unfold findingElement
  simp only [skeleton_append, skeleton_markup, skeleton_severityName]

theorem flatMap_skeleton_findingElements {a b : Result} (h : a.findings.length = b.findings.length) :
    (findingElements a).flatMap skeleton = (findingElements b).flatMap skeleton := by
  have hempty : a.findings.isEmpty = b.findings.isEmpty := by
    rw [Bool.eq_iff_iff, List.isEmpty_iff_length_eq_zero, List.isEmpty_iff_length_eq_zero, h]
  unfold findingElements
  rw [hempty]
  split
  · rfl
  · simp only [List.cons_append, List.flatMap_cons, List.flatMap_append,
      flatMap_skeleton_map skeleton_findingElement h]

/-- The skeleton of a concern's block hangs on how its result is put together alone. -/
theorem flatMap_skeleton_concernElements (r r' : Report) {a b : Result} (h : a.Alike b) :
    (r.concernElements a).flatMap skeleton = (r'.concernElements b).flatMap skeleton := by
  have hnotes := flatMap_skeleton_map (f := fun n => "<p class=\"note\">" ++ markup n ++ "</p>")
    (fun x y => by simp only [skeleton_append, skeleton_markup]) h.notes
  simp only [concernElements, List.flatMap_append, List.flatMap_cons, skeleton_append, skeleton_markup,
    skeleton_stateName, skeleton_toString, h.message, hnotes, flatMap_skeleton_findingElements h.findings]

theorem flatMap_skeleton_blocks (r r' : Report) {results results' : List Result}
    (h : List.Forall₂ Result.Alike results results') :
    (results.flatMap r.concernElements).flatMap skeleton = (results'.flatMap r'.concernElements).flatMap skeleton := by
  induction h with
  | nil => rfl
  | cons halike _ ih =>
    rw [List.flatMap_cons, List.flatMap_cons, List.flatMap_append, List.flatMap_append, ih,
      flatMap_skeleton_concernElements r r' halike]

theorem skeleton_page {r r' : Report} (h : List.Forall₂ Result.Alike r.results r'.results) :
    skeleton r.page = skeleton r'.page := by
  have hchart : skeleton r.chartData.compact = skeleton r'.chartData.compact :=
    filter_chartData (fun _ => not_delimiter_of_isDigit) r r'
  rw [page, page, skeleton_intercalate, skeleton_intercalate]
  simp only [pageLines, List.flatMap_append, List.flatMap_cons, skeleton_append, skeleton_toString, script_chartData,
    hchart, flatMap_skeleton_blocks r r' h]

/-! ## Entities -/

theorem begins_stateName (s : State) : BeginsEntities s.name.toList := by
  cases s <;> exact .ofList rfl

theorem begins_severityName (s : Severity) : BeginsEntities s.name.toList := by
  cases s <;> exact .ofList rfl

theorem begins_findingElement (f : Finding) : BeginsEntities (findingElement f).toList := by
  unfold findingElement
  refine begins_append (begins_append (begins_append (begins_append (begins_append (begins_append (begins_append
    (begins_append ?_ ?_) ?_) ?_) ?_) ?_) ?_) ?_) ?_
  · exact .ofList rfl
  · exact begins_severityName f.severity
  · exact .ofList rfl
  · exact begins_markup f.location
  · exact .ofList rfl
  · exact begins_markup f.message
  · exact .ofList rfl
  · exact begins_markup f.quickFix
  · exact .ofList rfl

theorem begins_findingElements (result : Result) :
    ∀ line ∈ findingElements result, BeginsEntities line.toList := by
  intro line hline
  unfold findingElements at hline
  split at hline
  · cases hline
  · rcases List.mem_append.1 hline with hline | hline
    · rcases List.mem_cons.1 hline with rfl | hline
      · exact .ofList rfl
      · obtain ⟨f, -, rfl⟩ := List.mem_map.1 hline
        exact begins_findingElement f
    · rw [List.mem_singleton] at hline
      subst hline
      exact .ofList rfl

/-- Each ampersand in a concern's block begins an entity. -/
theorem begins_concernElements (r : Report) (result : Result) :
    ∀ line ∈ r.concernElements result, BeginsEntities line.toList := by
  have hconcern : BeginsEntities ("<h2>" ++ markup result.concern.name ++ "</h2>").toList :=
    begins_append (begins_append (.ofList rfl) (begins_markup _)) (.ofList rfl)
  have hstatus : ∀ s : State,
      BeginsEntities ("<p class=\"status " ++ s.name ++ "\">Status: " ++ s.name ++ "</p>").toList := by
    intro s
    refine begins_append (begins_append (begins_append (begins_append ?_ (begins_stateName s)) ?_)
      (begins_stateName s)) ?_ <;> exact .ofList rfl
  have hcounts : ∀ m n : Nat,
      BeginsEntities ("<p>Findings: " ++ toString m ++ " &middot; Passed checks: " ++ toString n ++ "</p>").toList := by
    intro m n
    refine begins_append (begins_append (begins_append (begins_append ?_ (begins_toString m)) ?_)
      (begins_toString n)) ?_ <;> exact .ofList rfl
  have hmessage : ∀ m ∈ result.message.toList, BeginsEntities ("<p>Message: " ++ markup m ++ "</p>").toList := by
    intro m _
    exact begins_append (begins_append (.ofList rfl) (begins_markup m)) (.ofList rfl)
  have hnote : ∀ n ∈ result.notes, BeginsEntities ("<p class=\"note\">" ++ markup n ++ "</p>").toList := by
    intro n _
    exact begins_append (begins_append (.ofList rfl) (begins_markup n)) (.ofList rfl)
  unfold concernElements
  simp only [List.forall_mem_append, List.forall_mem_cons, List.forall_mem_map]
  refine ⟨⟨⟨⟨⟨?_, hconcern, hstatus _, hcounts _ _, List.forall_mem_nil _⟩, hmessage⟩, hnote⟩,
    begins_findingElements result⟩, ?_, List.forall_mem_nil _⟩
  · exact .ofList rfl
  · exact .ofList rfl

theorem begins_styleSheet : BeginsEntities styleSheet.toList := by
  have hrules : ∀ rule ∈ styleRules, BeginsEntities rule.1.toList ∧ BeginsEntities rule.2.toList := by
    unfold styleRules
    simp only [List.forall_mem_cons]
    refine ⟨⟨?_, begins_append ?_ ?_⟩, ⟨?_, ?_⟩, ⟨?_, ?_⟩, ⟨?_, ?_⟩, ⟨?_, ?_⟩, ⟨?_, ?_⟩, ⟨?_, ?_⟩, ⟨?_, ?_⟩, ⟨?_, ?_⟩,
      ⟨?_, ?_⟩, ⟨?_, ?_⟩, ⟨?_, ?_⟩, ⟨?_, ?_⟩, List.forall_mem_nil _⟩
    all_goals exact .ofList rfl
  unfold styleSheet
  rw [String.toList_append, String.toList_join]
  refine .append (.ofList rfl) (.flatMap fun text htext => ?_)
  obtain ⟨rule, hrule, rfl⟩ := List.mem_map.1 htext
  obtain ⟨hselector, hbody⟩ := hrules rule hrule
  exact begins_append (begins_append (begins_append hselector (.ofList rfl)) hbody) (.ofList rfl)

theorem begins_chartData (r : Report) : BeginsEntities r.chartData.compact.toList :=
  .of_not_mem (r.notMem_chartData (by decide) (by decide +kernel))

theorem begins_page (r : Report) : BeginsEntities r.page.toList := by
  have hsource : BeginsEntities ("<script src=\"" ++ chartSource ++ "\"></script>").toList :=
    begins_append (begins_append (.ofList rfl) (.ofList rfl)) (.ofList rfl)
  have hstyle : BeginsEntities ("<style>" ++ styleSheet ++ "</style>").toList :=
    begins_append (begins_append (.ofList rfl) begins_styleSheet) (.ofList rfl)
  have htotals : BeginsEntities ("<p>Total findings: " ++ toString r.totalFindings ++
      " &middot; Total passed checks: " ++ toString r.totalPassed ++ "</p>").toList := by
    refine begins_append (begins_append (begins_append (begins_append ?_ (begins_toString _)) ?_)
      (begins_toString _)) ?_ <;> exact .ofList rfl
  have hchart : BeginsEntities ("const chartData = " ++ Text.script r.chartData.compact ++ ";").toList := by
    rw [script_chartData]
    exact begins_append (begins_append (.ofList rfl) (begins_chartData r)) (.ofList rfl)
  have hblocks : ∀ line ∈ r.results.flatMap r.concernElements, BeginsEntities line.toList := by
    intro line hline
    obtain ⟨result, -, hline⟩ := List.mem_flatMap.1 hline
    exact begins_concernElements r result line hline
  refine .intercalate ?_
  unfold pageLines
  simp only [List.forall_mem_append, List.forall_mem_cons, hsource, hstyle, htotals, hchart, true_and]
  -- What is left beside the blocks is written on every page, two lines of it in two parts.
  refine ⟨⟨⟨?_, ?_, ?_, ?_, ?_, ?_, ?_, ?_, ?_, ?_, ?_, List.forall_mem_nil _⟩, hblocks⟩,
    ?_, ?_, ?_, ?_, begins_append ?_ ?_, begins_append ?_ ?_, ?_, ?_, ?_, ?_, List.forall_mem_nil _⟩
  all_goals exact .ofList rfl

/-- **No text of a report reaches the markup of its page.** If two reports hold results that are put together alike,
one by one and in the same order, their pages have the same characters `<`, `>`, `"` and `'` in the same order, whatever
file names, positions, messages, notes, rules and advice they show. And each ampersand of a page begins one of the
entities. -/
theorem page_inert (r r' : Report) :
    (List.Forall₂ Result.Alike r.results r'.results → skeleton r.page = skeleton r'.page) ∧
      ∀ before after, r.page.toList = before ++ '&' :: after → ∃ e ∈ entities, e.toList <+: '&' :: after :=
  ⟨skeleton_page, begins_page r⟩

/-! ## A hostile report -/

/-- A report with a finding, a passed check and a note, all on one file. -/
def reportOn (file message note advice : String) (line : Nat) : Report where
  results := [{
    concern := .cors, applicable := true, implemented := true, notes := [note]
    findings := [{ file, line, message, category := .cors, severity := .high, rule := "cors", quickFix := advice }]
    passedChecks := [{ file, message, category := .cors, rule := "cors" }] }]

/-- A report whose texts try to break out of their elements has the page of a harmless one, as far as markup goes. -/
theorem page_inert_hostile :
    let harmless := reportOn "app.js" "Any origin is allowed." "read" "Name the origin." 3
    let hostile := reportOn "\"><img src='x'>.js" "</div></body><script>alert('&lt;')</script>" "&<!--" "'\"&&" 40
    List.Forall₂ Result.Alike hostile.results harmless.results ∧ hostile.results ≠ harmless.results ∧
      skeleton hostile.page = skeleton harmless.page ∧
      ∀ before after, hostile.page.toList = before ++ '&' :: after → ∃ e ∈ entities, e.toList <+: '&' :: after := by
  intro harmless hostile
  have halike : List.Forall₂ Result.Alike hostile.results harmless.results :=
    .cons ⟨rfl, rfl, rfl, rfl, rfl, rfl, rfl⟩ .nil
  obtain ⟨hskeleton, hentities⟩ := page_inert hostile harmless
  exact ⟨halike, by decide +kernel, hskeleton halike, hentities⟩

end Report
end SourceAudit
