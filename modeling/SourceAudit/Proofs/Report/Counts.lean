import SourceAudit.Proofs.Audit.Verdict
import SourceAudit.Proofs.Report.Document
import SourceAudit.Proofs.Report.Requests
import SourceAudit.Report.Page

/-!
# The counts of a report

A report counts the same things several times over: findings as such, by severity and by file, concerns by state, and
these once more for the chart of the page. Each count is a count by buckets. As no item falls into two of them and none
outside, the counts of all buckets add up to the number of items, and so the several totals agree.

Results:
* `Summary.count_ofFindings`: the summary counts the findings of each severity.
* `Report.stateCounts_eq`: the tally counts the concerns in each state.
* `Report.tallied`: the counts of a report agree.
* `Report.aggregation_coherent`: when results make a report, of which results it is, and that its counts agree.
-/
namespace SourceAudit

/-! ## Severities -/

namespace Summary

theorem count_increment (s : Summary) (v w : Severity) :
    (s.increment v).count w = s.count w + if v = w then 1 else 0 := by
  cases v <;> cases w <;> rfl

/-- The summary counts the findings of each severity. -/
theorem count_ofFindings (findings : List Finding) (v : Severity) :
    (ofFindings findings).count v = findings.countP (·.severity = v) := by
  induction findings using List.reverseRecOn with
  | nil => cases v <;> rfl
  | append_singleton findings f ih =>
    rw [ofFindings, List.foldl_concat, count_increment, List.countP_append, List.countP_singleton, ← ih]
    simp only [decide_eq_true_eq]
    rfl

theorem rows_ofFindings (findings : List Finding) :
    (ofFindings findings).rows = Severity.all.map fun v => (v, findings.countP (·.severity = v)) := by
  simp only [rows, count_ofFindings]

theorem total_eq (s : Summary) : s.total = (s.rows.map (·.2)).sum := by
  simp only [total, rows, Severity.all, List.foldl_cons, List.foldl_nil, List.map_cons, List.map_nil, List.sum_cons,
    List.sum_nil]
  omega

theorem sum_rows (findings : List Finding) : ((ofFindings findings).rows.map (·.2)).sum = findings.length := by
  have hall : ∀ f ∈ findings, f.severity ∈ Severity.all := fun f _ => by cases f.severity <;> decide
  have hnodup : Severity.all.Nodup := by decide
  rw [rows_ofFindings, List.map_map]
  exact sum_countP Finding.severity hnodup hall

end Summary

/-! ## Files -/

theorem sum_groupByFile (findings : List Finding) :
    ((groupByFile findings).map (·.2.length)).sum = findings.length := by
  rw [groupByFile_eq, List.map_map]
  have hall : ∀ f ∈ findings, f.file ∈ (findings.map (·.file)).eraseDups :=
    fun f hf => List.mem_eraseDups.2 (List.mem_map_of_mem hf)
  rw [← sum_countP (·.file) (nodup_eraseDups _) hall]
  simp only [List.countP_eq_length_filter]
  rfl

namespace Report

theorem findingsByFile_of_get? {r : Report} {concern : Concern} {result : Result} (h : r.get? concern = some result) :
    r.findingsByFile concern = groupByFile result.findings := by
  rw [findingsByFile, h]
  rfl

theorem totalFindings_eq (r : Report) : r.totalFindings = (r.results.map (·.findings.length)).sum := by
  rw [totalFindings, findings, List.length_flatMap]

theorem sum_findingsByFile (r : Report) :
    (r.requested.flatMap fun c => (r.findingsByFile c).map (·.2.length)).sum = r.totalFindings := by
  rw [totalFindings_eq, requested, List.flatMap_map, List.flatMap_def, List.sum_flatten, List.map_map]
  refine congrArg List.sum (List.map_congr_left fun result hresult => ?_)
  rw [Function.comp_apply, findingsByFile_of_get? (get?_of_mem hresult), sum_groupByFile]

/-! ## States -/

theorem state_ne_notRun {r : Report} {concern : Concern} (h : concern ∈ r.requested) : r.state concern ≠ .notRun := by
  obtain ⟨result, hget⟩ := mem_requested_iff.1 h
  rw [state, hget]
  exact result.state_ne_notRun

theorem countState_eq (r : Report) (s : State) : r.countState s = r.requested.countP (r.state · = s) := by
  have hstart : ((State.all.map fun s => (s, 0)).lookup s).getD 0 = 0 := by
    cases s <;> rfl
  rw [countState, stateCounts, Association.lookup_foldl_update r.state 0 (fun _ count => count + 1), hstart]
  have hcount : ∀ (concerns : List Concern) (n : Nat),
      concerns.foldl (fun count _ => count + 1) n = n + concerns.length := by
    intro concerns
    induction concerns with
    | nil => exact fun n => rfl
    | cons concern concerns ih =>
      intro n
      rw [List.foldl_cons, ih, List.length_cons]
      omega
  rw [hcount, List.countP_eq_length_filter, Nat.zero_add]

theorem stateCounts_eq (r : Report) : r.stateCounts = State.all.map fun s => (s, r.countState s) := by
  have hkeys : r.stateCounts.map (·.1) = State.all := by
    refine (Association.keys_foldl_update_of_mem r.state 0 _ fun concern _ => ?_).trans (by decide)
    cases r.state concern <;> decide
  have hdistinct : (r.stateCounts.map (·.1)).Nodup := by
    rw [hkeys]
    decide
  rw [Association.eq_map_lookup 0 hdistinct, hkeys]
  rfl

theorem countState_notRun (r : Report) : r.countState .notRun = 0 := by
  rw [countState_eq]
  refine List.countP_eq_zero.2 fun concern hconcern => ?_
  simpa using state_ne_notRun hconcern

theorem sum_stateCounts (r : Report) : (r.stateCounts.map (·.2)).sum = r.requested.length := by
  rw [stateCounts_eq, List.map_map]
  simp only [countState_eq]
  exact sum_countP r.state (by decide) fun concern _ => by cases r.state concern <;> decide

/-- The chart leaves out only the state that no concern of a report has. -/
theorem sum_chart (r : Report) : (stateColors.map fun x => r.countState x.1).sum = r.requested.length := by
  have hstates : (stateColors.map (·.1)).Nodup := by decide
  rw [← sum_countP r.state hstates, List.map_map]
  · simp only [countState_eq]
    rfl
  · intro concern hconcern
    have hrun := state_ne_notRun hconcern
    cases hstate : r.state concern with
    | notRun => exact absurd hstate hrun
    | _ => decide

/-! ## All counts together -/

/-- The counts of a report agree with what it holds, and with each other. -/
structure Tallied (r : Report) : Prop where
  totalFindings : r.totalFindings = (r.results.map (·.findings.length)).sum
  total : r.summary.total = r.totalFindings
  /-- A row says how many findings of its severity there are. -/
  rows : r.summary.rows = Severity.all.map fun v => (v, r.findings.countP (·.severity = v))
  sum_rows : (r.summary.rows.map (·.2)).sum = r.totalFindings
  sum_groups : (r.requested.flatMap fun c => (r.findingsByFile c).map (·.2.length)).sum = r.totalFindings
  /-- A group is made of the findings on its file, in their order. -/
  groups : ∀ c result, r.get? c = some result →
    ∀ g ∈ r.findingsByFile c, g.2 = result.findings.filter (·.file = g.1)
  /-- There is a group for each file with a finding, and groups stand in the order of their first findings. -/
  keys : ∀ c result, r.get? c = some result →
    (∀ file, file ∈ (r.findingsByFile c).map (·.1) ↔ ∃ f ∈ result.findings, f.file = file) ∧
    ((r.findingsByFile c).map (·.1)).Pairwise fun a b =>
      (result.findings.map (·.file)).idxOf a < (result.findings.map (·.file)).idxOf b
  sum_states : (r.stateCounts.map (·.2)).sum = r.requested.length
  notRun : r.stateCounts.lookup .notRun = some 0
  chart : ∃ values : List Nat, r.chartData.get? "values" = some (.array (values.map fun n => .int n)) ∧
    values.sum = (r.stateCounts.map (·.2)).sum

theorem tallied (r : Report) : r.Tallied where
  totalFindings := r.totalFindings_eq
  total := by rw [Summary.total_eq, summary, Summary.sum_rows, Report.totalFindings]
  rows := Summary.rows_ofFindings r.findings
  sum_rows := Summary.sum_rows r.findings
  sum_groups := r.sum_findingsByFile
  groups c result hget g hg := by
    rw [findingsByFile_of_get? hget, groupByFile_eq] at hg
    obtain ⟨file, -, rfl⟩ := List.mem_map.1 hg
    rfl
  keys c result hget := by
    rw [findingsByFile_of_get? hget, files_groupByFile]
    exact ⟨fun file => by rw [List.mem_eraseDups, List.mem_map], pairwise_eraseDups _⟩
  sum_states := r.sum_stateCounts
  notRun := by
    rw [stateCounts_eq, List.lookup_graph _ (by decide), countState_notRun]
  chart := by
    refine ⟨stateColors.map fun x => r.countState x.1, ?_, ?_⟩
    · rfl
    · rw [sum_chart, sum_stateCounts]

/-- **A report is coherent.** Let results be given, and concerns asked for or not. They make a report exactly if the
concerns of the results differ and each concern that was asked for has a result. Without a request the report holds the
results as they are. With one it holds what was asked for, without later repetitions, and it is the same for every order
of the results. Each concern has its own result in it. All counts of the report agree. -/
theorem aggregation_coherent (results : List Result) (requested : Option (List Concern)) :
    ((∃ report, ofResults results requested = .ok report) ↔
      (results.map (·.concern)).Nodup ∧ ∀ concerns ∈ requested, ∀ c ∈ concerns, c ∈ results.map (·.concern)) ∧
    ∀ report, ofResults results requested = .ok report →
      (requested = none → report.results = results) ∧
      (∀ concerns, requested = some concerns → report.requested = concerns.eraseDups ∧
        ∀ results', results'.Perm results → ofResults results' requested = .ok report) ∧
      (∀ c ∈ report.requested, ∃ result ∈ results, result.concern = c ∧ report.get? c = some result) ∧
      report.Tallied := by
  refine ⟨exists_ofResults, fun report hreport => ?_⟩
  refine ⟨fun hnone => ?_, fun concerns hsome => ?_, fun c hc => ?_, report.tallied⟩
  · subst hnone
    rw [ofResults_none] at hreport
    exact results_of_filed hreport
  · subst hsome
    obtain ⟨all, -, htaken⟩ := ofResults_some.1 hreport
    exact ⟨(requested_foldlM_insertFrom htaken).1, fun results' hperm => ofResults_of_perm hperm hreport⟩
  · obtain ⟨result, hget⟩ := mem_requested_iff.1 hc
    obtain ⟨hmem, hconcern⟩ := get?_eq_some_iff.1 hget
    exact ⟨result, mem_of_ofResults hreport result hmem, hconcern, hget⟩

def uncheckedRoute (file : String) (line : Nat) (severity : Severity) : Finding :=
  { file, line, message := "Route without a check.", category := .authorization, severity, rule := "route" }

/-- Three findings, where one on a second file comes between two on the first. -/
def uncheckedRoutes : Result where
  concern := .authorization
  applicable := true
  implemented := true
  findings := [uncheckedRoute "a.py" 4 .high, uncheckedRoute "b.py" 1 .low, uncheckedRoute "a.py" 9 .high]

/-- Results that come in another order than they are asked for, one of them twice. -/
theorem aggregation_coherent_askedTwice :
    ∃ report, ofResults [{ concern := .cors }, uncheckedRoutes] (some [.authorization, .cors, .authorization]) =
        .ok report ∧
      ofResults [uncheckedRoutes, { concern := .cors }] (some [.authorization, .cors, .authorization]) = .ok report ∧
      report.requested = [.authorization, .cors] ∧ report.summary.total = 3 ∧
      (report.findingsByFile .authorization).map (fun g => (g.1, g.2.map (·.line))) =
        [("a.py", [4, 9]), ("b.py", [1])] ∧
      (report.stateCounts.map (·.2)).sum = 2 := by
  obtain ⟨hmade, hall⟩ := aggregation_coherent [{ concern := .cors }, uncheckedRoutes]
    (some [.authorization, .cors, .authorization])
  obtain ⟨report, hreport⟩ := hmade.2 (by decide)
  obtain ⟨-, hasked, -, htallied⟩ := hall report hreport
  obtain ⟨hrequested, hperm⟩ := hasked _ rfl
  have hnumber : report.requested.length = 2 := by
    rw [hrequested]
    decide
  cases hreport
  exact ⟨_, rfl, hperm _ (.swap ..), hrequested, htallied.total.trans rfl, by decide, htallied.sum_states.trans hnumber⟩

end Report
end SourceAudit
