import SourceAudit.Proofs.Fallible
import SourceAudit.Report.Basic
import SourceAudit.Report.Terminal

/-!
# How results make a report

`Report.ofResults` files the results one after another and then takes out those that were asked for. Where each
concern asked for has its own result, in the same order, the report holds just these results.

Results:
* `results_ofResults`: a report of results asked for in their own order holds these results.
* `get?_of_mem`: the result of a concern is the one that the report holds.
* `getLast?_terminalLines`: the last line on a terminal is the verdict.
-/
namespace SourceAudit.Report

open Fallible

theorem insert_results {r : Report} {result : Result} (h : result.concern ∉ r.requested) :
    (r.insert result).results = r.results ++ [result] := by
  unfold insert
  rw [dif_neg h]

theorem insertNew_eq_ok {r r' : Report} {result : Result} (h : r.insertNew result = .ok r') :
    r'.results = r.results ++ [result] := by
  unfold insertNew at h
  split at h
  · cases h
  · next hn => cases h; exact insert_results hn

theorem foldlM_insertNew {results : List Result} : ∀ {r r' : Report},
    results.foldlM insertNew r = .ok r' → r'.results = r.results ++ results := by
  induction results with
  | nil => intro r r' h; cases h; rw [List.append_nil]
  | cons result rest ih =>
    intro r r' h
    obtain ⟨next, hn, h⟩ := bind_eq_ok.1 h
    rw [ih h, insertNew_eq_ok hn, List.append_assoc, List.singleton_append]

/-- The result of a concern is the one that the report holds. -/
theorem get?_of_mem {r : Report} {result : Result} (h : result ∈ r.results) :
    r.get? result.concern = some result := by
  have hd := r.distinct
  unfold get?
  generalize r.results = results at h hd
  induction results with
  | nil => cases h
  | cons first rest ih =>
    simp only [List.map_cons, List.nodup_cons] at hd
    rcases List.mem_cons.1 h with rfl | h
    · simp
    · have hne : first.concern ≠ result.concern := fun e =>
        hd.1 (e ▸ List.mem_map_of_mem (f := (·.concern)) h)
      rw [List.find?_cons_of_neg (by simpa using hne)]
      exact ih h hd.2

theorem state_of_mem {r : Report} {result : Result} (h : result ∈ r.results) :
    r.state result.concern = result.state := by
  unfold state
  rw [get?_of_mem h]
  rfl

theorem foldlM_insertFrom {all : Report} {rest : List Result} : ∀ (done : List Result) {r r' : Report},
    all.results = done ++ rest → r.results = done →
      (rest.map (·.concern)).foldlM (insertFrom all) r = .ok r' → r'.results = all.results := by
  induction rest with
  | nil =>
    intro done r r' hall hr h
    cases h
    rw [hr, hall, List.append_nil]
  | cons result rest ih =>
    intro done r r' hall hr h
    have hmem : result ∈ all.results := by rw [hall]; simp
    obtain ⟨next, hn, h⟩ := bind_eq_ok.1 h
    simp only [insertFrom, get?_of_mem hmem, Except.ok.injEq] at hn
    have hnew : result.concern ∉ r.requested := by
      have hd := all.distinct
      rw [hall, List.map_append, List.nodup_append] at hd
      intro hc
      rw [requested, hr] at hc
      exact hd.2.2 _ hc _ (by simp) rfl
    refine ih (done ++ [result]) (by rw [hall, List.append_assoc, List.singleton_append]) ?_ h
    rw [← hn, insert_results hnew, hr]

/-- A report of results asked for in their own order holds these results. -/
theorem results_ofResults {results : List Result} {r : Report}
    (h : ofResults results (some (results.map (·.concern))) = .ok r) : r.results = results := by
  obtain ⟨all, hall, h⟩ := bind_eq_ok.1 h
  have hres : all.results = results := foldlM_insertNew hall
  rw [foldlM_insertFrom [] (by rw [hres, List.nil_append]) rfl h, hres]

/-- The last line on a terminal is the verdict. -/
theorem getLast?_terminalLines (r : Report) (maxFindings : Int) :
    (r.terminalLines maxFindings).getLast? =
      some (if r.isPass then "Overall       : PASS" else "Overall       : FAIL") := by
  unfold terminalLines totals
  simp only [List.getLast?_append, List.getLast?_cons_cons, List.getLast?_singleton, Option.some_or]
  cases r.isPass <;> rfl

end SourceAudit.Report
