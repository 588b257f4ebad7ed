import SourceAudit.Proofs.Lists
import SourceAudit.Proofs.Report.Assembly

/-!
# When results make a report

Results are filed under their concerns, and a second result for a concern is refused. If concerns were asked for, their
results are then taken out one after another; a concern that has none is refused, and one that was asked for again adds
nothing. The order in which the results came plays no part in what is taken out.

Results:
* `exists_foldlM_insertNew`: results can be filed exactly if their concerns differ.
* `exists_foldlM_insertFrom`, `requested_foldlM_insertFrom`: what was asked for can be taken out exactly if it is there,
  in the order in which it was first asked for.
* `exists_ofResults`: when results make a report.
* `ofResults_of_perm`: a report of what was asked for does not depend on the order of the results.
-/
namespace SourceAudit.Report

open Fallible

theorem get?_eq_some_iff {r : Report} {concern : Concern} {result : Result} :
    r.get? concern = some result ↔ result ∈ r.results ∧ result.concern = concern := by
  constructor
  · intro h
    unfold get? at h
    exact ⟨List.mem_of_find?_eq_some h, by simpa using List.find?_some h⟩
  · intro h
    obtain ⟨hmem, hconcern⟩ := h
    rw [← hconcern, get?_of_mem hmem]

theorem mem_requested_iff {r : Report} {concern : Concern} :
    concern ∈ r.requested ↔ ∃ result, r.get? concern = some result := by
  simp only [requested, List.mem_map, get?_eq_some_iff]

/-! ## Filing results -/

theorem insertNew_eq_ok_iff {r r' : Report} {result : Result} :
    r.insertNew result = .ok r' ↔ result.concern ∉ r.requested ∧ r.insert result = r' := by
  unfold insertNew
  split
  · next h => simp [h]
  · next h => simp [h]

theorem results_of_filed {results : List Result} {all : Report} (h : results.foldlM insertNew {} = .ok all) :
    all.results = results := foldlM_insertNew h

theorem requested_of_filed {results : List Result} {all : Report} (h : results.foldlM insertNew {} = .ok all) :
    all.requested = results.map (·.concern) := by rw [requested, results_of_filed h]

/-- Results can be filed exactly if their concerns differ. -/
theorem exists_foldlM_insertNew {results : List Result} :
    (∃ all, results.foldlM insertNew {} = .ok all) ↔ (results.map (·.concern)).Nodup := by
  induction results using List.reverseRecOn with
  | nil => exact ⟨fun _ => List.nodup_nil, fun _ => ⟨{}, rfl⟩⟩
  | append_singleton results result ih =>
    have hstep : (∃ all, (results ++ [result]).foldlM insertNew {} = .ok all) ↔
        ∃ all, results.foldlM insertNew {} = .ok all ∧ result.concern ∉ all.requested := by
      simp only [List.foldlM_append, bind_eq_ok, List.foldlM_cons, List.foldlM_nil, insertNew_eq_ok_iff]
      constructor
      · intro h
        obtain ⟨_, all, hall, _, ⟨hnew, _⟩, _⟩ := h
        exact ⟨all, hall, hnew⟩
      · intro h
        obtain ⟨all, hall, hnew⟩ := h
        exact ⟨all.insert result, all, hall, _, ⟨hnew, rfl⟩, rfl⟩
    rw [hstep, List.map_append, List.map_singleton, List.nodup_append_comm, List.singleton_append, List.nodup_cons,
      ← ih]
    constructor
    · intro h
      obtain ⟨all, hall, hnew⟩ := h
      exact ⟨requested_of_filed hall ▸ hnew, all, hall⟩
    · intro h
      obtain ⟨hnew, all, hall⟩ := h
      exact ⟨all, hall, requested_of_filed hall ▸ hnew⟩

/-! ## Taking out what was asked for -/

theorem insertFrom_eq_ok {all r r' : Report} {concern : Concern} :
    insertFrom all r concern = .ok r' ↔ ∃ result, all.get? concern = some result ∧ r.insert result = r' := by
  unfold insertFrom
  cases all.get? concern with
  | none => simp
  | some result => simp

theorem requested_insert (r : Report) (result : Result) :
    (r.insert result).requested =
      if result.concern ∈ r.requested then r.requested else r.requested ++ [result.concern] := by
  by_cases h : result.concern ∈ r.requested
  · rw [if_pos h, insert, dif_pos h]
  · rw [if_neg h, requested, insert_results h, List.map_append]
    rfl

theorem mem_insert {r : Report} {result x : Result} (h : x ∈ (r.insert result).results) :
    x ∈ r.results ∨ x = result := by
  by_cases hr : result.concern ∈ r.requested
  · rw [insert, dif_pos hr] at h
    exact .inl h
  · rw [insert_results hr, List.mem_append, List.mem_singleton] at h
    exact h

/-- What is taken out are the concerns asked for, without later repetitions, each with its own result. -/
theorem requested_foldlM_insertFrom {all : Report} {concerns : List Concern} {r : Report}
    (h : concerns.foldlM (insertFrom all) {} = .ok r) :
    r.requested = concerns.eraseDups ∧ ∀ result ∈ r.results, result ∈ all.results := by
  induction concerns using List.reverseRecOn generalizing r with
  | nil =>
    cases h
    exact ⟨rfl, List.forall_mem_nil _⟩
  | append_singleton concerns concern ih =>
    rw [List.foldlM_append] at h
    obtain ⟨before, hbefore, h⟩ := bind_eq_ok.1 h
    obtain ⟨hrequested, hown⟩ := ih hbefore
    obtain ⟨_, hinsert, h⟩ := bind_eq_ok.1 h
    obtain ⟨result, hget, rfl⟩ := insertFrom_eq_ok.1 hinsert
    cases h
    obtain ⟨hmem, rfl⟩ := get?_eq_some_iff.1 hget
    constructor
    · simp only [requested_insert, hrequested, List.mem_eraseDups, eraseDups_concat]
    · intro x hx
      rcases mem_insert hx with hx | rfl
      · exact hown x hx
      · exact hmem

/-- What was asked for can be taken out exactly if each concern has a result. -/
theorem exists_foldlM_insertFrom {all : Report} {concerns : List Concern} :
    ∀ r, (∃ r', concerns.foldlM (insertFrom all) r = .ok r') ↔ ∀ concern ∈ concerns, concern ∈ all.requested := by
  induction concerns with
  | nil => exact fun r => ⟨fun _ => List.forall_mem_nil _, fun _ => ⟨r, rfl⟩⟩
  | cons concern concerns ih =>
    intro r
    simp only [List.foldlM_cons, bind_eq_ok, insertFrom_eq_ok, List.forall_mem_cons, mem_requested_iff]
    constructor
    · intro h
      obtain ⟨r', next, ⟨result, hget, _⟩, hrest⟩ := h
      exact ⟨⟨result, hget⟩, fun c hc => mem_requested_iff.1 ((ih next).1 ⟨r', hrest⟩ c hc)⟩
    · intro h
      obtain ⟨⟨result, hget⟩, hrest⟩ := h
      obtain ⟨r', h⟩ := (ih (r.insert result)).2 fun c hc => mem_requested_iff.2 (hrest c hc)
      exact ⟨r', r.insert result, ⟨result, hget, rfl⟩, h⟩

/-! ## Reports -/

theorem ofResults_none (results : List Result) : ofResults results none = results.foldlM insertNew {} := by
  unfold ofResults
  cases results.foldlM insertNew {} <;> rfl

theorem ofResults_some {results : List Result} {concerns : List Concern} {report : Report} :
    ofResults results (some concerns) = .ok report ↔
      ∃ all, results.foldlM insertNew {} = .ok all ∧ concerns.foldlM (insertFrom all) {} = .ok report := bind_eq_ok

theorem mem_of_ofResults {results : List Result} {requested : Option (List Concern)} {report : Report}
    (h : ofResults results requested = .ok report) : ∀ result ∈ report.results, result ∈ results := by
  cases requested with
  | none =>
    rw [ofResults_none] at h
    rw [results_of_filed h]
    exact fun _ hmem => hmem
  | some concerns =>
    obtain ⟨all, hall, htaken⟩ := ofResults_some.1 h
    rw [← results_of_filed hall]
    exact (requested_foldlM_insertFrom htaken).2

/-- Results make a report exactly if their concerns differ and those asked for are among them. -/
theorem exists_ofResults {results : List Result} {requested : Option (List Concern)} :
    (∃ report, ofResults results requested = .ok report) ↔
      (results.map (·.concern)).Nodup ∧ ∀ concerns ∈ requested, ∀ c ∈ concerns, c ∈ results.map (·.concern) := by
  rw [← exists_foldlM_insertNew]
  cases requested with
  | none => simp [ofResults_none]
  | some concerns =>
    simp only [ofResults_some, Option.mem_def, Option.some.injEq, forall_eq']
    constructor
    · intro h
      obtain ⟨report, all, hall, hreport⟩ := h
      exact ⟨⟨all, hall⟩, requested_of_filed hall ▸ (exists_foldlM_insertFrom {}).1 ⟨report, hreport⟩⟩
    · intro h
      obtain ⟨⟨all, hall⟩, hasked⟩ := h
      obtain ⟨report, hreport⟩ := (exists_foldlM_insertFrom {}).2 (requested_of_filed hall ▸ hasked)
      exact ⟨report, all, hall, hreport⟩

/-- A report of what was asked for does not depend on the order of the results. -/
theorem ofResults_of_perm {results results' : List Result} {concerns : List Concern} {report : Report}
    (hperm : results'.Perm results) (h : ofResults results (some concerns) = .ok report) :
    ofResults results' (some concerns) = .ok report := by
  obtain ⟨all, hall, hreport⟩ := ofResults_some.1 h
  have hnodup : (results'.map (·.concern)).Nodup :=
    (hperm.map _).nodup_iff.2 (exists_foldlM_insertNew.1 ⟨all, hall⟩)
  obtain ⟨all', hall'⟩ := exists_foldlM_insertNew.2 hnodup
  -- Each concern is found under its own result in either order.
  have hget : insertFrom all' = insertFrom all := by
    have hsame : ∀ concern, all'.get? concern = all.get? concern := by
      intro concern
      refine Option.ext fun result => ?_
      rw [get?_eq_some_iff, get?_eq_some_iff, results_of_filed hall', results_of_filed hall, hperm.mem_iff]
    funext r concern
    rw [insertFrom, insertFrom, hsame]
  exact ofResults_some.2 ⟨all', hall', hget ▸ hreport⟩

end SourceAudit.Report
