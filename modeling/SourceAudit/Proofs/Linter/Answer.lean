import SourceAudit.Linter.Basic
import SourceAudit.Proofs.Rule.Emission

/-!
# What a linter's answer gives

A linter is asked about the resolved paths of files. If these can be resolved, what becomes of the question hangs on
the answer alone: entries that can be read give a report, and a linter that is unusable gives its reason.

Results:
* `report_of_answers`: an answer of entries that can be read gives a report.
* `report_of_fails`: a linter that is unusable gives no report, but its reason.
* `belongs_of_lint`: what a report holds for a file bears that file, the linter's name and its concern.
* `isEmpty_of_lint`: what a report holds for a file is a finding at least, or a passed check.
-/
namespace SourceAudit

open Fallible

theorem Association.mem_set {α β : Type} [DecidableEq α] {key : α} {value : β} {pairs : List (α × β)} {x : α × β}
    (h : x ∈ set key value pairs) : x = (key, value) ∨ x ∈ pairs := by
  induction pairs with
  | nil => exact .inl (List.mem_singleton.1 h)
  | cons first rest ih =>
    obtain ⟨k, v⟩ := first
    unfold set at h
    split at h
    · next hk =>
      rcases List.mem_cons.1 h with rfl | h
      · exact .inl (by rw [hk])
      · exact .inr (List.mem_cons_of_mem _ h)
    · rcases List.mem_cons.1 h with rfl | h
      · exact .inr List.mem_cons_self
      · exact (ih h).imp_right (List.mem_cons_of_mem _)

theorem Finding.of_place {f g : Finding} {line : Int} {column : Option Int} (h : f.place line column = .ok g) :
    g.file = f.file ∧ g.rule = f.rule ∧ g.category = f.category := by
  unfold place at h
  split at h
  · cases h
  · split at h
    · cases h
    · split at h
      · cases h
        exact ⟨rfl, rfl, rfl⟩
      · split at h
        · cases h
        · cases h
          exact ⟨rfl, rfl, rfl⟩

theorem PassedCheck.of_place {p q : PassedCheck} {line : Option Int} (h : p.place line = .ok q) :
    q.file = p.file ∧ q.rule = p.rule ∧ q.category = p.category := by
  unfold place at h
  split at h
  · cases h
  · split at h
    · cases h
      exact ⟨rfl, rfl, rfl⟩
    · split at h
      · cases h
      · cases h
        exact ⟨rfl, rfl, rfl⟩

namespace Linter

variable {l : Linter} {resolve : Path → Except Disk.ResolveFault Path} {calls : Nat} {files : List (Path × String)}

/-- The question about some files is answered with entries that can be read. -/
def Answers (l : Linter) (resolve : Path → Except Disk.ResolveFault Path) (calls : Nat)
    (files : List (Path × String)) : Prop :=
  ∀ requested, requestedOf resolve files = .ok requested →
    ∃ entries, (l.backend.run calls (requested.map (·.1))).entries = .ok entries ∧
      ∀ entry ∈ entries, ∃ reading, l.readEntry resolve requested entry = .ok reading

/-- The question about some files finds the linter unusable. -/
def Fails (l : Linter) (resolve : Path → Except Disk.ResolveFault Path) (calls : Nat)
    (files : List (Path × String)) (reason : Unusable) : Prop :=
  ∀ requested, requestedOf resolve files = .ok requested →
    (l.backend.run calls (requested.map (·.1))).entries = .error (.unusable reason)

/-! ## Asking -/

theorem requestedOf_isOk (h : ∀ f ∈ files, ∃ p, resolve f.1 = .ok p) :
    ∃ requested, requestedOf resolve files = .ok requested := by
  unfold requestedOf
  generalize ([] : List (String × String)) = before
  induction files generalizing before with
  | nil => exact ⟨before, rfl⟩
  | cons f rest ih =>
    obtain ⟨p, hp⟩ := h f List.mem_cons_self
    obtain ⟨requested, hreq⟩ := ih (fun g hg => h g (List.mem_cons_of_mem _ hg)) (Association.set p.toString f.2 before)
    refine ⟨requested, ?_⟩
    rw [List.foldlM_cons]
    refine bind_eq_ok.2 ⟨_, bind_eq_ok.2 ⟨p, hp, rfl⟩, hreq⟩

theorem readEntries_of_forall {requested : List (String × String)} {entries : List LintJson}
    (h : ∀ entry ∈ entries, ∃ reading, l.readEntry resolve requested entry = .ok reading) :
    ∃ readings, l.readEntries resolve requested entries = (readings, none) := by
  induction entries with
  | nil => exact ⟨[], rfl⟩
  | cons entry rest ih =>
    obtain ⟨reading, hr⟩ := h entry List.mem_cons_self
    obtain ⟨readings, hrs⟩ := ih fun e he => h e (List.mem_cons_of_mem _ he)
    refine ⟨reading :: readings, ?_⟩
    unfold readEntries
    rw [hr]
    simp only [hrs]

/-- An answer of entries that can be read gives a report. -/
theorem report_of_answers (hresolve : ∀ f ∈ files, ∃ p, resolve f.1 = .ok p) (h : l.Answers resolve calls files) :
    ∃ report, (l.lint resolve calls files).report = .ok report := by
  unfold lint
  cases files with
  | nil => exact ⟨{}, rfl⟩
  | cons f rest =>
    obtain ⟨requested, hreq⟩ := requestedOf_isOk hresolve
    obtain ⟨entries, hentries, hread⟩ := h requested hreq
    obtain ⟨readings, hreadings⟩ := readEntries_of_forall hread
    refine ⟨readings.foldl l.addReading {}, ?_⟩
    simp only [List.isEmpty_cons, Bool.false_eq_true, if_false, hreq, hentries, hreadings]

/-- A linter that is unusable gives no report, but its reason. -/
theorem report_of_fails {reason : Unusable} (hne : files ≠ []) (hresolve : ∀ f ∈ files, ∃ p, resolve f.1 = .ok p)
    (h : l.Fails resolve calls files reason) : (l.lint resolve calls files).report = .error (.unusable reason) := by
  unfold lint
  obtain ⟨requested, hreq⟩ := requestedOf_isOk hresolve
  simp only [List.isEmpty_eq_false_iff.2 hne, Bool.false_eq_true, if_false, hreq, h requested hreq]

/-! ## Reading -/

theorem readMessage_eq_some {relative : String} {message : LintJson} {f : Finding}
    (h : l.readMessage relative message = .ok (some f)) :
    f.file = relative ∧ f.rule = l.name ∧ f.category = l.concern := by
  unfold readMessage at h
  split at h
  · split at h
    · cases h
    · obtain ⟨line, -, h⟩ := bind_eq_ok.1 h
      obtain ⟨column, -, h⟩ := bind_eq_ok.1 h
      simp only at h
      split at h
      · next placed hplace =>
        cases h
        exact Finding.of_place hplace
      · cases h
  · cases h
  · cases h
  · cases h

theorem belongs_of_readMessages {relative : String} {messages : List LintJson} {key : String} {o : Outcome}
    (h : l.readMessages relative messages = .ok (.judged key o)) : o.Belongs key l.name l.concern := by
  unfold readMessages at h
  split at h
  · cases h
  · obtain ⟨read, hread, h⟩ := bind_eq_ok.1 h
    simp only at h
    split at h
    · split at h
      · next placed hplace =>
        cases h
        exact ⟨by simp, by simpa using PassedCheck.of_place hplace⟩
      · cases h
    · cases h
      refine ⟨fun f hf => ?_, by simp⟩
      obtain ⟨found, hfound, hsome⟩ := List.mem_filterMap.1 hf
      obtain ⟨message, -, hm⟩ := exists_of_mem_mapM hread hfound
      exact readMessage_eq_some (hm.trans (by rw [← hsome]; rfl))

theorem isEmpty_of_readMessages {relative : String} {messages : List LintJson} {key : String} {o : Outcome}
    (h : l.readMessages relative messages = .ok (.judged key o)) : o.isEmpty = false := by
  unfold readMessages at h
  split at h
  · cases h
  · obtain ⟨read, -, h⟩ := bind_eq_ok.1 h
    simp only at h
    split at h
    · split at h
      · cases h
        rfl
      · cases h
    · next hfound =>
      cases h
      simpa [Outcome.isEmpty] using hfound

theorem readMessages_of_readEntry {requested : List (String × String)} {entry : LintJson} {key : String} {o : Outcome}
    (h : l.readEntry resolve requested entry = .ok (.judged key o)) :
    ∃ relative messages, l.readMessages relative messages = .ok (.judged key o) := by
  unfold readEntry at h
  split at h
  · obtain ⟨path, -, h⟩ := bind_eq_ok.1 h
    split at h
    · cases h
    · obtain ⟨messages, -, h⟩ := bind_eq_ok.1 h
      exact ⟨_, messages, h⟩
  · cases h

theorem mem_readEntries {requested : List (String × String)} {entries : List LintJson} {reading : EntryReading}
    (h : reading ∈ (l.readEntries resolve requested entries).1) :
    ∃ entry ∈ entries, l.readEntry resolve requested entry = .ok reading := by
  induction entries with
  | nil => cases h
  | cons entry rest ih =>
    unfold readEntries at h
    split at h
    · cases h
    · next first hfirst =>
      rcases List.mem_cons.1 h with rfl | h
      · exact ⟨entry, List.mem_cons_self, hfirst⟩
      · obtain ⟨e, he, hr⟩ := ih h
        exact ⟨e, List.mem_cons_of_mem _ he, hr⟩

section Outcomes

variable {P : String → Outcome → Prop}

theorem forall_of_foldl {readings : List EntryReading} (h : ∀ key o, .judged key o ∈ readings → P key o)
    {before : LintReport} (hb : ∀ x ∈ before.outcomes, P x.1 x.2) :
    ∀ x ∈ (readings.foldl l.addReading before).outcomes, P x.1 x.2 := by
  induction readings generalizing before with
  | nil => exact hb
  | cons reading rest ih =>
    refine ih (fun key o hm => h key o (List.mem_cons_of_mem _ hm)) ?_
    cases reading with
    | unrequested path => exact hb
    | unparsed relative detail => exact hb
    | judged relative outcome =>
      intro x hx
      rcases Association.mem_set hx with rfl | hx
      · exact h relative outcome List.mem_cons_self
      · exact hb x hx

theorem forall_of_lint
    (hP : ∀ relative messages key o, l.readMessages relative messages = .ok (.judged key o) → P key o)
    {report : LintReport} (h : (l.lint resolve calls files).report = .ok report) :
    ∀ x ∈ report.outcomes, P x.1 x.2 := by
  unfold lint at h
  split at h
  · cases h
    simp
  · split at h
    · cases h
    · next requested hreq =>
      simp only at h
      split at h
      · cases h
      · next entries hentries =>
        simp only at h
        split at h
        · cases h
        · cases h
          refine forall_of_foldl (fun key o hm => ?_) (by simp)
          obtain ⟨entry, -, hr⟩ := mem_readEntries hm
          obtain ⟨relative, messages, hr⟩ := readMessages_of_readEntry hr
          exact hP relative messages key o hr

end Outcomes

/-- What a report holds for a file bears that file, the linter's name and its concern. -/
theorem belongs_of_lint {report : LintReport} (h : (l.lint resolve calls files).report = .ok report) :
    ∀ x ∈ report.outcomes, x.2.Belongs x.1 l.name l.concern :=
  forall_of_lint (fun _ _ _ _ hr => belongs_of_readMessages hr) h

/-- What a report holds for a file is a finding at least, or a passed check. -/
theorem isEmpty_of_lint {report : LintReport} (h : (l.lint resolve calls files).report = .ok report) :
    ∀ x ∈ report.outcomes, x.2.isEmpty = false :=
  forall_of_lint (fun _ _ _ _ hr => isEmpty_of_readMessages hr) h

end Linter
end SourceAudit
