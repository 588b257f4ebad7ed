import SourceAudit.Proofs.Audit.Delegation

/-!
# Where the entries of a result come from

A result names the rules that were evaluated and marks whether the concern was judged at all. Both are collected over
the candidates: the names as a set that is put into the order of the profile afterwards, the mark whenever a candidate
contributes. They agree, because a candidate contributes in two ways only. Either the rules for its language judged it,
and there is at least one such rule, or it was left to the linter and the linter's report has an outcome for it.

Results:
* `Profile.contribution_eq_some`: the two ways in which a candidate contributes.
* `Profile.rulesEvaluated_resultOf`: the rules evaluated, by the candidates that the rules judged.
* `Profile.each_resultOf`: every entry of a result bears a rule that was evaluated and is on a candidate that was read.
* `Audit.runConcern_consistent`: what a result holds and how it is marked agree, on every tree and for every linter.
-/
namespace SourceAudit

open Disk (Candidate)
open Fallible

/-! ## Entries of an outcome -/

namespace Outcome

/-- All entries of an outcome have a property of their file, their rule and their concern. -/
structure Each (P : String → String → Concern → Prop) (o : Outcome) : Prop where
  findings : ∀ f ∈ o.findings, P f.file f.rule f.category
  passedChecks : ∀ k ∈ o.passedChecks, P k.file k.rule k.category

variable {P : String → String → Concern → Prop}

theorem Each.imp {Q : String → String → Concern → Prop} {o : Outcome} (h : o.Each P)
    (hPQ : ∀ file rule concern, P file rule concern → Q file rule concern) : o.Each Q :=
  ⟨fun f hf => hPQ _ _ _ (h.findings f hf), fun k hk => hPQ _ _ _ (h.passedChecks k hk)⟩

theorem each_combine {outcomes : List Outcome} (h : ∀ o ∈ outcomes, o.Each P) : (combine outcomes).Each P := by
  constructor
  · intro f hf
    obtain ⟨o, ho, hf⟩ := List.mem_flatMap.1 hf
    exact (h o ho).findings f hf
  · intro k hk
    obtain ⟨o, ho, hk⟩ := List.mem_flatMap.1 hk
    exact (h o ho).passedChecks k hk

theorem Belongs.each {o : Outcome} {file rule : String} {concern : Concern} (h : o.Belongs file rule concern)
    (hP : P file rule concern) : o.Each P := by
  constructor
  · intro f hf
    obtain ⟨hfile, hrule, hconcern⟩ := h.findings f hf
    rwa [hfile, hrule, hconcern]
  · intro k hk
    obtain ⟨hfile, hrule, hconcern⟩ := h.passedChecks k hk
    rwa [hfile, hrule, hconcern]

end Outcome

/-! ## Candidates that contribute -/

namespace Profile

variable {p : Profile} {d : Disk} {c : Candidate} {candidates : List Candidate}

/-- Whether the rules judge a candidate: it can be read, it is not left to the linter, and its text has to do with the
concern as the rules for its language see it, of which there is one at least. -/
def isObserved (p : Profile) (d : Disk) (c : Candidate) : Bool :=
  let rules := p.rulesFor (Language.ofPath? c.path)
  !p.delegates (Language.ofPath? c.path) && !rules.isEmpty && (SourceText.read d c.path).text?.any (p.observes rules)

/-- Whether a candidate is left to the linter and the linter has an outcome for it. -/
def isAnswered (p : Profile) (d : Disk) (linted : List (String × Outcome)) (c : Candidate) : Bool :=
  p.leaves d c && (linted.lookup c.relative).isSome

theorem isReadable_of_isObserved (h : p.isObserved d c = true) : c.isReadable d = true := by
  simp only [isObserved, Bool.and_eq_true] at h
  obtain ⟨text, htext, -⟩ := (Option.any_eq_true _ _).1 h.2
  rw [← c.isSome_text? d, htext]
  rfl

theorem fate_eq_judged_iff {names : List String} {o : Outcome} :
    p.fate d c = .judged names o ↔
      p.isObserved d c = true ∧ names = (p.rulesFor (Language.ofPath? c.path)).map (·.name) ∧
        ∃ text, (SourceText.read d c.path).text? = some text ∧
          o = Outcome.combine ((p.rulesFor (Language.ofPath? c.path)).map (·.verdict c.relative text)) := by
  unfold fate isObserved
  cases (SourceText.read d c.path).text? with
  | none => simp
  | some text =>
    simp only [Option.any_some]
    cases hdel : p.delegates (Language.ofPath? c.path) with
    | true => simp
    | false =>
      cases hskip : (p.rulesFor (Language.ofPath? c.path)).isEmpty ||
          !p.observes (p.rulesFor (Language.ofPath? c.path)) text with
      | true =>
        rw [Bool.or_eq_true, Bool.not_eq_true'] at hskip
        rcases hskip with hskip | hskip <;> simp [hskip]
      | false =>
        rw [Bool.or_eq_false_iff, Bool.not_eq_false'] at hskip
        simp [hskip, eq_comm]

/-- A candidate contributes in two ways: by the rules that judged it, or by the outcome that the linter has for it. -/
theorem contribution_eq_some {linted : List (String × Outcome)} {names : List String} {o : Outcome} :
    EvaluatedFile.contribution p.linterName linted (c, p.fate d c) = some (names, o) ↔
      (p.isObserved d c = true ∧ names = (p.rulesFor (Language.ofPath? c.path)).map (·.name) ∧
        ∃ text, (SourceText.read d c.path).text? = some text ∧
          o = Outcome.combine ((p.rulesFor (Language.ofPath? c.path)).map (·.verdict c.relative text))) ∨
      (p.leaves d c = true ∧ names = [p.linterName] ∧ linted.lookup c.relative = some o) := by
  have hleaves : p.leaves d c = true ↔ p.fate d c = .delegated := by
    rw [fate_eq_delegated_iff, leaves, Bool.and_eq_true]
  rw [← fate_eq_judged_iff, hleaves]
  unfold EvaluatedFile.contribution
  cases p.fate d c with
  | skipped => simp
  | outside => simp
  | judged rules outcome => simp
  | delegated =>
    cases linted.lookup c.relative with
    | none => simp
    | some outcome => simp [eq_comm]

/-! ## Rules evaluated -/

def contributions (p : Profile) (d : Disk) (linted : List (String × Outcome)) (candidates : List Candidate) :
    List (List String × Outcome) :=
  (p.evaluated d candidates).filterMap (·.contribution p.linterName linted)

theorem mem_contributions {linted : List (String × Outcome)} {x : List String × Outcome} :
    x ∈ p.contributions d linted candidates ↔
      ∃ c ∈ candidates, EvaluatedFile.contribution p.linterName linted (c, p.fate d c) = some x := by
  simp [contributions, evaluated, List.mem_filterMap]

theorem contributions_ne_nil {linted : List (String × Outcome)} :
    p.contributions d linted candidates ≠ [] ↔
      ∃ c ∈ candidates, p.isObserved d c = true ∨ p.isAnswered d linted c = true := by
  constructor
  · intro hne
    obtain ⟨⟨names, o⟩, hx⟩ := List.exists_mem_of_ne_nil _ hne
    obtain ⟨c, hc, hcon⟩ := mem_contributions.1 hx
    rcases contribution_eq_some.1 hcon with ⟨hobs, -, -⟩ | ⟨hleft, -, hlook⟩
    · exact ⟨c, hc, .inl hobs⟩
    · exact ⟨c, hc, .inr (by simp [isAnswered, hleft, hlook])⟩
  · rintro ⟨c, hc, hobs | hans⟩
    · obtain ⟨text, htext⟩ := Option.isSome_iff_exists.1 ((c.isSome_text? d).trans (isReadable_of_isObserved hobs))
      exact List.ne_nil_of_mem
        (mem_contributions.2 ⟨c, hc, contribution_eq_some.2 (.inl ⟨hobs, rfl, text, htext, rfl⟩)⟩)
    · obtain ⟨hleft, hsome⟩ := (Bool.and_eq_true _ _).mp hans
      obtain ⟨o, ho⟩ := Option.isSome_iff_exists.1 hsome
      exact List.ne_nil_of_mem (mem_contributions.2 ⟨c, hc, contribution_eq_some.2 (.inr ⟨hleft, rfl, ho⟩)⟩)

/-- The names that judged a file: those of the rules for the language of a candidate that the rules judged, and that of
the linter if it has an outcome for a candidate. -/
theorem mem_ran (linted : List (String × Outcome)) {name : String} :
    name ∈ (p.contributions d linted candidates).flatMap (·.1) ↔
      (∃ c ∈ candidates, p.isObserved d c = true ∧ name ∈ (p.rulesFor (Language.ofPath? c.path)).map (·.name)) ∨
        (name = p.linterName ∧ ∃ c ∈ candidates, p.isAnswered d linted c = true) := by
  rw [List.mem_flatMap]
  constructor
  · rintro ⟨⟨names, o⟩, hx, hname⟩
    obtain ⟨c, hc, hcon⟩ := mem_contributions.1 hx
    rcases contribution_eq_some.1 hcon with ⟨hobs, rfl, -⟩ | ⟨hleft, rfl, hlook⟩
    · exact .inl ⟨c, hc, hobs, hname⟩
    · exact .inr ⟨List.mem_singleton.1 hname, c, hc, by simp [isAnswered, hleft, hlook]⟩
  · rintro (⟨c, hc, hobs, hname⟩ | ⟨rfl, c, hc, hans⟩)
    · obtain ⟨text, htext⟩ := Option.isSome_iff_exists.1 ((c.isSome_text? d).trans (isReadable_of_isObserved hobs))
      exact ⟨_, mem_contributions.2 ⟨c, hc, contribution_eq_some.2 (.inl ⟨hobs, rfl, text, htext, rfl⟩)⟩, hname⟩
    · obtain ⟨hleft, hsome⟩ := (Bool.and_eq_true _ _).mp hans
      obtain ⟨o, ho⟩ := Option.isSome_iff_exists.1 hsome
      exact ⟨_, mem_contributions.2 ⟨c, hc, contribution_eq_some.2 (.inr ⟨hleft, rfl, ho⟩)⟩, List.mem_singleton_self _⟩

theorem exists_linter_of_leaves (h : p.leaves d c = true) : ∃ l, p.linter = some l ∧ p.linterName = l.name := by
  have hdel := ((Bool.and_eq_true _ _).mp h).2
  unfold delegates at hdel
  cases hl : p.linter with
  | none => rw [hl] at hdel; cases hdel
  | some l => exact ⟨l, rfl, by rw [linterName, hl]; rfl⟩

/-- The rules evaluated, in the order of the profile: those for the language of a candidate that the rules judged, and
then the linter if it has an outcome for a candidate. -/
theorem rulesEvaluated_resultOf (hrules : (p.rules.map (·.name)).Nodup)
    (hlinter : ∀ l ∈ p.linter, l.name ∉ p.rules.map (·.name)) (report : LintReport) (failed : Bool) :
    (p.resultOf (p.evaluated d candidates) report failed).rulesEvaluated =
      (p.rules.filter fun r => candidates.any fun c =>
        p.isObserved d c && r.appliesTo (Language.ofPath? c.path)).map (·.name) ++
      (if candidates.any (p.isAnswered d report.outcomes) then [p.linterName] else []) := by
  let ran := (p.contributions d report.outcomes candidates).flatMap (·.1)
  change p.evaluatedNames ran = _
  have hnotLinter : ∀ c, p.isAnswered d report.outcomes c = true → p.linterName ∉ p.rules.map (·.name) := by
    intro c hans
    obtain ⟨l, hl, hname⟩ := exists_linter_of_leaves ((Bool.and_eq_true _ _).mp hans).1
    rw [hname]
    exact hlinter l hl
  have hrule : ∀ r ∈ p.rules, ran.contains r.name = candidates.any fun c =>
      p.isObserved d c && r.appliesTo (Language.ofPath? c.path) := by
    intro r hr
    rw [Bool.eq_iff_iff, List.contains_iff_mem, mem_ran, List.any_eq_true]
    simp only [Bool.and_eq_true]
    constructor
    · rintro (⟨c, hc, hobs, hname⟩ | ⟨hname, c, -, hans⟩)
      · obtain ⟨s, hs, hsame⟩ := List.mem_map.1 hname
        obtain ⟨hmem, happlies⟩ := List.mem_filter.1 hs
        have heq : s = r := List.inj_on_of_nodup_map hrules hmem hr hsame
        exact ⟨c, hc, hobs, heq ▸ happlies⟩
      · exact absurd (hname ▸ List.mem_map_of_mem hr) (hnotLinter c hans)
    · rintro ⟨c, hc, hobs, happlies⟩
      exact .inl ⟨c, hc, hobs, List.mem_map_of_mem (List.mem_filter.2 ⟨hr, happlies⟩)⟩
  unfold evaluatedNames
  congr 1
  · rw [List.filter_map]
    exact congrArg _ (List.filter_congr hrule)
  · cases hl : p.linter with
    | none =>
      have hnone : candidates.any (p.isAnswered d report.outcomes) = false := by
        rw [List.any_eq_false]
        intro c _ hans
        obtain ⟨l, hsome, -⟩ := exists_linter_of_leaves ((Bool.and_eq_true _ _).mp hans).1
        rw [hl] at hsome
        cases hsome
      rw [hnone]
      rfl
    | some l =>
      have hname : p.linterName = l.name := by rw [linterName, hl]; rfl
      have hasked : ran.contains l.name = candidates.any (p.isAnswered d report.outcomes) := by
        rw [Bool.eq_iff_iff, List.contains_iff_mem, mem_ran, List.any_eq_true]
        constructor
        · rintro (⟨c, hc, -, hmem⟩ | ⟨-, hans⟩)
          · exact absurd ((List.filter_sublist.map _).subset hmem) (hlinter l hl)
          · exact hans
        · intro hans
          exact .inr ⟨hname.symm, hans⟩
      rw [Option.toList_some, List.map_singleton, List.filter_singleton, hasked, hname, Bool.cond_eq_ite]

theorem mem_evaluatedNames {ran : List String} {name : String} :
    name ∈ p.evaluatedNames ran ↔
      name ∈ ran ∧ (name ∈ p.rules.map (·.name) ∨ name ∈ p.linter.toList.map (·.name)) := by
  simp only [evaluatedNames, List.mem_append, List.mem_filter, List.contains_iff_mem]
  tauto

theorem nodup_evaluatedNames (hrules : (p.rules.map (·.name)).Nodup)
    (hlinter : ∀ l ∈ p.linter, l.name ∉ p.rules.map (·.name)) (ran : List String) : (p.evaluatedNames ran).Nodup := by
  have hall : (p.rules.map (·.name) ++ p.linter.toList.map (·.name)).Nodup := by
    cases hl : p.linter with
    | none => simpa using hrules
    | some l =>
      have hname := hlinter l hl
      rw [Option.toList_some, List.map_singleton, List.nodup_append]
      refine ⟨hrules, List.nodup_singleton _, fun x hx y hy => ?_⟩
      rw [List.mem_singleton.1 hy]
      exact fun heq => hname (heq ▸ hx)
  exact hall.sublist (List.filter_sublist.append List.filter_sublist)

/-- A rule or the linter was evaluated exactly if the concern was judged. -/
theorem rulesEvaluated_ne_nil_iff (report : LintReport) (failed : Bool) :
    let result := p.resultOf (p.evaluated d candidates) report failed
    result.rulesEvaluated ≠ [] ↔ result.implemented = true := by
  intro result
  have himpl : result.implemented = true ↔ p.contributions d report.outcomes candidates ≠ [] := by
    rw [← List.isEmpty_eq_false_iff, ← Bool.not_eq_true']
    rfl
  rw [himpl]
  constructor
  · intro hne hnil
    obtain ⟨name, hname⟩ := List.exists_mem_of_ne_nil _ hne
    have hran : name ∈ (p.contributions d report.outcomes candidates).flatMap (·.1) := (mem_evaluatedNames.1 hname).1
    rw [hnil] at hran
    cases hran
  · intro hne
    obtain ⟨c, hc, hobs | hans⟩ := contributions_ne_nil.1 hne
    · -- A candidate that the rules judged has a rule for its language.
      have hrules : p.rulesFor (Language.ofPath? c.path) ≠ [] := by
        intro hnil
        simp [isObserved, hnil] at hobs
      obtain ⟨r, hr⟩ := List.exists_mem_of_ne_nil _ hrules
      have hran := (mem_ran report.outcomes).2 (.inl ⟨c, hc, hobs, List.mem_map_of_mem (f := (·.name)) hr⟩)
      exact List.ne_nil_of_mem (mem_evaluatedNames.2 ⟨hran, .inl (List.mem_map_of_mem (List.mem_filter.1 hr).1)⟩)
    · obtain ⟨l, hl, hname⟩ := exists_linter_of_leaves ((Bool.and_eq_true _ _).mp hans).1
      have hran := (mem_ran report.outcomes).2 (.inr ⟨rfl, c, hc, hans⟩)
      exact List.ne_nil_of_mem (mem_evaluatedNames.2 ⟨hran, .inr (by rw [hl, hname]; simp)⟩)

/-! ## Entries of a result -/

/-- What may put its name to an entry on a candidate: the linter if the candidate is left to it, and a rule for its
language if the rules judged it. -/
def Signs (p : Profile) (d : Disk) (c : Candidate) (name : String) : Prop :=
  (p.leaves d c = true ∧ name = p.linterName) ∨
    (p.isObserved d c = true ∧ ∃ r ∈ p.rules, r.name = name ∧ r.appliesTo (Language.ofPath? c.path) = true)

/-- Every entry of a result is for the concern, bears the name of something evaluated, and is on a candidate that was
read, signed as it may be there. -/
theorem each_resultOf {report : LintReport} (hrules : ∀ r ∈ p.rules, r.concern = p.concern)
    (hlinted : ∀ x ∈ report.outcomes, x.2.Belongs x.1 p.linterName p.concern) (failed : Bool) :
    let result := p.resultOf (p.evaluated d candidates) report failed
    (⟨result.findings, result.passedChecks⟩ : Outcome).Each fun file rule category =>
      category = p.concern ∧ rule ∈ result.rulesEvaluated ∧
        ∃ c ∈ candidates, c.isReadable d = true ∧ file = c.relative ∧ p.Signs d c rule := by
  intro result
  have hout : (⟨result.findings, result.passedChecks⟩ : Outcome) =
      Outcome.combine ((p.contributions d report.outcomes candidates).map (·.2)) := rfl
  rw [hout]
  refine Outcome.each_combine fun o ho => ?_
  obtain ⟨⟨names, o⟩, hx, rfl⟩ := List.mem_map.1 ho
  obtain ⟨c, hc, hcon⟩ := mem_contributions.1 hx
  rcases contribution_eq_some.1 hcon with ⟨hobs, -, text, -, rfl⟩ | ⟨hleft, -, hlook⟩
  · refine Outcome.each_combine fun o ho => ?_
    obtain ⟨r, hr, rfl⟩ := List.mem_map.1 ho
    obtain ⟨hmem, happlies⟩ := List.mem_filter.1 hr
    refine (r.belongs_verdict c.relative text).each ⟨hrules r hmem, ?_, ?_⟩
    · have hran := (mem_ran report.outcomes).2 (.inl ⟨c, hc, hobs, List.mem_map_of_mem (f := (·.name)) hr⟩)
      exact mem_evaluatedNames.2 ⟨hran, .inl (List.mem_map_of_mem hmem)⟩
    · exact ⟨c, hc, isReadable_of_isObserved hobs, rfl, .inr ⟨hobs, r, hmem, rfl, happlies⟩⟩
  · obtain ⟨l, hl, hname⟩ := exists_linter_of_leaves hleft
    have hans : p.isAnswered d report.outcomes c = true := by simp [isAnswered, hleft, hlook]
    refine (hlinted _ (Association.mem_of_lookup hlook)).each ⟨rfl, ?_, ?_⟩
    · have hran := (mem_ran report.outcomes).2 (.inr ⟨rfl, c, hc, hans⟩)
      exact mem_evaluatedNames.2 ⟨hran, .inr (by rw [hl, hname]; simp)⟩
    · exact ⟨c, hc, ((Bool.and_eq_true _ _).mp hleft).1, rfl, .inl ⟨hleft, rfl⟩⟩

/-- The outcomes that the linter has for the candidates left to it; none if it gives no report. -/
def linted (p : Profile) (d : Disk) (calls : Nat) (candidates : List Candidate) : List (String × Outcome) :=
  ((p.lintReport d calls (p.delegatedFiles d candidates)).toOption.map (·.outcomes)).getD []

end Profile

namespace Audit

variable {a : Audit} {p : Profile} {calls : Nat} {candidates : List Candidate}

/-- What linting comes to holds the outcomes that the linter has. -/
theorem outcomes_of_lint {report : LintReport} {failed : Bool}
    (h : (a.lint p calls (p.evaluated a.disk candidates)).outcome = .ok (report, failed)) :
    report.outcomes = p.linted a.disk calls candidates := by
  unfold lint at h
  rw [Profile.map_delegated_evaluated] at h
  unfold Profile.linted Profile.lintReport
  cases hl : p.linter with
  | none =>
    rw [hl] at h
    cases h
    rfl
  | some l =>
    rw [hl] at h
    simp only at h ⊢
    cases hd : p.delegatedFiles a.disk candidates with
    | nil =>
      rw [hd] at h
      cases h
      rfl
    | cons f rest =>
      rw [hd] at h
      simp only [List.isEmpty_cons, Bool.false_eq_true, if_false] at h
      cases hr : (l.lint a.disk.resolve calls (f :: rest)).report with
      | ok found =>
        rw [hr] at h
        cases h
        rfl
      | error fault =>
        rw [hr] at h
        cases fault with
        | unusable reason =>
          cases h
          rfl
        | broken reason => cases h

theorem belongs_linted (hlinter : ∀ l ∈ p.linter, l.concern = p.concern) {d : Disk} :
    ∀ x ∈ p.linted d calls candidates, x.2.Belongs x.1 p.linterName p.concern := by
  unfold Profile.linted Profile.lintReport
  cases hl : p.linter with
  | none => intro x hx; cases hx
  | some l =>
    have hname : p.linterName = l.name := by rw [Profile.linterName, hl]; rfl
    simp only
    cases hr : (l.lint d.resolve calls (p.delegatedFiles d candidates)).report with
    | error fault => intro x hx; cases hx
    | ok report =>
      intro x hx
      rw [hname, ← hlinter l hl]
      exact Linter.belongs_of_lint hr x hx

theorem resultOf_of_runConcern (hp : a.disk.root.isProper = true) {root : Path} {concern : Concern} {result : Result}
    (hfind : a.registry.find? concern = some p) (h : (a.runConcern calls root concern).outcome = .ok result) :
    (a.disk.candidates a.ignoredDirs root p.filter = [] ∧ result = .notApplicable concern) ∨
      ∃ report failed, report.outcomes = p.linted a.disk calls (a.disk.candidates a.ignoredDirs root p.filter) ∧
        result = p.resultOf (p.evaluated a.disk (a.disk.candidates a.ignoredDirs root p.filter)) report failed := by
  obtain ⟨-, q, hq, ⟨hnil, rfl⟩ | ⟨-, hj⟩⟩ := runConcern_eq_ok.1 h
  · rw [hfind] at hq
    cases hq
    exact .inl ⟨hnil, rfl⟩
  · rw [hfind] at hq
    cases hq
    obtain ⟨evaluations, report, failed, heval, hlint, rfl⟩ := judge_eq_ok.1 hj
    rw [mapM_evaluate fun c hc => Disk.relative_ne_empty hp hc] at heval
    cases heval
    rw [Profile.zip_fate] at hlint ⊢
    exact .inr ⟨report, failed, outcomes_of_lint hlint, rfl⟩

end Audit

/-! ## The rules of the concerns -/

/-- The languages that a rule is for, unless it is for all files. -/
def Rule.languages : Rule → Option (List Language)
  | line c => c.languages
  | adjacent c => c.languages

theorem Rule.mem_languages_of_appliesTo {r : Rule} {languages : List Language} (hr : r.languages = some languages)
    {language? : Option Language} (h : r.appliesTo language? = true) :
    ∃ language ∈ languages, language? = some language := by
  have hany : language?.any languages.contains = true := by
    cases r with
    | line c =>
      simp only [Rule.languages] at hr
      simpa only [Rule.appliesTo, LineCheck.appliesTo, hr] using h
    | adjacent c =>
      simp only [Rule.languages] at hr
      simpa only [Rule.appliesTo, AdjacentMarkers.appliesTo, hr] using h
  obtain ⟨language, hsome, hmem⟩ := (Option.any_eq_true _ _).1 hany
  exact ⟨language, List.contains_iff_mem.1 hmem, hsome⟩

theorem Catalogue.Sanitization.isSome_languages : ∀ r ∈ rules, r.languages.isSome = true := by
  intro r hr
  obtain ⟨c, hc, rfl⟩ := List.mem_map.1 hr
  have hall : ∀ c ∈ pythonRules ++ phpRules ++ javaRules, c.languages.isSome = true := by decide +kernel
  exact hall c hc

theorem Registry.concern_of_mem_rules (linter : Option Linter) (concern : Concern) :
    ∀ r ∈ (profileOf linter concern).rules, r.concern = concern := by
  cases concern <;> simp only [profileOf] <;> decide +kernel

theorem Registry.linter_profileOf (linter : Option Linter) (concern : Concern) :
    (profileOf linter concern).linter = if concern = .sanitization then linter else none := by
  cases concern <;> rfl

/-- The concerns of a report without rules are those that were not judged, if for each result the one means the
other. -/
theorem Report.concernsWithoutRules_eq {r : Report}
    (h : ∀ result ∈ r.results, result.rulesEvaluated ≠ [] ↔ result.implemented = true) :
    r.concernsWithoutRules =
      r.requested.countP fun concern => (r.get? concern).any fun result => !result.implemented := by
  rw [concernsWithoutRules, requested, List.countP_map]
  refine List.countP_congr fun result hmem => ?_
  have hiff := h result hmem
  rw [Function.comp_apply, get?_of_mem hmem, Option.any_some, List.isEmpty_iff]
  cases himpl : result.implemented with
  | true => simpa [himpl] using hiff
  | false => simpa [himpl] using hiff

/-- **What a result holds and how it is marked agree.** Let the linter, if there is one, work for sanitization under a
name that is no rule's. Whatever the tree and whatever the linter answers, the result of a concern has these properties.
Something was evaluated exactly if the concern was judged. What was evaluated is listed once each, in the order of the
profile: the rules for the language of a candidate that the rules judged, and then the linter if it has an outcome for a
candidate left to it. Each finding and each passed check is for the concern, bears something that was evaluated, and is
on a candidate that was read; if it is for sanitization and the file is not left to the linter, it bears a rule for the
language of the file. Findings and passed checks come with a concern that was judged, and this, like a linter that
failed, with a candidate. So the concerns of a report without rules are those that were not judged. -/
theorem Audit.runConcern_consistent (linter : Option Linter) (d : Disk) (ignored : List String) (root : Path)
    (hp : d.root.isProper = true)
    (hlinter : ∀ l ∈ linter, l.concern = .sanitization ∧ l.name ∉ Catalogue.Sanitization.rules.map (·.name)) :
    let a : Audit := { registry := .standard linter, disk := d, ignoredDirs := ignored }
    (∀ calls concern result, (a.runConcern calls root concern).outcome = .ok result →
      let p := Registry.profileOf linter concern
      let candidates := d.candidates ignored root p.filter
      let entries : Outcome := ⟨result.findings, result.passedChecks⟩
      (result.rulesEvaluated ≠ [] ↔ result.implemented = true) ∧
      result.rulesEvaluated.Nodup ∧
      result.rulesEvaluated =
        (p.rules.filter fun r => candidates.any fun c =>
          p.isObserved d c && r.appliesTo (Language.ofPath? c.path)).map (·.name) ++
        (if candidates.any (p.isAnswered d (p.linted d calls candidates)) then [p.linterName] else []) ∧
      entries.Each (fun file rule category =>
        category = concern ∧ rule ∈ result.rulesEvaluated ∧
          ∃ c ∈ candidates, c.isReadable d = true ∧ file = c.relative ∧ p.Signs d c rule) ∧
      (concern = .sanitization → entries.Each fun file rule _ =>
        p.delegates (Language.ofPath? (.ofString file)) = false →
          ∃ r ∈ p.rules, r.name = rule ∧ ∃ languages language, r.languages = some languages ∧ language ∈ languages ∧
            Language.ofPath? (.ofString file) = some language) ∧
      (result.findings ≠ [] ∨ result.passedChecks ≠ [] → result.implemented = true) ∧
      (result.implemented = true ∨ result.toolFailed = true → result.applicable = true)) ∧
    ∀ concerns report, (a.scan root concerns).outcome = .ok report →
      report.concernsWithoutRules =
        concerns.countP fun concern => (report.get? concern).any fun result => !result.implemented := by
  intro a
  have hlinter' : ∀ concern, ∀ l ∈ (Registry.profileOf linter concern).linter,
      l.concern = concern ∧ l.name ∉ (Registry.profileOf linter concern).rules.map (·.name) := by
    intro concern l hl
    rw [Registry.linter_profileOf] at hl
    split at hl
    · next hc =>
      subst hc
      exact hlinter l hl
    · cases hl
  have hiff : ∀ calls concern result, (a.runConcern calls root concern).outcome = .ok result →
      (result.rulesEvaluated ≠ [] ↔ result.implemented = true) := by
    intro calls concern result h
    rcases resultOf_of_runConcern hp (Registry.find?_standard linter concern) h with ⟨-, rfl⟩ | ⟨report, failed, -, rfl⟩
    · simp [Result.notApplicable]
    · exact Profile.rulesEvaluated_ne_nil_iff report failed
  refine ⟨fun calls concern result h => ?_, fun concerns report h => ?_⟩
  · intro p candidates entries
    have hconcern : p.concern = concern := Registry.concern_of_find? (Registry.find?_standard linter concern)
    have hcoherent := coherent_of_runConcern h
    refine ⟨hiff calls concern result h, ?_⟩
    rcases resultOf_of_runConcern hp (Registry.find?_standard linter concern) h with
      ⟨hnil, rfl⟩ | ⟨report, failed, hlinted, rfl⟩
    · have hnone : candidates = [] := hnil
      have hempty : ∀ P, entries.Each P := fun P => ⟨by simp [entries, Result.notApplicable],
        by simp [entries, Result.notApplicable]⟩
      refine ⟨List.nodup_nil, ?_, hempty _, fun _ => hempty _, hcoherent.implemented, hcoherent.applicable⟩
      rw [hnone]
      simp [Result.notApplicable]
    · have hnames := (fun l hl => (hlinter' concern l hl).2 : ∀ l ∈ p.linter, l.name ∉ p.rules.map (·.name))
      have hrules : (p.rules.map (·.name)).Nodup := Registry.nodup_rules linter concern
      have hbelongs : ∀ x ∈ report.outcomes, x.2.Belongs x.1 p.linterName p.concern := by
        rw [hlinted]
        exact belongs_linted fun l hl => (hlinter' concern l hl).1.trans hconcern.symm
      have heach : entries.Each _ := Profile.each_resultOf
        (fun r hr => (Registry.concern_of_mem_rules linter concern r hr).trans hconcern.symm) hbelongs failed
      rw [hconcern] at heach
      refine ⟨Profile.nodup_evaluatedNames hrules hnames _, ?_, heach, ?_, hcoherent.implemented, hcoherent.applicable⟩
      · rw [← hlinted]
        exact Profile.rulesEvaluated_resultOf hrules hnames report failed
      · intro hsan
        refine heach.imp fun file rule category hentry hlocal => ?_
        obtain ⟨-, -, c, hc, -, rfl, hsigns⟩ := hentry
        rw [Disk.language_relative hp hc] at hlocal ⊢
        rcases hsigns with ⟨hleft, -⟩ | ⟨-, r, hr, hname, happlies⟩
        · rw [((Bool.and_eq_true _ _).mp hleft).2] at hlocal
          cases hlocal
        · subst hsan
          obtain ⟨languages, hlanguages⟩ := Option.isSome_iff_exists.1 (Catalogue.Sanitization.isSome_languages r hr)
          obtain ⟨language, hmem, hlanguage⟩ := Rule.mem_languages_of_appliesTo hlanguages happlies
          exact ⟨r, hr, hname, languages, language, hlanguages, hmem, hlanguage⟩
  · obtain ⟨hrequested, hruns⟩ := results_of_scan h
    rw [← hrequested]
    refine Report.concernsWithoutRules_eq fun result hmem => ?_
    obtain ⟨calls, hrun⟩ := hruns result hmem
    exact hiff calls result.concern result hrun

/-- On the tree of all kinds of files the rules for Python and then the linter are evaluated, as only a program and a
script contribute; cross-origin access has no subject there. -/
theorem Audit.runConcern_consistent_mixedTree :
    let a : Audit := { registry := .standard (some alarmLinter), disk := mixedTree }
    mixedTree.root.isProper = true ∧ alarmLinter.name ∉ Catalogue.Sanitization.rules.map (·.name) ∧
      (∃ result, (a.runConcern 0 ⟨"/", ["r"]⟩ .sanitization).outcome = .ok result ∧
        result.rulesEvaluated = Catalogue.Sanitization.pythonRules.map (·.name) ++ ["eslint"] ∧
        result.implemented = true ∧ result.findings ≠ [] ∧
        ∀ f ∈ result.findings, f.category = .sanitization ∧ f.rule ∈ result.rulesEvaluated) ∧
      ∃ report, (a.scan ⟨"/", ["r"]⟩ [.sanitization, .cors]).outcome = .ok report ∧
        report.concernsWithoutRules = 1 := by
  intro a
  have hproper : mixedTree.root.isProper = true := by decide +kernel
  have hname : alarmLinter.name ∉ Catalogue.Sanitization.rules.map (·.name) := by decide +kernel
  have hlinter : ∀ l ∈ some alarmLinter,
      l.concern = .sanitization ∧ l.name ∉ Catalogue.Sanitization.rules.map (·.name) := by
    intro l hl
    cases hl
    exact ⟨rfl, hname⟩
  obtain ⟨hresult, hreport⟩ :=
    Audit.runConcern_consistent (some alarmLinter) mixedTree defaultIgnoredDirs ⟨"/", ["r"]⟩ hproper hlinter
  have hfound : ((a.runConcern 0 ⟨"/", ["r"]⟩ .sanitization).outcome.toOption.map fun r => r.findings.isEmpty) =
      some false := by decide +kernel
  have hcount : ((a.scan ⟨"/", ["r"]⟩ [.sanitization, .cors]).outcome.toOption.map fun report =>
      [Concern.sanitization, .cors].countP fun concern => (report.get? concern).any fun r => !r.implemented) =
        some 1 := by decide +kernel
  refine ⟨hproper, hname, ?_, ?_⟩
  · cases hrun : (a.runConcern 0 ⟨"/", ["r"]⟩ .sanitization).outcome with
    | error fault => rw [hrun] at hfound; cases hfound
    | ok result =>
      rw [hrun] at hfound
      have hne : result.findings ≠ [] := List.isEmpty_eq_false_iff.1 (Option.some.inj hfound)
      obtain ⟨-, -, hrules, heach, -, himpl, -⟩ := hresult 0 .sanitization result hrun
      refine ⟨result, rfl, hrules.trans (by decide +kernel), himpl (.inl hne), hne, fun f hf => ?_⟩
      obtain ⟨hcategory, hrule, -⟩ := heach.findings f hf
      exact ⟨hcategory, hrule⟩
  · cases hscan : (a.scan ⟨"/", ["r"]⟩ [.sanitization, .cors]).outcome with
    | error fault => rw [hscan] at hcount; cases hcount
    | ok report =>
      rw [hscan] at hcount
      exact ⟨report, rfl, (hreport _ report hscan).trans (Option.some.inj hcount)⟩

end SourceAudit
