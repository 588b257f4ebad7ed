import SourceAudit.Proofs.Association
import SourceAudit.Proofs.Json.RoundTrip
import SourceAudit.Proofs.Report.Assembly
import SourceAudit.Report.Document

/-!
# What a JSON report tells

The JSON text of a report is read back as the value it was written from, and that value tells the results apart from
the order in which findings on different files were mixed. `Report.views?` is a reader for such values that knows
nothing of the report; what it gives is set against the results themselves.

Results:
* `fits_toJson`: the value of a report can be read back.
* `Finding.ofJson?_toJson`, `PassedCheck.ofJson?_toJson`: findings and passed checks can be told from their values.
* `views?_toJson`: a report's value gives one view for each result, in order.
* `groupByFile_flatMap`: findings that come file by file are grouped into what they came from.
-/
namespace SourceAudit

/-! ## Grouping -/

theorem files_groupByFile (findings : List Finding) :
    (groupByFile findings).map (·.1) = (findings.map (·.file)).eraseDups :=
  Association.keys_foldl_update Finding.file [] (fun f group => group ++ [f]) findings

theorem lookup_groupByFile (findings : List Finding) (file : String) :
    ((groupByFile findings).lookup file).getD [] = findings.filter (·.file = file) := by
  rw [groupByFile, Association.lookup_foldl_update Finding.file [] (fun f group => group ++ [f])]
  rw [List.foldl_append_eq_append (f := fun f => [f]), List.lookup_nil, Option.getD_none, List.nil_append,
    ← List.flatMap_def, List.flatMap_singleton']

theorem groupByFile_eq (findings : List Finding) :
    groupByFile findings =
      (findings.map (·.file)).eraseDups.map fun file => (file, findings.filter (·.file = file)) := by
  have hdistinct : ((groupByFile findings).map (·.1)).Nodup := files_groupByFile findings ▸ nodup_eraseDups _
  rw [Association.eq_map_lookup [] hdistinct, files_groupByFile]
  exact List.map_congr_left fun file _ => by rw [lookup_groupByFile]

theorem groupByFile_append {file : String} {first rest : List Finding} (hne : first ≠ [])
    (hfirst : ∀ f ∈ first, f.file = file) (hrest : ∀ f ∈ rest, f.file ≠ file) :
    groupByFile (first ++ rest) = (file, first) :: groupByFile rest := by
  have hnames : (first.map (·.file)).eraseDups = [file] :=
    eraseDups_of_forall_eq (by simpa using hne) (by simpa using hfirst)
  have hothers : (rest.map (·.file)).removeAll (first.map (·.file)) = rest.map (·.file) := by
    refine List.filter_eq_self.2 fun name hname => ?_
    obtain ⟨f, hf, rfl⟩ := List.mem_map.1 hname
    have hnew : f.file ∉ first.map (·.file) := fun h => by
      obtain ⟨g, hg, e⟩ := List.mem_map.1 h
      exact hrest f hf (e ▸ hfirst g hg)
    simpa using hnew
  have hkept : first.filter (fun f => f.file = file) = first :=
    List.filter_eq_self.2 fun f hf => decide_eq_true (hfirst f hf)
  have hdropped : rest.filter (fun f => f.file = file) = [] :=
    List.filter_eq_nil_iff.2 fun f hf h => hrest f hf (of_decide_eq_true h)
  rw [groupByFile_eq, groupByFile_eq, List.map_append, List.eraseDups_append, hnames, hothers, List.singleton_append,
    List.map_cons, List.filter_append, hkept, hdropped, List.append_nil]
  refine congrArg _ (List.map_congr_left fun name hname => ?_)
  -- On another file the first findings have nothing.
  obtain ⟨f, hf, rfl⟩ := List.mem_map.1 (List.mem_eraseDups.1 hname)
  have hnone : first.filter (fun g => g.file = f.file) = [] :=
    List.filter_eq_nil_iff.2 fun g hg h => hrest f hf ((of_decide_eq_true h).symm.trans (hfirst g hg))
  rw [List.filter_append, hnone, List.nil_append]

/-- Findings that come file by file are grouped into what they came from. -/
theorem groupByFile_flatMap {blocks : List (String × List Finding)} (hfiles : (blocks.map (·.1)).Nodup)
    (hon : ∀ b ∈ blocks, ∀ f ∈ b.2, f.file = b.1) :
    groupByFile (blocks.flatMap (·.2)) = blocks.filter (!·.2.isEmpty) := by
  induction blocks with
  | nil => rfl
  | cons b blocks ih =>
    rw [List.map_cons, List.nodup_cons] at hfiles
    have hrest := ih hfiles.2 fun b' hb' => hon b' (List.mem_cons_of_mem _ hb')
    rw [List.flatMap_cons]
    cases hb : b.2 with
    | nil => rw [List.nil_append, List.filter_cons_of_neg (by simp [hb]), hrest]
    | cons f fs =>
      rw [List.filter_cons_of_pos (by simp [hb]), ← hrest, ← hb]
      refine groupByFile_append (by simp [hb]) (hon b List.mem_cons_self) fun g hg h => hfiles.1 ?_
      obtain ⟨b', hb', hg⟩ := List.mem_flatMap.1 hg
      exact (hon b' (List.mem_cons_of_mem _ hb') g hg).symm.trans h ▸ List.mem_map_of_mem hb'

theorem flatMap_filter_isEmpty (blocks : List (String × List Finding)) :
    (blocks.filter (!·.2.isEmpty)).flatMap (·.2) = blocks.flatMap (·.2) := by
  induction blocks with
  | nil => rfl
  | cons b blocks ih =>
    cases hb : b.2 with
    | nil => rw [List.filter_cons_of_neg (by simp [hb]), ih, List.flatMap_cons, hb, List.nil_append]
    | cons f fs => rw [List.filter_cons_of_pos (by simp [hb]), List.flatMap_cons, ih, List.flatMap_cons]

/-! ## The value of a report can be read back -/

@[simp]
theorem Concern.ofName?_name (c : Concern) : ofName? c.name = some c := by cases c <;> decide

theorem Concern.name_injective : Function.Injective name := fun c c' h =>
  Option.some.inj (by rw [← ofName?_name c, h, ofName?_name])

namespace Json

theorem fits_ofInt? {depth : Nat} (n : Option Int) : Fits none depth (.ofInt? n) := by
  cases n with
  | none => exact .null
  | some i => exact .int i (by simp)

theorem fits_ofString? {depth : Nat} (s : Option String) : Fits none depth (.ofString? s) := by
  cases s with
  | none => exact .null
  | some s => exact .string s

theorem fits_map {α : Type} {depth : Nat} {xs : List α} {f : α → Json} (h : ∀ x ∈ xs, Fits none depth (f x)) :
    Fits none (depth + 1) (.array (xs.map f)) :=
  .array (List.forall_mem_map.2 h)

end Json

theorem Finding.fits_toJson (f : Finding) {depth : Nat} : Json.Fits none (depth + 1) f.toJson := by
  refine .object (by simp only [List.map_cons, List.map_nil]; decide) ?_
  simp only [List.forall_mem_cons, List.not_mem_nil, false_implies, implies_true, and_true]
  exact ⟨.int _ (by simp), Json.fits_ofInt? _, .string _, .string _, .string _, .string _, .string _⟩

theorem PassedCheck.fits_toJson (p : PassedCheck) {depth : Nat} : Json.Fits none (depth + 1) p.toJson := by
  refine .object (by simp only [List.map_cons, List.map_nil]; decide) ?_
  simp only [List.forall_mem_cons, List.not_mem_nil, false_implies, implies_true, and_true]
  exact ⟨.string _, .string _, .string _, .string _, Json.fits_ofInt? _, Json.fits_ofInt? _⟩

theorem Summary.fits_toJson (s : Summary) {depth : Nat} : Json.Fits none (depth + 1) s.toJson := by
  refine .object (by simp only [List.map_cons, List.map_nil]; decide) ?_
  simp only [List.forall_mem_cons, List.not_mem_nil, false_implies, implies_true, and_true]
  exact ⟨.int _ (by simp), .int _ (by simp), .int _ (by simp), .int _ (by simp)⟩

namespace Report

theorem fits_findingsJson (r : Report) (concern : Concern) : Json.Fits none 3 (r.findingsJson concern) := by
  refine .object ?_ (List.forall_mem_map.2 fun _ _ => Json.fits_map fun f _ => f.fits_toJson)
  rw [List.map_map]
  exact files_groupByFile _ ▸ nodup_eraseDups _

theorem fits_concernJson (r : Report) (result : Result) : Json.Fits none 4 (r.concernJson result) := by
  refine .object (by simp only [List.map_cons, List.map_nil]; decide) ?_
  simp only [List.forall_mem_cons, List.not_mem_nil, false_implies, implies_true, and_true]
  exact ⟨.string _, .bool _, Json.fits_ofString? _, Json.fits_map fun _ _ => .string _,
    Json.fits_map fun _ _ => .string _, r.fits_findingsJson _, Json.fits_map fun p _ => p.fits_toJson⟩

/-- The value of a report can be read back, by a reader that takes integers of any size. -/
theorem fits_toJson (r : Report) : Json.Fits none 6 r.toJson := by
  have hnames : (r.results.map fun result => result.concern.name).Nodup :=
    List.map_map (f := Result.concern) (g := Concern.name) ▸ List.Nodup.map Concern.name_injective r.distinct
  refine .object (by simp only [List.map_cons, List.map_nil]; decide) ?_
  simp only [List.forall_mem_cons, List.not_mem_nil, false_implies, implies_true, and_true]
  constructor
  · refine .object (by simp only [List.map_cons, List.map_nil]; decide) ?_
    simp only [List.forall_mem_cons, List.not_mem_nil, false_implies, implies_true, and_true]
    exact ⟨Json.fits_map fun _ _ => .string _, .int _ (by simp), .int _ (by simp), .int _ (by simp),
      r.summary.fits_toJson⟩
  · refine .object ?_ (List.forall_mem_map.2 fun result _ => r.fits_concernJson result)
    rw [List.map_map]
    exact hnames

end Report

/-! ## Reading a report -/

namespace Json

@[simp]
def toText? : Json → Option String
  | .string s => some s
  | _ => none

/-- The value of an integer. -/
@[simp]
def toInt? : Json → Option Int
  | .int n => some n
  | _ => none

def toList? {α : Type} (read : Json → Option α) : Json → Option (List α)
  | .array items => items.mapM read
  | _ => none

/-- A value that may be null. -/
@[simp]
def nullable? {α : Type} (read : Json → Option α) : Json → Option (Option α)
  | .null => some none
  | v => (read v).map some

/-- A member of an object, read in one way. -/
@[simp]
def field? {α : Type} (name : String) (read : Json → Option α) (v : Json) : Option α := (v.get? name).bind read

/-- The members of an object, each read in a way that may depend on its name. -/
def toMembers? {α : Type} (read : String → Json → Option α) : Json → Option (List α)
  | .object members => members.mapM fun m => read m.1 m.2
  | _ => none

end Json

def State.ofName? (s : String) : Option State := State.all.find? (·.name == s)

open Json in
/-- Tells a finding on a file from its value. -/
def Finding.ofJson? (file : String) (v : Json) : Option Finding := do
  return {
    file
    line := (← v.field? "line" toInt?).toNat
    column := (← v.field? "column" (nullable? toInt?)).map Int.toNat
    message := ← v.field? "message" toText?
    category := ← Concern.ofName? (← v.field? "type" toText?)
    severity := ← Severity.ofName? (← v.field? "severity" toText?)
    rule := ← v.field? "rule" toText?
    quickFix := ← v.field? "quickFix" toText? }

open Json in
/-- Tells a passed check from its value. -/
def PassedCheck.ofJson? (v : Json) : Option PassedCheck := do
  return {
    file := ← v.field? "file" toText?
    message := ← v.field? "message" toText?
    category := ← Concern.ofName? (← v.field? "category" toText?)
    rule := ← v.field? "rule" toText?
    line := (← v.field? "line" (nullable? toInt?)).map Int.toNat
    column := ← v.field? "column" (nullable? toInt?) }

/-- What a JSON report tells about a concern. -/
structure ConcernView where
  concern : Concern
  state : State
  notes : List String
  rulesEvaluated : List String
  findings : List (String × List Finding)
  passedChecks : List PassedCheck

/-- A view tells all of a result but the order in which findings on different files come: each file that has findings is
named once, with its findings in their order. -/
structure ConcernView.Shows (v : ConcernView) (r : Result) : Prop where
  concern : v.concern = r.concern
  state : v.state = r.state
  notes : v.notes = r.notes
  rulesEvaluated : v.rulesEvaluated = r.rulesEvaluated
  passedChecks : v.passedChecks = r.passedChecks
  files : (v.findings.map (·.1)).Nodup ∧ ∀ file, file ∈ v.findings.map (·.1) ↔ ∃ f ∈ r.findings, f.file = file
  findings : ∀ file, (v.findings.lookup file).getD [] = r.findings.filter (·.file = file)

/-- The view of a result, with its findings by file. -/
def Result.view (r : Result) : ConcernView where
  concern := r.concern
  state := r.state
  notes := r.notes
  rulesEvaluated := r.rulesEvaluated
  findings := groupByFile r.findings
  passedChecks := r.passedChecks

theorem Result.shows_view (r : Result) : r.view.Shows r where
  concern := rfl
  state := rfl
  notes := rfl
  rulesEvaluated := rfl
  passedChecks := rfl
  files := by
    rw [view, files_groupByFile]
    exact ⟨nodup_eraseDups _, fun file => by rw [List.mem_eraseDups, List.mem_map]⟩
  findings := lookup_groupByFile r.findings

open Json in
/-- Tells what is said about a concern from its name and its value. -/
def ConcernView.ofJson? (name : String) (v : Json) : Option ConcernView := do
  return {
    concern := ← Concern.ofName? name
    state := ← State.ofName? (← v.field? "state" toText?)
    notes := ← v.field? "notes" (toList? toText?)
    rulesEvaluated := ← v.field? "rulesEvaluated" (toList? toText?)
    findings := ← v.field? "findings" (toMembers? fun file list =>
      (list.toList? (Finding.ofJson? file)).map (file, ·))
    passedChecks := ← v.field? "passedChecks" (toList? PassedCheck.ofJson?) }

/-- Tells what is said about each concern from the value of a report. -/
def Report.views? (v : Json) : Option (List ConcernView) :=
  v.field? "concerns" (Json.toMembers? ConcernView.ofJson?)

@[simp]
theorem Severity.ofName?_name (s : Severity) : ofName? s.name = some s := by cases s <;> decide

@[simp]
theorem State.ofName?_name (s : State) : ofName? s.name = some s := by cases s <;> decide

/-- A finding is told from its value and its file. -/
theorem Finding.ofJson?_toJson (f : Finding) : ofJson? f.file f.toJson = some f := by
  obtain ⟨file, line, column, message, category, severity, rule, quickFix⟩ := f
  cases column <;> simp [ofJson?, toJson, Json.get?, Json.ofInt?, Association.lookup_cons]

/-- A passed check is told from its value. -/
theorem PassedCheck.ofJson?_toJson (p : PassedCheck) : ofJson? p.toJson = some p := by
  obtain ⟨file, message, category, rule, line, column⟩ := p
  cases line <;> cases column <;> simp [ofJson?, toJson, Json.get?, Json.ofInt?, Association.lookup_cons]

theorem mapM_eq_some_map {α β : Type} {f : α → Option β} {g : α → β} {xs : List α} (h : ∀ x ∈ xs, f x = some (g x)) :
    xs.mapM f = some (xs.map g) := by
  induction xs with
  | nil => rfl
  | cons x xs ih =>
    rw [List.mapM_cons, h x List.mem_cons_self, ih fun y hy => h y (List.mem_cons_of_mem _ hy)]
    rfl

theorem Json.toList?_map {α β : Type} {read : Json → Option β} {write : α → Json} {g : α → β} {xs : List α}
    (h : ∀ x ∈ xs, read (write x) = some (g x)) : toList? read (.array (xs.map write)) = some (xs.map g) := by
  rw [toList?, List.mapM_map]
  exact mapM_eq_some_map h

theorem Json.toMembers?_map {α β : Type} {read : String → Json → Option β} {write : α → String × Json} {g : α → β}
    {xs : List α} (h : ∀ x ∈ xs, read (write x).1 (write x).2 = some (g x)) :
    toMembers? read (.object (xs.map write)) = some (xs.map g) := by
  rw [toMembers?, List.mapM_map]
  exact mapM_eq_some_map h

namespace Report

theorem toMembers?_findingsJson (r : Report) {result : Result} (h : result ∈ r.results) :
    Json.toMembers? (fun file list => (list.toList? (Finding.ofJson? file)).map (file, ·))
      (r.findingsJson result.concern) = some (groupByFile result.findings) := by
  have hlists : ∀ group ∈ groupByFile result.findings,
      (Json.toList? (Finding.ofJson? group.1) (.array (group.2.map (·.toJson)))).map (group.1, ·) = some group := by
    intro group hgroup
    rw [groupByFile_eq] at hgroup
    obtain ⟨file, -, rfl⟩ := List.mem_map.1 hgroup
    have hread : Json.toList? (Finding.ofJson? file)
        (.array ((result.findings.filter (·.file = file)).map (·.toJson))) =
        some ((result.findings.filter (·.file = file)).map id) := by
      refine Json.toList?_map fun f hf => ?_
      rw [← of_decide_eq_true (List.mem_filter.1 hf).2]
      exact f.ofJson?_toJson
    rw [hread, List.map_id]
    rfl
  rw [findingsJson, findingsByFile, get?_of_mem h, Option.elim_some]
  exact (Json.toMembers?_map hlists).trans (by rw [List.map_id'])

theorem ofJson?_concernJson (r : Report) {result : Result} (h : result ∈ r.results) :
    ConcernView.ofJson? result.concern.name (r.concernJson result) = some result.view := by
  have hnotes : Json.toList? Json.toText? (.array (result.notes.map .string)) = some (result.notes.map id) :=
    Json.toList?_map fun _ _ => rfl
  have hrules : Json.toList? Json.toText? (.array (result.rulesEvaluated.map .string)) =
      some (result.rulesEvaluated.map id) := Json.toList?_map fun _ _ => rfl
  have hchecks : Json.toList? PassedCheck.ofJson? (.array (result.passedChecks.map (·.toJson))) =
      some (result.passedChecks.map id) := Json.toList?_map fun p _ => p.ofJson?_toJson
  have hfindings := r.toMembers?_findingsJson h
  simp [ConcernView.ofJson?, concernJson, Result.view, Json.get?, Association.lookup_cons, state_of_mem h,
    hnotes, hrules, hchecks, hfindings]

/-- A report's value gives the view of each result, in order. -/
theorem views?_toJson (r : Report) : views? r.toJson = some (r.results.map (·.view)) := by
  have hviews : Json.toMembers? ConcernView.ofJson?
      (.object (r.results.map fun result => (result.concern.name, r.concernJson result))) =
      some (r.results.map (·.view)) := Json.toMembers?_map fun result h => r.ofJson?_concernJson h
  simpa [views?, toJson, Json.get?, Association.lookup_cons] using hviews

end Report
end SourceAudit
