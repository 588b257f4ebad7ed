import Mathlib.Data.List.Forall2
import SourceAudit.Proofs.Pattern.Lines
import SourceAudit.Proofs.Report.Counts
import SourceAudit.Proofs.Sorting
import SourceAudit.Report.Terminal

/-!
# The worst findings first

A result lists its findings by severity, and under a limit only the first of them. Nothing in a list of findings tells
two equal ones apart, so what is said about order is said about *placed* findings, each with the number of its place in
the result. Ranking placed findings by severity gives a list that is ordered by severity and then by place; a limit cuts
that list in two, and the part in front of the cut is what is shown.

On a terminal the shown findings of a concern stand in its section, and a last line counts the rest. If no text of a
report breaks over two lines, then these are the lines of what is printed, and those of both kinds are told from all
others by how they begin.

Results:
* `Result.pairwise_ranked`: ranked findings stand in order of severity, equally severe ones in order of place.
* `Result.showsWorst_take`: what a limit shows is the worst, and what it hides is the rest.
* `Report.listsFindings_concernLines`: a section lists what is shown and counts what is hidden.
* `Report.printedLines_terminal`: the lines of what is printed.
* `Report.ranking_honest`: both, for every result and every report.
-/
namespace SourceAudit

/-! ## Placed findings -/

namespace Result

/-- The findings in the order of a ranked list, each with its place among the findings of a result. -/
def ranked (r : Result) : List (Finding × Nat) := sortBy (fun x => x.1.severity.rank) r.findings.zipIdx

theorem map_fst_ranked (r : Result) : r.ranked.map Prod.fst = r.rankedFindings := by
  have hmapped := map_sortBy Prod.fst (fun f : Finding => f.severity.rank) r.findings.zipIdx
  rwa [List.zipIdx_map_fst] at hmapped

theorem perm_ranked (r : Result) : r.ranked.Perm r.findings.zipIdx := sortBy_perm _ _

@[simp] theorem length_ranked (r : Result) : r.ranked.length = r.findings.length := by
  rw [r.perm_ranked.length_eq, List.length_zipIdx]

theorem pairwise_zipIdx (r : Result) : r.findings.zipIdx.Pairwise fun a b => a.2 < b.2 := by
  rw [← List.pairwise_map (f := Prod.snd) (R := (· < ·)), List.zipIdx_map_snd]
  exact List.pairwise_lt_range' 1

/-- Ranked findings stand in order of severity, and equally severe ones in order of place. -/
theorem pairwise_ranked (r : Result) :
    r.ranked.Pairwise fun a b =>
      a.1.severity.rank ≤ b.1.severity.rank ∧ (a.1.severity = b.1.severity → a.2 < b.2) := by
  refine (pairwise_sortBy r.pairwise_zipIdx).imp fun {a b} h => ⟨h.1, fun hsame => h.2 ?_⟩
  exact Nat.le_of_eq (congrArg Severity.rank hsame.symm)

/-! ## The cut -/

/-- Under a limit, a result shows its worst findings and hides the rest. -/
structure ShowsWorst (r : Result) (limit : Nat) (shown hidden : List (Finding × Nat)) : Prop where
  /-- The shown findings are those listed. -/
  listed : shown.map Prod.fst = r.topFindings limit
  /-- As many are shown as the limit allows and the result has. -/
  length : shown.length = min limit r.findings.length
  /-- Shown and hidden findings are the findings of the result, each once and at its place. -/
  perm : (shown ++ hidden).Perm r.findings.zipIdx
  /-- Severities do not grow along the list. -/
  ordered : shown.Pairwise fun a b => a.1.severity.rank ≤ b.1.severity.rank
  /-- Equally severe findings are shown in their own order. -/
  stable : shown.Pairwise fun a b => a.1.severity = b.1.severity → a.2 < b.2
  /-- Nothing hidden is more severe than something shown. -/
  worst : ∀ a ∈ shown, ∀ b ∈ hidden, a.1.severity.rank ≤ b.1.severity.rank
  /-- Nothing hidden precedes something shown that is as severe. -/
  earliest : ∀ a ∈ shown, ∀ b ∈ hidden, a.1.severity = b.1.severity → a.2 < b.2

/-- What a limit shows is the worst, and what it hides is the rest. -/
theorem showsWorst_take (r : Result) (limit : Nat) :
    r.ShowsWorst limit (r.ranked.take limit) (r.ranked.drop limit) := by
  have hcut := r.pairwise_ranked
  rw [← List.take_append_drop limit r.ranked] at hcut
  obtain ⟨hshown, -, hacross⟩ := List.pairwise_append.1 hcut
  exact {
    listed := by
      rw [List.map_take, map_fst_ranked, topFindings, admitted, if_neg (by omega), Int.toNat_natCast]
    length := by rw [List.length_take, length_ranked]
    perm := by
      rw [List.take_append_drop]
      exact r.perm_ranked
    ordered := hshown.imp And.left
    stable := hshown.imp And.right
    worst := fun a ha b hb => (hacross a ha b hb).1
    earliest := fun a ha b hb => (hacross a ha b hb).2 }

namespace ShowsWorst

variable {r : Result} {limit : Nat} {shown hidden : List (Finding × Nat)}

theorem length_hidden (h : r.ShowsWorst limit shown hidden) :
    hidden.length = r.findings.length - (r.topFindings limit).length := by
  have htotal := h.perm.length_eq
  rw [List.length_append, List.length_zipIdx] at htotal
  rw [← h.listed, List.length_map]
  omega

theorem hidden_eq_nil (h : r.ShowsWorst limit shown hidden) (hlimit : 1 ≤ limit) (hshown : shown = []) :
    hidden = [] := by
  have hlength := h.length
  have htotal := h.perm.length_eq
  rw [List.length_append, List.length_zipIdx] at htotal
  rw [hshown, List.length_nil] at hlength htotal
  exact List.eq_nil_of_length_eq_zero (by omega)

end ShowsWorst
end Result

/-! ## Kinds of lines -/

namespace Report

/-- How the line of a finding begins. -/
def findingMark : String := "    - ["

/-- How the line that counts hidden findings begins. -/
def hiddenMark : String := "    ... "

def hiddenLine (count : Nat) : String := hiddenMark ++ toString count ++ " more in report.json"

def beginsWith (mark line : String) : Bool := mark.toList.isPrefixOf line.toList

/-- A line that neither shows a finding nor counts hidden ones. -/
def IsOther (line : String) : Prop := beginsWith findingMark line = false ∧ beginsWith hiddenMark line = false

theorem beginsWith_append (mark rest : String) : beginsWith mark (mark ++ rest) = true := by
  rw [beginsWith, String.toList_append]
  exact List.isPrefixOf_iff_prefix.2 (List.prefix_append ..)

/-- Whether two texts differ at a place that both have. -/
def differ : List Char → List Char → Bool
  | c :: cs, d :: ds => c != d || differ cs ds
  | _, _ => false

theorem beginsWith_of_differ {mark front : String} (h : differ mark.toList front.toList = true) (rest : String) :
    beginsWith mark (front ++ rest) = false := by
  rw [beginsWith, String.toList_append]
  generalize mark.toList = mark at *
  generalize front.toList = front at *
  induction mark, front using differ.induct with
  | case1 c cs d ds ih =>
    rw [List.cons_append, List.isPrefixOf_cons_cons]
    by_cases hcd : c = d
    · rw [differ, hcd, bne_self_eq_false, Bool.false_or] at h
      rw [ih h, Bool.and_false]
    · rw [beq_eq_false_iff_ne.2 hcd, Bool.false_and]
  | case2 mark front hmatch =>
    rw [differ] at h
    exacts [absurd h Bool.false_ne_true, hmatch]

/-- How the lines begin that neither show a finding nor count hidden ones, the empty line apart. -/
def otherFronts : List String :=
  Concern.all.map Concern.name ++ Severity.all.map Severity.name ++
    ["  Status  : ", "  Findings: ", "  Message : ", "  Note    : ", "  Vulnerabilities:", "Security", "=", "-",
      "Severity", "Findings      : ", "Passed checks : ", "Overall       : "]

theorem differ_marks :
    differ findingMark.toList hiddenMark.toList = true ∧ differ hiddenMark.toList findingMark.toList = true ∧
      ∀ front ∈ otherFronts,
        differ findingMark.toList front.toList = true ∧ differ hiddenMark.toList front.toList = true := by
  decide +kernel

theorem isOther_append (front rest : String) (h : front ∈ otherFronts) : IsOther (front ++ rest) := by
  obtain ⟨hfinding, hhidden⟩ := differ_marks.2.2 front h
  exact ⟨beginsWith_of_differ hfinding rest, beginsWith_of_differ hhidden rest⟩

theorem isOther_empty : IsOther "" := ⟨rfl, rfl⟩

theorem isOther_replicate (c : Char) (n : Nat) (h : String.singleton c ∈ otherFronts) :
    IsOther (String.ofList (List.replicate n c)) := by
  cases n with
  | zero => exact isOther_empty
  | succ n =>
    have hcut : String.ofList (List.replicate (n + 1) c) =
        String.singleton c ++ String.ofList (List.replicate n c) := by
      rw [← String.toList_inj, String.toList_append]
      simp [List.replicate_succ]
    rw [hcut]
    exact isOther_append _ _ h

theorem beginsWith_findingLine (f : Finding) :
    beginsWith findingMark (findingLine f) = true ∧ beginsWith hiddenMark (findingLine f) = false := by
  simp only [findingLine, String.append_assoc]
  exact ⟨beginsWith_append findingMark _, beginsWith_of_differ differ_marks.2.1 _⟩

theorem beginsWith_hiddenLine (count : Nat) :
    beginsWith findingMark (hiddenLine count) = false ∧ beginsWith hiddenMark (hiddenLine count) = true := by
  simp only [hiddenLine, String.append_assoc]
  exact ⟨beginsWith_of_differ differ_marks.1 _, beginsWith_append hiddenMark _⟩

theorem filter_of_isOther (lines : List String) (h : ∀ line ∈ lines, IsOther line) :
    lines.filter (beginsWith findingMark) = [] ∧ lines.filter (beginsWith hiddenMark) = [] := by
  simp only [List.filter_eq_nil_iff, Bool.not_eq_true]
  exact ⟨fun line hline => (h line hline).1, fun line hline => (h line hline).2⟩

/-! ## Sections -/

/-- What a section says in front of its findings. -/
def heading (r : Report) (result : Result) : List String :=
  [result.concern.name ++ ":", "  Status  : " ++ (r.state result.concern).name,
    "  Findings: " ++ toString result.findings.length ++ "  Passed checks: " ++ toString result.passedChecks.length] ++
  result.message.toList.map ("  Message : " ++ ·) ++ result.notes.map ("  Note    : " ++ ·)

/-- The findings that are shown, if there are any, and a count of the hidden ones, if there are any. -/
def listing (shown hidden : List (Finding × Nat)) : List String :=
  if shown.isEmpty then []
  else
    ["  Vulnerabilities:"] ++ shown.map (fun x => findingLine x.1) ++
      if 0 < hidden.length then [hiddenLine hidden.length] else []

/-- A section lists what a limit shows of the findings of a result, and counts what it hides if it hides any. Nothing
else in it looks like either. -/
def ListsFindings (r : Report) (limit : Nat) (result : Result) (lines : List String) : Prop :=
  ∃ shown hidden, result.ShowsWorst limit shown hidden ∧
    lines = r.heading result ++ listing shown hidden ++ [""] ∧
    lines.filter (beginsWith findingMark) = shown.map (fun x => findingLine x.1) ∧
    lines.filter (beginsWith hiddenMark) = if 0 < hidden.length then [hiddenLine hidden.length] else []

theorem findingLines_eq {result : Result} {limit : Nat} {shown hidden : List (Finding × Nat)}
    (h : result.ShowsWorst limit shown hidden) : findingLines result limit = listing shown hidden := by
  have hlisted : (result.topFindings limit).map findingLine = shown.map fun x => findingLine x.1 := by
    rw [← h.listed, List.map_map]
    rfl
  have hempty : (result.topFindings limit).isEmpty = shown.isEmpty := by
    rw [← h.listed, List.isEmpty_map]
  rw [listing, h.length_hidden, ← hlisted, ← hempty]
  rfl

theorem filter_listing {result : Result} {limit : Nat} (hlimit : 1 ≤ limit) {shown hidden : List (Finding × Nat)}
    (h : result.ShowsWorst limit shown hidden) :
    (listing shown hidden).filter (beginsWith findingMark) = shown.map (fun x => findingLine x.1) ∧
      (listing shown hidden).filter (beginsWith hiddenMark) =
        if 0 < hidden.length then [hiddenLine hidden.length] else [] := by
  unfold listing
  split
  · next hshown =>
    rw [List.isEmpty_iff] at hshown
    rw [h.hidden_eq_nil hlimit hshown, hshown]
    exact ⟨rfl, rfl⟩
  · have hheading : ∀ line ∈ ["  Vulnerabilities:"], IsOther line := by
      simpa using isOther_append "  Vulnerabilities:" "" (by simp [otherFronts])
    have hshown : ∀ line ∈ shown.map (fun x => findingLine x.1),
        beginsWith findingMark line = true ∧ beginsWith hiddenMark line = false := by
      rw [List.forall_mem_map]
      exact fun x _ => beginsWith_findingLine x.1
    have hcount := beginsWith_hiddenLine hidden.length
    simp only [List.filter_append, filter_of_isOther _ hheading, List.nil_append,
      List.filter_eq_self.2 fun line hline => (hshown line hline).1,
      List.filter_eq_nil_iff.2 fun line hline => Bool.eq_false_iff.1 (hshown line hline).2]
    split <;> simp [hcount]

theorem isOther_heading (r : Report) (result : Result) : ∀ line ∈ r.heading result, IsOther line := by
  have hconcern : result.concern.name ∈ otherFronts := by
    cases result.concern <;> simp [otherFronts, Concern.all]
  simp only [heading, List.forall_mem_append, List.forall_mem_cons, List.forall_mem_map, String.append_assoc]
  refine ⟨⟨⟨isOther_append _ _ hconcern, isOther_append _ _ ?_, isOther_append _ _ ?_, ?_⟩,
    fun _ _ => isOther_append _ _ ?_⟩, fun _ _ => isOther_append _ _ ?_⟩
  all_goals simp [otherFronts]

theorem concernLines_eq (r : Report) {result : Result} {limit : Nat} {shown hidden : List (Finding × Nat)}
    (h : result.ShowsWorst limit shown hidden) :
    r.concernLines limit result = r.heading result ++ listing shown hidden ++ [""] := by
  rw [← findingLines_eq h]
  rfl

/-- A section lists what is shown and counts what is hidden. -/
theorem listsFindings_concernLines (r : Report) {limit : Nat} (hlimit : 1 ≤ limit) (result : Result) :
    r.ListsFindings limit result (r.concernLines limit result) := by
  have h := result.showsWorst_take limit
  have hlines := r.concernLines_eq h
  refine ⟨_, _, h, hlines, ?_⟩
  have hheading := filter_of_isOther _ (r.isOther_heading result)
  have hend := filter_of_isOther [""] (by simpa using isOther_empty)
  have hfindings := filter_listing hlimit h
  constructor
  · rw [hlines, List.filter_append, List.filter_append, hheading.1, hfindings.1, hend.1]
    simp
  · rw [hlines, List.filter_append, List.filter_append, hheading.2, hfindings.2, hend.2]
    simp

/-- The lines in front of the first section. -/
def title : List String := ["Security Scan Report", String.ofList (List.replicate 40 '=')]

theorem isOther_title : ∀ line ∈ title, IsOther line := by
  simp only [title, List.forall_mem_cons]
  refine ⟨isOther_append "Security" " Scan Report" ?_, isOther_replicate _ _ ?_, ?_⟩
  all_goals simp [otherFronts]

theorem isOther_totals (r : Report) : ∀ line ∈ r.totals, IsOther line := by
  have hrow : ∀ x ∈ r.summary.rows, IsOther (tableRow x.1.name (toString x.2)) := by
    intro x _
    simp only [tableRow, padRight, String.append_assoc]
    refine isOther_append _ _ ?_
    cases x.1 <;> simp [otherFronts, Severity.all]
  have hrule : ∀ n, IsOther (String.ofList (List.replicate n '-')) := by
    intro n
    exact isOther_replicate _ _ (by simp [otherFronts])
  have hheader : IsOther (tableRow "Severity" "Count") := by
    simp only [tableRow, padRight, String.append_assoc]
    exact isOther_append _ _ (by simp [otherFronts])
  simp only [totals, List.forall_mem_append, List.forall_mem_cons, List.forall_mem_map]
  refine ⟨⟨⟨hheader, hrule _, ?_⟩, hrow⟩, hrule _, isOther_append _ _ ?_, isOther_append _ _ ?_, isOther_append _ _ ?_,
    ?_⟩
  all_goals simp [otherFronts]

/-! ## Printed lines -/

def printedLines (s : String) : List String := (Text.lines s.toList).map String.ofList

/-- A text of a single line. -/
def IsLine (s : String) : Prop := '\n' ∉ s.toList

instance : DecidablePred IsLine := fun s => inferInstanceAs (Decidable ('\n' ∉ s.toList))

theorem isLine_append {s t : String} : IsLine (s ++ t) ↔ IsLine s ∧ IsLine t := by
  simp only [IsLine, String.toList_append, List.mem_append, not_or]

theorem isLine_toString (n : Nat) : IsLine (toString n) := by
  intro hmem
  rw [Nat.toString_eq_repr, Nat.toList_repr] at hmem
  exact absurd (Nat.isDigit_of_mem_toDigits (by omega) (by omega) hmem) (by decide)

theorem isLine_replicate {c : Char} (n : Nat) (hc : c ≠ '\n') : IsLine (String.ofList (List.replicate n c)) := by
  rw [IsLine, String.toList_ofList]
  exact fun hmem => hc (List.eq_of_mem_replicate hmem).symm

theorem printedLines_intercalate {lines : List String} (hne : lines ≠ []) (h : ∀ line ∈ lines, IsLine line) :
    printedLines ("\n".intercalate lines) = lines := by
  have hone : ∀ line, IsLine line → printedLines line = [line] := by
    intro line hline
    rw [printedLines, Text.lines_of_notMem hline, List.map_singleton, String.ofList_toList]
  induction lines with
  | nil => exact absurd rfl hne
  | cons line rest ih =>
    obtain ⟨hline, hrest⟩ := List.forall_mem_cons.1 h
    cases rest with
    | nil => rw [String.intercalate_singleton, hone line hline]
    | cons next rest =>
      have hnewline : "\n".toList = ['\n'] := rfl
      rw [String.intercalate_cons_cons, printedLines, String.toList_append, String.toList_append, hnewline,
        List.append_assoc, List.singleton_append, Text.lines_append_newline, List.map_append]
      exact congrArg₂ (· ++ ·) (hone line hline) (ih (List.cons_ne_nil _ _) hrest)

/-- The notes of a report, and the files and messages of its findings, are single lines. -/
def IsOneLined (r : Report) : Prop :=
  ∀ result ∈ r.results, (∀ note ∈ result.notes, IsLine note) ∧ ∀ f ∈ result.findings, IsLine f.file ∧ IsLine f.message

theorem isLine_findingLine {f : Finding} (hfile : IsLine f.file) (hmessage : IsLine f.message) :
    IsLine (findingLine f) := by
  have hseverity : IsLine f.severity.name := by cases f.severity <;> decide
  have hlocation : IsLine f.location := by
    unfold Finding.location
    simp only [isLine_append]
    refine ⟨⟨⟨⟨hfile, by decide⟩, isLine_toString _⟩, ?_⟩, by decide⟩
    cases f.column with
    | none => decide
    | some c => exact isLine_append.2 ⟨by decide, isLine_toString c⟩
  simp only [findingLine, isLine_append]
  exact ⟨⟨⟨⟨⟨by decide, hseverity⟩, by decide⟩, hlocation⟩, by decide⟩, hmessage⟩

theorem isLine_title : ∀ line ∈ title, IsLine line := by decide

theorem isLine_totals (r : Report) : ∀ line ∈ r.totals, IsLine line := by
  have hrow : ∀ label count, IsLine label → IsLine count → IsLine (tableRow label count) := by
    intro label count hlabel hcount
    simp only [tableRow, padRight, padLeft, isLine_append]
    exact ⟨⟨⟨hlabel, isLine_replicate _ (by decide)⟩, by decide⟩, isLine_replicate _ (by decide), hcount⟩
  have hrows : ∀ x ∈ r.summary.rows, IsLine (tableRow x.1.name (toString x.2)) := by
    intro x _
    refine hrow _ _ ?_ (isLine_toString _)
    cases x.1 <;> decide
  have hrule : ∀ n, IsLine (String.ofList (List.replicate n '-')) := fun n => isLine_replicate n (by decide)
  have hverdict : IsLine (if r.isPass then "PASS" else "FAIL") := by split <;> decide
  simp only [totals, List.forall_mem_append, List.forall_mem_cons, List.forall_mem_map, isLine_append]
  exact ⟨⟨⟨hrow _ _ (by decide) (by decide), hrule _, List.forall_mem_nil _⟩, hrows⟩, hrule _,
    ⟨by decide, isLine_toString _⟩, ⟨by decide, isLine_toString _⟩, ⟨by decide, hverdict⟩, List.forall_mem_nil _⟩

theorem isLine_message (result : Result) : ∀ text ∈ result.message.toList, IsLine text := by
  have hconcern : IsLine result.concern.name := by cases result.concern <;> decide
  intro text htext
  rw [Option.mem_toList, Result.message] at htext
  split at htext
  · cases htext
    exact isLine_append.2 ⟨isLine_append.2 ⟨by decide, hconcern⟩, by decide⟩
  · split at htext
    · cases htext
      exact isLine_append.2 ⟨isLine_append.2 ⟨by decide, hconcern⟩, by decide⟩
    · cases htext

theorem isLine_heading (r : Report) {result : Result} (hnotes : ∀ note ∈ result.notes, IsLine note) :
    ∀ line ∈ r.heading result, IsLine line := by
  have hconcern : IsLine result.concern.name := by cases result.concern <;> decide
  have hstate : IsLine (r.state result.concern).name := by cases r.state result.concern <;> decide
  simp only [heading, List.forall_mem_append, List.forall_mem_cons, List.forall_mem_map, isLine_append]
  exact ⟨⟨⟨⟨hconcern, by decide⟩, ⟨by decide, hstate⟩,
    ⟨⟨⟨by decide, isLine_toString _⟩, by decide⟩, isLine_toString _⟩, List.forall_mem_nil _⟩,
    fun text htext => ⟨by decide, isLine_message result text htext⟩⟩, fun note hnote => ⟨by decide, hnotes note hnote⟩⟩

theorem isLine_listing {result : Result} {limit : Nat} {shown hidden : List (Finding × Nat)}
    (h : result.ShowsWorst limit shown hidden)
    (hfindings : ∀ f ∈ result.findings, IsLine f.file ∧ IsLine f.message) :
    ∀ line ∈ listing shown hidden, IsLine line := by
  have hshown : ∀ x ∈ shown, IsLine (findingLine x.1) := by
    intro x hx
    have hplaced := h.perm.mem_iff.1 (List.mem_append_left _ hx)
    obtain ⟨hfile, hmessage⟩ := hfindings x.1 (List.fst_mem_of_mem_zipIdx hplaced)
    exact isLine_findingLine hfile hmessage
  unfold listing
  split
  · exact List.forall_mem_nil _
  · simp only [List.forall_mem_append, List.forall_mem_map, List.forall_mem_singleton]
    refine ⟨⟨by decide, hshown⟩, ?_⟩
    split
    · rw [List.forall_mem_singleton, hiddenLine]
      exact isLine_append.2 ⟨isLine_append.2 ⟨by decide, isLine_toString _⟩, by decide⟩
    · exact List.forall_mem_nil _

/-- The lines of what is printed are those of the report. -/
theorem printedLines_terminal {r : Report} (h : r.IsOneLined) (limit : Nat) :
    printedLines (r.terminal limit) = r.terminalLines limit := by
  refine printedLines_intercalate (List.cons_ne_nil _ _) fun line hline => ?_
  obtain hline | hline := List.mem_append.1 hline
  · obtain hline | hline := List.mem_append.1 hline
    · exact isLine_title line hline
    · obtain ⟨result, hresult, hline⟩ := List.mem_flatMap.1 hline
      obtain ⟨hnotes, hfindings⟩ := h result hresult
      have hshows := result.showsWorst_take limit
      rw [r.concernLines_eq hshows, List.mem_append, List.mem_append, List.mem_singleton] at hline
      obtain (hline | hline) | rfl := hline
      · exact r.isLine_heading hnotes line hline
      · exact isLine_listing hshows hfindings line hline
      · decide
  · exact r.isLine_totals line hline

/-! ## Honest listings -/

/-- **Findings are listed worst first and hidden honestly.** For every result and limit, what is shown is ordered by
severity and then by place, and with what is hidden makes up the findings; nothing hidden should have been shown
instead. On a terminal, under any limit of at least one, each section lists the shown findings of its concern and
counts the hidden ones in a line of its own, which stands there only if there are any, and says nothing else of the
kind; nor does what is printed around the sections. If no text of the report breaks over two lines, then this is what
one reads line by line. -/
theorem ranking_honest :
    (∀ (result : Result) (limit : Nat), ∃ shown hidden, result.ShowsWorst limit shown hidden) ∧
      ∀ (r : Report) (limit : Nat), 1 ≤ limit →
        ∃ sections, List.Forall₂ (r.ListsFindings limit) r.results sections ∧
          (∀ line ∈ title ++ r.totals, IsOther line) ∧
          r.terminal limit = "\n".intercalate (title ++ sections.flatten ++ r.totals) ∧
          (r.IsOneLined → printedLines (r.terminal limit) = title ++ sections.flatten ++ r.totals) := by
  refine ⟨fun result limit => ⟨_, _, result.showsWorst_take limit⟩, fun r limit hlimit => ?_⟩
  have hsections : List.Forall₂ (r.ListsFindings limit) r.results (r.results.map (r.concernLines limit)) := by
    rw [List.forall₂_map_right_iff, List.forall₂_same]
    exact fun result _ => r.listsFindings_concernLines hlimit result
  have hlines : r.terminalLines limit = title ++ (r.results.map (r.concernLines limit)).flatten ++ r.totals := by
    rw [← List.flatMap_def]
    rfl
  refine ⟨_, hsections, List.forall_mem_append.2 ⟨isOther_title, r.isOther_totals⟩, ?_, fun h => ?_⟩
  · rw [terminal, hlines]
  · rw [printedLines_terminal h, hlines]

def uncheckedRoutesReport : Report where
  results := [uncheckedRoutes]

/-- Of three findings two are shown: the later one of the two severe ones takes the place of a mild one before it. -/
theorem ranking_honest_oneHidden :
    (printedLines (uncheckedRoutesReport.terminal 2)).filter (beginsWith findingMark) =
        ["    - [HIGH] a.py (Line 4): Route without a check.", "    - [HIGH] a.py (Line 9): Route without a check."] ∧
      (printedLines (uncheckedRoutesReport.terminal 2)).filter (beginsWith hiddenMark) =
        ["    ... 1 more in report.json"] := by
  obtain ⟨sections, hsections, hother, -, hprinted⟩ := ranking_honest.2 uncheckedRoutesReport 2 (by decide)
  obtain ⟨lines, rest, hlines, hrest, rfl⟩ := List.forall₂_cons_left_iff.1 hsections
  obtain rfl := List.forall₂_nil_left_iff.1 hrest
  obtain ⟨shown, hidden, hshows, -, hfindings, hhidden⟩ := hlines
  have hlined : uncheckedRoutesReport.IsOneLined := by
    unfold IsOneLined
    decide
  have hcount : hidden.length = 1 := hshows.length_hidden.trans rfl
  have hlisted : shown.map (fun x => findingLine x.1) = (uncheckedRoutes.topFindings 2).map findingLine := by
    have hmapped := congrArg (List.map findingLine) hshows.listed
    rwa [List.map_map] at hmapped
  obtain ⟨htitle, htotals⟩ := List.forall_mem_append.1 hother
  have hlines : printedLines (uncheckedRoutesReport.terminal 2) = _ := hprinted hlined
  simp only [hlines, List.filter_append, filter_of_isOther _ htitle, filter_of_isOther _ htotals,
    List.flatten_cons, List.flatten_nil, List.append_nil, List.nil_append, hfindings, hhidden, hlisted, hcount]
  exact ⟨rfl, rfl⟩

end Report
end SourceAudit
