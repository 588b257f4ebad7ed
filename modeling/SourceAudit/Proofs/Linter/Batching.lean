import SourceAudit.Proofs.Json.RoundTrip
import SourceAudit.Proofs.Linter.Breakage

/-!
# Batches

ESLint is given its files in batches, for a command line has a limit. Whoever asks about paths should not notice: the
batches are consecutive pieces of the list, the entries come in the order of the paths, and a process that answers path
by path gives in several runs what it would give in one. A process that fails ends the run. Its fault is the fault of
the run, no process is started behind it, and what the processes before it printed is not returned.

Results:
* `flatten_batches`, `length_batches`, `getElem?_batches`: the batches are the consecutive pieces of a list.
* `runBatches_cases`: a run starts every batch and gives all entries, or stops at the first process that fails.
* `batching_unobservable`: what is started, and what is answered, for all paths and all ways in which processes end.
-/
namespace SourceAudit.EsLint

/-! ## Cutting a list into batches -/

section Batches

variable {α : Type} {size : Nat}

theorem flatten_batchesOf (size : Nat) (xs : List α) : (batchesOf size xs).flatten = xs := by
  fun_induction batchesOf size xs with
  | case1 => rfl
  | case2 x rest ih => rw [List.flatten_cons, ih, List.cons_append, List.take_append_drop]

/-- Each piece but the last is full, so there are as many as whole and begun pieces fit into the list. -/
theorem length_batchesOf (size : Nat) (xs : List α) : (batchesOf size xs).length = (xs.length + size) / (size + 1) := by
  fun_induction batchesOf size xs with
  | case1 => exact (Nat.div_eq_of_lt (by simp)).symm
  | case2 x rest ih =>
    rw [List.length_cons, ih, List.length_drop, List.length_cons, Nat.add_assoc, Nat.add_comm 1 size,
      Nat.add_div_right _ size.succ_pos]
    congr 1
    rcases Nat.le_total size rest.length with hle | hle
    · rw [Nat.sub_add_cancel hle]
    · rw [Nat.sub_eq_zero_of_le hle, Nat.zero_add, Nat.div_eq_of_lt (by omega), Nat.div_eq_of_lt (by omega)]

theorem getElem?_batchesOf {xs piece : List α} {i : Nat} (h : (batchesOf size xs)[i]? = some piece) :
    piece = (xs.drop ((size + 1) * i)).take (size + 1) ∧ piece ≠ [] := by
  fun_induction batchesOf size xs generalizing i with
  | case1 => simp at h
  | case2 x rest ih =>
    cases i with
    | zero =>
      obtain rfl : x :: rest.take size = piece := by simpa using h
      exact ⟨rfl, List.cons_ne_nil _ _⟩
    | succ i =>
      rw [List.getElem?_cons_succ] at h
      have hnext : (x :: rest).drop ((size + 1) * (i + 1)) = (rest.drop size).drop ((size + 1) * i) := by
        rw [List.drop_drop, Nat.mul_succ, ← Nat.add_assoc, List.drop_succ_cons, Nat.add_comm size (_ * _)]
      rw [hnext]
      exact ih h

end Batches

theorem flatten_batches (paths : List String) : (batches paths).flatten = paths := flatten_batchesOf _ paths

theorem flatMap_batches {β : Type} (say : String → List β) (paths : List String) :
    (batches paths).flatMap (·.flatMap say) = paths.flatMap say := by
  have hall : (batches paths).flatMap (fun slice => (id slice).flatMap say) = paths.flatMap say := by
    rw [← List.flatMap_assoc, List.flatMap_id, flatten_batches]
  exact hall

theorem length_batches (paths : List String) : (batches paths).length = (paths.length + 199) / 200 :=
  length_batchesOf 199 paths

/-- Batch number `i` holds the paths from number `200 * i` on. -/
theorem getElem?_batches {paths slice : List String} {i : Nat} (h : (batches paths)[i]? = some slice) :
    slice = (paths.drop (200 * i)).take 200 ∧ slice ≠ [] := getElem?_batchesOf h

/-! ## Running batches -/

/-- How processes end that are started for some batches, the first of them as process number `n`. -/
def endsOf (e : EsLint) (processes : Processes) (n : Nat) (slices : List (List String)) : List ProcessEnd :=
  (slices.zipIdx n).map fun x => processes x.2 (e.arguments x.1)

variable {e : EsLint} {processes : Processes}

theorem endsOf_cons (n : Nat) (slice : List String) (rest : List (List String)) :
    e.endsOf processes n (slice :: rest) = processes n (e.arguments slice) :: e.endsOf processes (n + 1) rest := rfl

/-- A run starts the first batches. It started all of them and gives all their entries, or the last that it started is
the first to fail, and it gives the fault of that one. -/
theorem runBatches_cases (e : EsLint) (processes : Processes) (n : Nat) (pieces : List (List String)) :
    ∃ slices, slices <+: pieces ∧ (e.runBatches processes n pieces).calls = slices.map e.arguments ∧
      ((slices = pieces ∧ ∃ outputs : List (List LintJson),
        (e.endsOf processes n slices).map (·.entries? e.limits) = outputs.map some ∧
        (e.runBatches processes n pieces).entries = .ok outputs.flatten) ∨
      ∃ before last fault, e.endsOf processes n slices = before ++ [last] ∧
        (∀ x ∈ before, (x.entries? e.limits).isSome) ∧ e.readEnd last = .error fault ∧
        (e.runBatches processes n pieces).entries = .error fault) := by
  induction pieces generalizing n with
  | nil => exact ⟨[], List.nil_prefix, rfl, .inl ⟨rfl, [], rfl, rfl⟩⟩
  | cons slice rest ih =>
    rw [runBatches]
    cases hread : e.readEnd (processes n (e.arguments slice)) with
    | error fault => exact ⟨[slice], ⟨rest, rfl⟩, rfl, .inr ⟨[], _, fault, rfl, List.forall_mem_nil _, hread, rfl⟩⟩
    | ok entries =>
      have hentries := readEnd_eq_ok.1 hread
      obtain ⟨slices, hpre, hcalls, hend⟩ := ih (n + 1)
      refine ⟨slice :: slices, List.cons_prefix_cons.2 ⟨rfl, hpre⟩, by simp only [hcalls, List.map_cons], ?_⟩
      rw [endsOf_cons]
      rcases hend with ⟨rfl, outputs, hends, hall⟩ | ⟨before, last, fault, hends, hbefore, hfault, hall⟩
      · refine .inl ⟨rfl, entries :: outputs, ?_, ?_⟩
        · rw [List.map_cons, List.map_cons, hentries, hends]
        · simp only [hall, Except.map, List.flatten_cons]
      · refine .inr ⟨_ :: before, last, fault, by rw [hends, List.cons_append], ?_, hfault, ?_⟩
        · rw [List.forall_mem_cons, hentries]
          exact ⟨rfl, hbefore⟩
        · simp only [hall, Except.map]

/-! ## What is started and what is answered -/

/-- The options that every process is given. -/
def options : List String := [
  "--no-eslintrc", "--format", "json", "--env", "node,es2021", "--parser-options", "ecmaVersion:2021",
  "--plugin", "security", "--no-color"]

/-- Processes that answer path by path, each with what is to be said on its paths, one after another. -/
def AnswersByPath (e : EsLint) (processes : Processes) (say : String → List LintJson) : Prop :=
  ∀ n paths, (processes n (e.arguments paths)).entries? e.limits = some (paths.flatMap say)

theorem slices_of_isPrefix {paths : List String} {slices : List (List String)} (h : slices <+: batches paths) :
    slices.flatten <+: paths ∧ ∀ i slice, slices[i]? = some slice →
      slice = (paths.drop (200 * i)).take 200 ∧ slice ≠ [] ∧ slice.length ≤ 200 := by
  constructor
  · obtain ⟨rest, hrest⟩ := h
    exact ⟨rest.flatten, by rw [← List.flatten_append, hrest, flatten_batches]⟩
  · intro i slice hslice
    have hbatch : (batches paths)[i]? = some slice := by
      obtain ⟨rest, hrest⟩ := h
      rw [← hrest, List.getElem?_append_left (List.getElem?_eq_some_iff.1 hslice).1, hslice]
    obtain ⟨hpiece, hne⟩ := getElem?_batches hbatch
    refine ⟨hpiece, hne, ?_⟩
    rw [hpiece, List.length_take]
    exact Nat.min_le_left _ _

theorem AnswersByPath.entries_endsOf {say : String → List LintJson} (h : e.AnswersByPath processes say) (n : Nat)
    (slices : List (List String)) :
    (e.endsOf processes n slices).map (·.entries? e.limits) = (slices.map (·.flatMap say)).map some := by
  induction slices generalizing n with
  | nil => rfl
  | cons slice rest ih => rw [endsOf_cons, List.map_cons, h, ih, List.map_cons, List.map_cons]

theorem entries?_ne_none {ends : List ProcessEnd} {outputs : List (List LintJson)}
    (h : ends.map (·.entries? e.limits) = outputs.map some) {x : ProcessEnd} (hx : x ∈ ends) :
    x.entries? e.limits ≠ none := by
  intro hnone
  have hmem : none ∈ outputs.map some := by
    rw [← h, ← hnone]
    exact List.mem_map_of_mem hx
  simp at hmem

theorem entries?_of_readEnd {x : ProcessEnd} {fault : LintFault} (h : e.readEnd x = .error fault) :
    x.entries? e.limits = none := by
  cases hx : x.entries? e.limits with
  | none => rfl
  | some entries =>
    rw [readEnd_eq_ok.2 hx] at h
    cases h

/-- **Batches are not observable, and a failure ends them.** Let a run be asked about any paths, and let its processes
end in any way. Each process is given the command, the options, a pair of arguments for each rule of the profile, and
then a slice of the paths. The slices are consecutive; none is empty or has more than 200 paths. If each process that
was started printed entries, there were as many as it takes, the slices make up the paths, and the run gives what was
printed, one output after another. A process that was started and failed is the last one, all before it printed entries,
and the run gives its fault and no entries. In particular, processes that answer path by path give the answer of one
process that is asked about all paths. -/
theorem batching_unobservable (e : EsLint) (processes : Processes) (callsBefore : Nat) (paths : List String) :
    let answer := e.run processes callsBefore paths
    ∃ slices : List (List String),
      answer.calls = slices.map (fun slice =>
        e.command ++ options ++ e.profile.flatMap (fun rule => ["--rule", rule ++ ": error"]) ++ slice) ∧
      slices.flatten <+: paths ∧
      (∀ i slice, slices[i]? = some slice →
        slice = (paths.drop (200 * i)).take 200 ∧ slice ≠ [] ∧ slice.length ≤ 200) ∧
      (∀ outputs : List (List LintJson),
        (e.endsOf processes callsBefore slices).map (·.entries? e.limits) = outputs.map some →
        slices.length = (paths.length + 199) / 200 ∧ slices.flatten = paths ∧ answer.entries = .ok outputs.flatten) ∧
      (∀ x ∈ e.endsOf processes callsBefore slices, x.entries? e.limits = none → ∃ before fault,
        e.endsOf processes callsBefore slices = before ++ [x] ∧ (∀ y ∈ before, (y.entries? e.limits).isSome) ∧
        e.readEnd x = .error fault ∧ answer.entries = .error fault) ∧
      ∀ say, e.AnswersByPath processes say →
        answer.entries = .ok (paths.flatMap say) ∧
        ∀ n, e.readEnd (processes n (e.arguments paths)) = answer.entries := by
  intro answer
  obtain ⟨slices, hpre, hcalls, hend⟩ := e.runBatches_cases processes callsBefore (batches paths)
  obtain ⟨hflatten, hslices⟩ := slices_of_isPrefix hpre
  have hprinted : ∀ outputs : List (List LintJson),
      (e.endsOf processes callsBefore slices).map (·.entries? e.limits) = outputs.map some →
      slices = batches paths ∧ answer.entries = .ok outputs.flatten := by
    intro outputs houtputs
    rcases hend with ⟨hall, outputs', hends, hentries⟩ | ⟨before, last, fault, hends, -, hfault, -⟩
    · obtain rfl : outputs' = outputs := (List.map_inj_right fun _ _ => Option.some.inj).1 (hends.symm.trans houtputs)
      exact ⟨hall, hentries⟩
    · rw [hends] at houtputs
      have hlast := entries?_ne_none houtputs (List.mem_append_right _ (List.mem_singleton_self _))
      exact absurd (entries?_of_readEnd hfault) hlast
  refine ⟨slices, hcalls, hflatten, hslices, fun outputs houtputs => ?_, fun x hx hnone => ?_, fun say hsay => ?_⟩
  · obtain ⟨hall, hentries⟩ := hprinted outputs houtputs
    rw [hall]
    exact ⟨length_batches paths, flatten_batches paths, hentries⟩
  · rcases hend with ⟨-, outputs, hends, -⟩ | ⟨before, last, fault, hends, hbefore, hfault, hentries⟩
    · exact absurd hnone (entries?_ne_none hends hx)
    · rw [hends, List.mem_append, List.mem_singleton] at hx
      rcases hx with hx | rfl
      · have hsome := hbefore x hx
        rw [hnone] at hsome
        cases hsome
      · exact ⟨before, fault, hends, hbefore, hfault, hentries⟩
  · obtain ⟨hall, hentries⟩ := hprinted _ (hsay.entries_endsOf callsBefore slices)
    rw [hall, ← List.flatMap_def, flatMap_batches] at hentries
    exact ⟨hentries, fun n => by rw [hentries, readEnd_eq_ok, hsay]⟩

/-! ## Processes that print one entry for each path -/

/-- The entry on a file without messages. -/
def cleanEntry {τ : Type} (path : τ) : Json τ := .object [("filePath", .string path), ("messages", .array [])]

/-- Processes that find nothing in any file that they are given. -/
def clean (e : EsLint) : Processes := fun _ arguments =>
  .exited 0 (Json.array ((arguments.drop (e.arguments []).length).map cleanEntry)).pretty ""

theorem retext_cleanEntry (path : String) : (cleanEntry path).retext WideText = cleanEntry (.text path) := by
  have hpath : JsonText.ofCodePoints (path.toList.map .char) = WideText.text path := by
    simp [JsonText.ofCodePoints, WideText.ofCodePoints, CodePoint.isSurrogate, CodePoint.shown, Function.comp_def]
  simp only [cleanEntry, Json.retext, Json.retextMembers, Json.retextItems, hpath]

theorem fits_cleanEntry (path : String) {limit : Option Nat} {depth : Nat} :
    Json.Fits limit (depth + 2) (cleanEntry path) := by
  refine .object (by simp only [List.map_cons, List.map_nil]; decide) ?_
  rw [List.forall_mem_cons, List.forall_mem_singleton]
  exact ⟨.string path, .array (List.forall_mem_nil _)⟩

theorem answersByPath_clean {e : EsLint} (hdepth : 3 ≤ e.limits.depth) :
    e.AnswersByPath e.clean fun path => [cleanEntry (.text path)] := by
  intro n paths
  have hsplit : e.arguments paths = e.arguments [] ++ paths := by simp [arguments]
  have hpaths : (e.arguments paths).drop (e.arguments []).length = paths := by rw [hsplit, List.drop_left]
  have hfits : Json.Fits e.limits.digits 3 (.array (paths.map cleanEntry)) :=
    .array (List.forall_mem_map.2 fun path _ => fits_cleanEntry path)
  have hread := Json.read_pretty_retext WideText hfits hdepth
  have htext : (Json.array (paths.map cleanEntry)).pretty ≠ "" := by
    obtain ⟨c, cs, hcs, -⟩ := Json.prettyChars_eq_cons hfits 0
    rw [Json.pretty, hcs]
    simp
  rw [clean, hpaths, ProcessEnd.entries?, ProcessEnd.output?, if_pos (.inl rfl), if_neg htext, hread,
    Json.retext, Json.retextItems_eq_map, List.map_map]
  simp only [Function.comp_def, retext_cleanEntry, List.map_eq_flatMap]

/-- Of three batches the second times out, and the third is not started. With processes that find nothing, three batches
give an entry for each path, as one would. -/
theorem batching_unobservable_threeBatches :
    let e : EsLint := {}
    let paths := List.replicate 401 "a.js"
    let slow : Processes := fun n _ => if n = 1 then .timedOut else .exited 0 "" ""
    (e.run slow 0 paths).calls.length = 2 ∧
      (e.run slow 0 paths).entries = .error (.unusable (.timedOut (.ofInt 300))) ∧
      (e.run e.clean 0 paths).entries = .ok (paths.map fun path => cleanEntry (.text path)) := by
  intro e paths slow
  obtain ⟨slices, hcalls, -, -, hall, hfails, -⟩ := batching_unobservable e slow 0 paths
  obtain ⟨_, -, -, -, -, -, hbyPath⟩ := batching_unobservable e e.clean 0 paths
  have hclean := (hbyPath _ (answersByPath_clean (by decide))).1
  rw [← List.map_eq_flatMap] at hclean
  have hthree : (paths.length + 199) / 200 = 3 := by rw [show paths.length = 401 from List.length_replicate]
  rcases slices with _ | ⟨first, _ | ⟨second, rest⟩⟩
  · have hcount := (hall [] rfl).1
    rw [hthree] at hcount
    cases hcount
  · have hcount := (hall [[]] rfl).1
    rw [hthree] at hcount
    cases hcount
  · obtain ⟨before, fault, hends, hbefore, hfault, hentries⟩ := hfails .timedOut (.tail _ (.head _)) rfl
    cases hfault
    refine ⟨?_, hentries, hclean⟩
    rw [hcalls, List.length_map]
    rw [endsOf_cons, endsOf_cons] at hends
    rcases before with _ | ⟨x, _ | ⟨y, more⟩⟩
    · cases hends
    · have hrest : e.endsOf slow 2 rest = [] := by simpa using (List.cons.inj (List.cons.inj hends).2).2
      have hlength := congrArg List.length hrest
      rw [endsOf, List.length_map, List.length_zipIdx] at hlength
      rw [List.length_cons, List.length_cons, hlength]
      rfl
    · -- The process that timed out would have succeeded.
      obtain rfl : ProcessEnd.timedOut = y := (List.cons.inj (List.cons.inj hends).2).1
      cases hbefore .timedOut (.tail _ (.head _))

end SourceAudit.EsLint
