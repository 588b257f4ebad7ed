import SourceAudit.Proofs.Association
import SourceAudit.Proofs.Config.ReportDirectory

/-!
# Overriding settings

Overrides give values to names; null gives none. A configuration takes the values given under the names of its settings,
refuses all other names, and is checked as a whole if any value was given. What a merge comes to is thereby a matter of
what the overrides give to each name, and not of where in the overrides it stands, except that of several unknown names
the first one is reported. Laying overrides over others gives each name what the upper ones give it, or else the lower
ones, so that merging one after the other and merging both at once come to the same.

Results:
* `Overrides.find?_overlay`: what overrides laid over others give.
* `Config.merged_of_unknown`, `Config.merged_of_known`, `Config.merged_of_none`: what a merge comes to.
* `Config.merged_overlay`: merging one after the other is merging both at once.
* `Config.merged_foldl_overlay`: attempts, failed ones included, come to one merge of those that did not fail.
* `Config.check_of_reached`: all configurations that loading and merging lead to pass the checks.
* `Config.overrides_compose`: all of this.
-/
namespace SourceAudit

open Fallible

/-! ## What overrides give -/

/-- Values for names, each name once and none of them reserved. -/
structure Overrides where
  entries : List (String × Json) := []
  distinct : (entries.map (·.1)).Nodup := by simp
  unreserved : "self" ∉ entries.map (·.1) := by simp

namespace Overrides

/-- The value given to a name. -/
def find? (o : Overrides) (name : String) : Option Json := (Config.effective o.entries).lookup name

theorem mem_effective {entries : List (String × Json)} {name : String} {v : Json} :
    (name, v) ∈ Config.effective entries ↔ (name, v) ∈ entries ∧ v ≠ .null := by
  rw [Config.effective, List.mem_filter]
  cases v <;> simp

theorem nodup_effective (o : Overrides) : ((Config.effective o.entries).map (·.1)).Nodup :=
  (List.filter_sublist.map _).nodup o.distinct

theorem find?_eq_some {o : Overrides} {name : String} {v : Json} :
    o.find? name = some v ↔ o.entries.lookup name = some v ∧ v ≠ .null := by
  rw [find?, Association.lookup_eq_some_iff_mem o.nodup_effective, mem_effective,
    Association.lookup_eq_some_iff_mem o.distinct]

theorem find?_ne_none {o : Overrides} {name : String} :
    o.find? name ≠ none ↔ name ∈ (Config.effective o.entries).map (·.1) := Association.lookup_ne_none

/-- Overrides with those of others that are not null laid over them. -/
def overlay (lower upper : Overrides) : Overrides where
  entries := Association.setAll (Config.effective upper.entries) lower.entries
  distinct := Association.nodup_setAll _ lower.distinct
  unreserved := by
    rw [Association.mem_keys_setAll, not_or]
    exact ⟨fun hmem => upper.unreserved (List.filter_sublist.map _ |>.subset hmem), lower.unreserved⟩

theorem entries_overlay (lower upper : Overrides) :
    (lower.overlay upper).entries = Association.setAll (Config.effective upper.entries) lower.entries := rfl

theorem lookup_overlay (lower upper : Overrides) (name : String) :
    (lower.overlay upper).entries.lookup name = (upper.find? name).or (lower.entries.lookup name) :=
  Association.lookup_setAll upper.nodup_effective _ _

/-- A name is given what the upper overrides give it, or else what the lower ones do. -/
theorem find?_overlay (lower upper : Overrides) (name : String) :
    (lower.overlay upper).find? name = (upper.find? name).or (lower.find? name) := by
  refine Option.ext fun v => ?_
  rw [find?_eq_some, lookup_overlay]
  cases hupper : upper.find? name with
  | none => simp [find?_eq_some]
  | some w =>
    have hw := (find?_eq_some.1 hupper).2
    simp only [Option.some_or, Option.some.injEq, and_iff_left_iff_imp]
    intro heq
    exact heq ▸ hw

theorem effective_eq_nil {o : Overrides} : Config.effective o.entries = [] ↔ ∀ name, o.find? name = none := by
  constructor
  · intro h name
    rw [find?, h]
    rfl
  · intro h
    refine List.eq_nil_iff_forall_not_mem.2 fun x hx => ?_
    exact find?_ne_none.2 (List.mem_map_of_mem hx) (h x.1)

/-- Overrides laid one over the other, the last ones uppermost. -/
def stack (layers : List Overrides) : Overrides := layers.foldl overlay {}

end Overrides

/-- A fault without the name of the setting that there is not. -/
def ConfigFault.unnamed : ConfigFault → ConfigFault
  | .unknownOverride _ => .unknownOverride ""
  | fault => fault

namespace Config

/-! ## One merge -/

/-- A configuration with the values that are given to the names of its settings. -/
def laid (c : Config) (given : String → Option Json) : Config where
  extraIgnoreDirs := (given "extra_ignore_dirs").getD c.extraIgnoreDirs
  reportDir := (given "report_dir").getD c.reportDir
  jobs := (given "jobs").getD c.jobs
  eslintCommand := (given "eslint_command").getD c.eslintCommand
  eslintTimeout := (given "eslint_timeout").getD c.eslintTimeout

theorem laid_none (c : Config) : c.laid (fun _ => none) = c := rfl

theorem laid_laid (c : Config) (first second : String → Option Json) :
    (c.laid first).laid second = c.laid fun name => (second name).or (first name) := by
  simp only [laid, Option.getD_or]

theorem set_of_mem {name : String} (h : name ∈ keys) (c : Config) (v : Json) :
    c.set name v = .ok (c.laid fun other => [(name, v)].lookup other) := by
  simp only [keys, List.mem_cons, List.not_mem_nil, or_false] at h
  obtain rfl | rfl | rfl | rfl | rfl := h <;> rfl

theorem set_of_not_mem {name : String} (h : name ∉ keys) (c : Config) (v : Json) :
    c.set name v = .error (.unknownOverride name) := by
  simp only [keys, List.mem_cons, List.not_mem_nil, or_false, not_or] at h
  obtain ⟨h₁, h₂, h₃, h₄, h₅⟩ := h
  unfold set
  split <;> first | contradiction | rfl

theorem foldlM_set {values : List (String × Json)} (hdistinct : (values.map (·.1)).Nodup)
    (hknown : ∀ name ∈ values.map (·.1), name ∈ keys) (c : Config) :
    values.foldlM (fun c x => c.set x.1 x.2) c = .ok (c.laid fun name => values.lookup name) := by
  induction values generalizing c with
  | nil => rfl
  | cons x rest ih =>
    obtain ⟨name, v⟩ := x
    obtain ⟨hname, hrest⟩ := List.forall_mem_cons.1 hknown
    rw [List.foldlM_cons, set_of_mem hname]
    refine (ih (List.nodup_cons.1 hdistinct).2 hrest _).trans ?_
    simp only [laid_laid, Association.lookup_cons_eq_or hdistinct]

theorem foldlM_set_of_unknown {values : List (String × Json)} (h : ∃ name ∈ values.map (·.1), name ∉ keys)
    (c : Config) : ∃ name, values.foldlM (fun c x => c.set x.1 x.2) c = .error (.unknownOverride name) := by
  induction values generalizing c with
  | nil =>
    obtain ⟨name, hname, -⟩ := h
    cases hname
  | cons x rest ih =>
    obtain ⟨name, v⟩ := x
    by_cases hname : name ∈ keys
    · obtain ⟨other, hother, hunknown⟩ := h
      have hlater : other ∈ rest.map (·.1) :=
        (List.mem_cons.1 hother).resolve_left fun heq => hunknown (heq ▸ hname)
      obtain ⟨first, hfirst⟩ := ih ⟨other, hlater, hunknown⟩ (c.laid fun other => [(name, v)].lookup other)
      refine ⟨first, ?_⟩
      rw [List.foldlM_cons, set_of_mem hname]
      exact hfirst
    · refine ⟨name, ?_⟩
      rw [List.foldlM_cons, set_of_not_mem hname]
      rfl

theorem checked_eq_ok {c c' : Config} : c.checked = .ok c' ↔ c.check = .ok () ∧ c' = c := by
  unfold checked
  cases hcheck : c.check with
  | error fault => simp [bind, Except.bind]
  | ok u => simp [bind, Except.bind, pure, Except.pure, eq_comm]

variable {o lower upper : Overrides}

theorem not_reserved (o : Overrides) : ¬ (o.entries.any (·.1 = "self")) = true := by
  simpa using o.unreserved

theorem merged_of_none (h : ∀ name, o.find? name = none) (c : Config) : c.merged o.entries = .ok c := by
  rw [merged, if_neg (not_reserved o), Overrides.effective_eq_nil.2 h]

theorem merged_of_given (h : ∃ name, o.find? name ≠ none) (c : Config) :
    c.merged o.entries = (effective o.entries).foldlM (fun c x => c.set x.1 x.2) c >>= checked := by
  rw [merged, if_neg (not_reserved o)]
  split
  · next hnil =>
    obtain ⟨name, hname⟩ := h
    exact absurd (Overrides.effective_eq_nil.1 hnil name) hname
  · rfl

/-- Values for settings only are laid in and the whole is checked. -/
theorem merged_of_known (hgiven : ∃ name, o.find? name ≠ none) (hknown : ∀ name, o.find? name ≠ none → name ∈ keys)
    (c : Config) : c.merged o.entries = (c.laid o.find?).checked := by
  have hnames : ∀ name ∈ (effective o.entries).map (·.1), name ∈ keys :=
    fun name hname => hknown name (Overrides.find?_ne_none.2 hname)
  rw [merged_of_given hgiven, foldlM_set o.nodup_effective hnames]
  rfl

/-- A value for anything else is refused, whatever the other values are. -/
theorem merged_of_unknown (h : ∃ name, o.find? name ≠ none ∧ name ∉ keys) (c : Config) :
    ∃ name, c.merged o.entries = .error (.unknownOverride name) := by
  obtain ⟨name, hname, hunknown⟩ := h
  obtain ⟨first, hfirst⟩ := foldlM_set_of_unknown ⟨name, Overrides.find?_ne_none.1 hname, hunknown⟩ c
  refine ⟨first, ?_⟩
  rw [merged_of_given ⟨name, hname⟩, hfirst]
  rfl

theorem of_merged_eq_ok {c c' : Config} (h : c.merged o.entries = .ok c') :
    (∀ name, o.find? name ≠ none → name ∈ keys) ∧ c' = c.laid o.find? := by
  have hknown : ∀ name, o.find? name ≠ none → name ∈ keys := by
    by_contra hnot
    push Not at hnot
    obtain ⟨name, hname⟩ := merged_of_unknown hnot c
    rw [hname] at h
    cases h
  refine ⟨hknown, ?_⟩
  by_cases hgiven : ∃ name, o.find? name ≠ none
  · rw [merged_of_known hgiven hknown] at h
    exact (checked_eq_ok.1 h).2
  · push Not at hgiven
    rw [merged_of_none hgiven] at h
    cases h
    rw [funext hgiven, laid_none]

/-! ## Merge after merge -/

/-- Merging one after the other is merging both at once, in its value or in the fault. -/
theorem merged_overlay {c c₁ : Config} (h : c.merged lower.entries = .ok c₁) (upper : Overrides) :
    (c₁.merged upper.entries).mapError ConfigFault.unnamed =
      (c.merged (lower.overlay upper).entries).mapError ConfigFault.unnamed := by
  by_cases hgiven : ∃ name, upper.find? name ≠ none
  · obtain ⟨hlower, rfl⟩ := of_merged_eq_ok h
    have hupper : ∀ {name}, upper.find? name ≠ none → (lower.overlay upper).find? name ≠ none := by
      intro name hname
      rw [Overrides.find?_overlay, Ne, Option.or_eq_none_iff]
      exact fun hboth => hname hboth.1
    obtain ⟨given, hgiven⟩ := hgiven
    by_cases hknown : ∀ name, upper.find? name ≠ none → name ∈ keys
    · have hboth : ∀ name, (lower.overlay upper).find? name ≠ none → name ∈ keys := by
        intro name hname
        by_cases hname' : upper.find? name = none
        · rw [Overrides.find?_overlay, hname', Option.none_or] at hname
          exact hlower name hname
        · exact hknown name hname'
      rw [merged_of_known ⟨given, hgiven⟩ hknown, merged_of_known ⟨given, hupper hgiven⟩ hboth, laid_laid,
        ← funext (Overrides.find?_overlay lower upper)]
    · push Not at hknown
      obtain ⟨name, hname, hunknown⟩ := hknown
      obtain ⟨first, hfirst⟩ := merged_of_unknown ⟨name, hname, hunknown⟩ (c.laid lower.find?)
      obtain ⟨first', hfirst'⟩ := merged_of_unknown ⟨name, hupper hname, hunknown⟩ c
      rw [hfirst, hfirst']
      rfl
  · push Not at hgiven
    have hentries : (lower.overlay upper).entries = lower.entries := by
      rw [Overrides.entries_overlay, Overrides.effective_eq_nil.2 hgiven]
      rfl
    rw [merged_of_none hgiven, hentries, h]

theorem merged_overlay_eq_ok {c c₁ c₂ : Config} (h₁ : c.merged lower.entries = .ok c₁)
    (h₂ : c₁.merged upper.entries = .ok c₂) : c.merged (lower.overlay upper).entries = .ok c₂ := by
  have hover := merged_overlay h₁ upper
  rw [h₂] at hover
  cases hmerged : c.merged (lower.overlay upper).entries with
  | error fault =>
    rw [hmerged] at hover
    cases hover
  | ok c' =>
    rw [hmerged] at hover
    cases hover
    rfl

/-! ## Attempts -/

/-- The configuration in force after an attempt to override settings: if the attempt fails, the one before it. -/
def attempt (c : Config) (o : Overrides) : Config := (c.merged o.entries).toOption.getD c

/-- The configuration in force after some attempts. -/
def attempts (c : Config) (os : List Overrides) : Config := os.foldl attempt c

/-- The overrides of some attempts that did not fail. -/
def kept (c : Config) : List Overrides → List Overrides
  | [] => []
  | o :: later => if (c.merged o.entries).toBool then o :: (c.attempt o).kept later else (c.attempt o).kept later

theorem attempt_of_ok {c c' : Config} (h : c.merged o.entries = .ok c') : c.attempt o = c' := by
  rw [attempt, h]
  rfl

theorem attempt_of_error {c : Config} {fault : ConfigFault} (h : c.merged o.entries = .error fault) :
    c.attempt o = c := by
  rw [attempt, h]
  rfl

/-- Attempts come to one merge of the overrides that were kept, on top of those merged before. -/
theorem merged_foldl_overlay {base c : Config} (h : base.merged o.entries = .ok c) (os : List Overrides) :
    base.merged ((c.kept os).foldl Overrides.overlay o).entries = .ok (c.attempts os) := by
  induction os generalizing o c with
  | nil => exact h
  | cons next later ih =>
    rw [kept, attempts, List.foldl_cons, ← attempts]
    cases hnext : c.merged next.entries with
    | error fault =>
      rw [attempt_of_error hnext]
      exact ih h
    | ok c' =>
      rw [attempt_of_ok hnext]
      exact ih (merged_overlay_eq_ok h hnext)

/-! ## Checks -/

theorem check_of_merged {c c' : Config} {overrides : List (String × Json)} (hc : c.check = .ok ())
    (h : c.merged overrides = .ok c') : c'.check = .ok () := by
  unfold merged at h
  split at h
  · cases h
  · split at h
    · cases h
      exact hc
    · obtain ⟨laid, -, hlaid⟩ := bind_eq_ok.1 h
      obtain ⟨hcheck, rfl⟩ := checked_eq_ok.1 hlaid
      exact hcheck

theorem check_attempts {c : Config} (hc : c.check = .ok ()) (os : List Overrides) : (c.attempts os).check = .ok () := by
  induction os generalizing c with
  | nil => exact hc
  | cons o later ih =>
    refine ih ?_
    cases hmerged : c.merged o.entries with
    | error fault =>
      rw [attempt_of_error hmerged]
      exact hc
    | ok c' =>
      rw [attempt_of_ok hmerged]
      exact check_of_merged hc hmerged

theorem check_default : ({} : Config).check = .ok () := check_of_reportDir (by decide)

theorem check_of_ofMapping {entries : List (Datum × Datum)} {c : Config} (h : ofMapping entries = .ok c) :
    c.check = .ok () := by
  obtain ⟨-, -, h⟩ := bind_eq_ok.1 h
  obtain ⟨dirs, -, h⟩ := bind_eq_ok.1 h
  obtain ⟨command, -, h⟩ := bind_eq_ok.1 h
  obtain ⟨jobs, -, h⟩ := bind_eq_ok.1 h
  obtain ⟨timeout, -, h⟩ := bind_eq_ok.1 h
  obtain ⟨reportDir, -, h⟩ := bind_eq_ok.1 h
  obtain ⟨hcheck, rfl⟩ := checked_eq_ok.1 h
  exact hcheck

/-- Configurations that come from the default one or from a mapping by merging any number of times. -/
inductive Reached : Config → Prop
  | default : Reached {}
  | mapping {entries : List (Datum × Datum)} {c : Config} : ofMapping entries = .ok c → Reached c
  | merged {c c' : Config} {overrides : List (String × Json)} : Reached c → c.merged overrides = .ok c' → Reached c'

theorem reached_of_load {read : Reader} {d : Disk} {path : Option Path} {c : Config} (h : load read d path = .ok c) :
    Reached c := by
  cases path with
  | none =>
    cases h
    exact .default
  | some path =>
    simp only [load] at h
    split at h
    · cases h
    · obtain ⟨v, -, h⟩ := bind_eq_ok.1 h
      split at h
      · cases h
        exact .default
      · exact .mapping h
      · cases h

theorem check_of_reached {c : Config} (h : Reached c) : c.check = .ok () := by
  induction h with
  | default => exact check_default
  | mapping h => exact check_of_ofMapping h
  | merged _ h ih => exact check_of_merged ih h

/-- Overrides compose. If a merge succeeds, merging more overrides comes to the same, in the configuration or in the
fault, as merging once what the first ones and over them the second ones give. A failed merge leaves the configuration
as it was, for all that is done with it later; so attempts come to one merge of those overrides that were kept. What
is loaded, whatever the reader makes of the file, is the default or comes from a mapping; and all configurations that
merging leads to from there pass the checks. -/
theorem overrides_compose :
    (∀ (c c₁ : Config) (o₁ o₂ : Overrides), c.merged o₁.entries = .ok c₁ →
      (c₁.merged o₂.entries).mapError ConfigFault.unnamed =
          (c.merged (o₁.overlay o₂).entries).mapError ConfigFault.unnamed ∧
        ∀ name, (o₁.overlay o₂).entries.lookup name = (o₂.find? name).or (o₁.entries.lookup name)) ∧
    (∀ (c : Config) (o : Overrides) (fault : ConfigFault), c.merged o.entries = .error fault →
      ∀ later, c.attempts (o :: later) = c.attempts later) ∧
    (∀ (c : Config) (os : List Overrides), c.check = .ok () →
      c.merged (Overrides.stack (c.kept os)).entries = .ok (c.attempts os) ∧ (c.attempts os).check = .ok ()) ∧
    (∀ (read : Reader) (d : Disk) (path : Option Path) (c : Config), load read d path = .ok c → Reached c) ∧
    ∀ c : Config, Reached c → c.check = .ok () := by
  refine ⟨fun c c₁ o₁ o₂ h => ⟨merged_overlay h o₂, Overrides.lookup_overlay o₁ o₂⟩, fun c o fault h later => ?_,
    fun c os hc => ⟨?_, check_attempts hc os⟩, fun _ _ _ _ h => reached_of_load h, fun c h => check_of_reached h⟩
  · rw [attempts, List.foldl_cons, attempt_of_error h]
    rfl
  · exact merged_foldl_overlay (merged_of_none (fun _ => rfl) c) os

def fewerJobs : Overrides where
  entries := [("jobs", .int 2), ("colour", .null)]

def strayColour : Overrides where
  entries := [("colour", .string "red")]

def otherDir : Overrides where
  entries := [("jobs", .null), ("report_dir", .string "out")]

/-- A name that is no setting does no harm as long as it is null, and is refused once it is given a value, in which case
the next attempt goes on from what was in force. -/
theorem overrides_compose_strayColour :
    ∃ (c₁ : Config) (fault : ConfigFault), ({} : Config).merged fewerJobs.entries = .ok c₁ ∧
      c₁.merged strayColour.entries = .error fault ∧
      (({} : Config).merged (fewerJobs.overlay strayColour).entries).mapError ConfigFault.unnamed =
        .error (.unknownOverride "") ∧
      (({} : Config).merged (fewerJobs.overlay otherDir).entries).mapError ConfigFault.unnamed =
        .ok { jobs := .int 2, reportDir := .string "out" } ∧
      c₁.attempts [strayColour, otherDir] = c₁.attempts [otherDir] ∧
      (({} : Config).attempts [fewerJobs, strayColour, otherDir]).check = .ok () ∧ c₁.check = .ok () := by
  obtain ⟨hcompose, hfailed, hattempts, hloaded, hreached⟩ := overrides_compose
  have hjobs : ({} : Config).merged fewerJobs.entries = .ok { jobs := .int 2 } := rfl
  have hstray : ({ jobs := .int 2 } : Config).merged strayColour.entries = .error (.unknownOverride "colour") := rfl
  refine ⟨_, _, hjobs, hstray, ?_, ?_, hfailed _ _ _ hstray _, (hattempts _ _ check_default).2,
    hreached _ (.merged (hloaded (fun _ _ => .ok .null) default none _ rfl) hjobs)⟩
  · rw [← (hcompose _ _ _ strayColour hjobs).1, hstray]
    rfl
  · rw [← (hcompose _ _ _ otherDir hjobs).1]
    rfl

end Config
end SourceAudit
