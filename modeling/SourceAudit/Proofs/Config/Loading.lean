import SourceAudit.Proofs.Config.Overrides
import SourceAudit.Proofs.Disk.Order
import SourceAudit.Proofs.Number.Notation

/-!
# Loading brings settings into form

A mapping gives values to names, each name once. Loading it brings the value of each setting into the setting's form: a
list of texts, a text, an integer or a real number. A value that is in form is left as it is, so that loading the
settings of a configuration that was loaded gives the configuration again; and the configurations that loading gives are
those in form that pass the checks. The timeout may also be given back as it is shown, as the text of a real number is
read as that number.

What loading comes to is a matter of what a mapping gives to each name. A name that is no setting is refused before any
value is looked at, and all such names are reported in order.

Results:
* `Mapping.config_eq_ok`: when loading succeeds, and what it gives.
* `Mapping.config_of_unknown`: names that are no settings are refused.
* `Mapping.config_of_perm`: the order of a mapping does not count.
* `Config.config_toMapping_iff`: loading leaves exactly the configurations in form that pass the checks as they are.
* `Config.loading_normalises`: all of this.
-/
namespace SourceAudit

open Fallible

/-! ## Mappings -/

/-- Values for names, each name once. -/
structure Mapping where
  entries : List (String × Json)
  distinct : (entries.map (·.1)).Nodup

namespace Mapping

/-- The names that a mapping gives values to. -/
def names (m : Mapping) : List String := m.entries.map (·.1)

/-- The value given to a name. -/
def get? (m : Mapping) (name : String) : Option Json := m.entries.lookup name

/-- The configuration that a mapping gives. -/
def config (m : Mapping) : Except ConfigFault Config := Config.ofMapping (Datum.ofMembers m.entries)

/-- The names of a mapping that are no settings. -/
def unknown (m : Mapping) : List String := m.names.filter (· ∉ Config.keys)

end Mapping

theorem Datum.ofMembers_eq_map (members : List (String × Json)) :
    ofMembers members = members.map fun x => (.text x.1, ofJson x.2) := by
  induction members with
  | nil => rfl
  | cons first rest ih =>
    obtain ⟨name, v⟩ := first
    rw [ofMembers, ih]
    rfl

theorem Datum.ofItems_eq_map (items : List Json) : ofItems items = items.map ofJson := by
  induction items with
  | nil => rfl
  | cons first rest ih => rw [ofItems, ih, List.map_cons]

/-! ## What a mapping comes to -/

namespace Mapping

variable {m : Mapping}

theorem get?_of_perm {m' : Mapping} (h : m.entries.Perm m'.entries) (name : String) : m.get? name = m'.get? name :=
  Association.lookup_of_perm h m.distinct name

theorem valueOf?_entries (m : Mapping) (name : String) :
    Config.valueOf? name (Datum.ofMembers m.entries) = (m.get? name).map Datum.ofJson := by
  rw [Config.valueOf?, Datum.ofMembers_eq_map, get?]
  induction m.entries with
  | nil => rfl
  | cons first rest ih =>
    rw [List.map_cons, List.find?_cons, Association.lookup_cons]
    by_cases hname : name = first.1
    · simp [Datum.sameKey, hname]
    · simpa [Datum.sameKey, hname, Ne.symm hname] using ih

theorem settingOf_entries (m : Mapping) (name : String) (form : Datum → Except ConfigFault Json) (default : Json) :
    Config.settingOf name (Datum.ofMembers m.entries) form default =
      ((m.get? name).map fun v => form (.ofJson v)).getD (.ok default) := by
  rw [Config.settingOf, valueOf?_entries]
  cases m.get? name <;> rfl

theorem checkKeys_entries (m : Mapping) :
    Config.checkKeys (Datum.ofMembers m.entries) =
      if m.unknown = [] then .ok () else .error (.unknownKeys (sortBy id m.unknown)) := by
  have hunknown : ((Datum.ofMembers m.entries).map (·.1)).filter
      (fun k => !Config.keys.any fun name => k.sameKey (.text name)) = m.unknown.map .text := by
    rw [Datum.ofMembers_eq_map, List.map_map, unknown, names, List.filter_map, List.filter_map, List.map_map]
    congr 1
    refine List.filter_congr fun x _ => ?_
    rw [Bool.eq_iff_iff]
    simpa [Datum.sameKey] using List.forall_mem_ne
  have htexts : (m.unknown.map Datum.text).map Datum.display = m.unknown := by
    rw [List.map_map]
    exact List.map_id _
  unfold Config.checkKeys
  simp only [hunknown]
  rw [mapM_eq_ok_map (g := Datum.display) (by simp [Datum.display]), htexts]
  simp only [bind, Except.bind, List.isEmpty_iff]
  split <;> rfl

/-- A name that is no setting is refused, whatever the values are. -/
theorem config_of_unknown (h : m.unknown ≠ []) : m.config = .error (.unknownKeys (sortBy id m.unknown)) := by
  rw [config, Config.ofMapping, checkKeys_entries, if_neg h]
  rfl

/-- Loading succeeds if all names are settings, all values can be brought into form and the whole passes the checks. -/
theorem config_eq_ok {c : Config} :
    m.config = .ok c ↔ m.unknown = [] ∧
      Config.settingOf "extra_ignore_dirs" (Datum.ofMembers m.entries) (Config.toTexts "extra_ignore_dirs")
        (.array []) = .ok c.extraIgnoreDirs ∧
      Config.settingOf "eslint_command" (Datum.ofMembers m.entries) (Config.toTexts "eslint_command")
        (.array [.string "eslint"]) = .ok c.eslintCommand ∧
      Config.settingOf "jobs" (Datum.ofMembers m.entries) Config.toInteger (.int 4) = .ok c.jobs ∧
      Config.settingOf "eslint_timeout" (Datum.ofMembers m.entries) Config.toReal (.real (.ofInt 300)) =
        .ok c.eslintTimeout ∧
      Config.settingOf "report_dir" (Datum.ofMembers m.entries) Config.toText (.string "security_report") =
        .ok c.reportDir ∧
      c.check = .ok () := by
  have hkeys : Config.checkKeys (Datum.ofMembers m.entries) = .ok () ↔ m.unknown = [] := by
    rw [checkKeys_entries]
    split <;> simp_all
  refine ⟨fun h => ?_, fun h => ?_⟩
  · obtain ⟨_, hnames, h⟩ := bind_eq_ok.1 h
    obtain ⟨dirs, hdirs, h⟩ := bind_eq_ok.1 h
    obtain ⟨command, hcommand, h⟩ := bind_eq_ok.1 h
    obtain ⟨jobs, hjobs, h⟩ := bind_eq_ok.1 h
    obtain ⟨timeout, htimeout, h⟩ := bind_eq_ok.1 h
    obtain ⟨reportDir, hreportDir, h⟩ := bind_eq_ok.1 h
    obtain ⟨hcheck, rfl⟩ := Config.checked_eq_ok.1 h
    exact ⟨hkeys.1 hnames, hdirs, hcommand, hjobs, htimeout, hreportDir, hcheck⟩
  · obtain ⟨hnames, hdirs, hcommand, hjobs, htimeout, hreportDir, hcheck⟩ := h
    refine bind_eq_ok.2 ⟨(), hkeys.2 hnames, bind_eq_ok.2 ⟨_, hdirs, bind_eq_ok.2 ⟨_, hcommand, bind_eq_ok.2 ⟨_, hjobs,
      bind_eq_ok.2 ⟨_, htimeout, bind_eq_ok.2 ⟨_, hreportDir, ?_⟩⟩⟩⟩⟩⟩
    exact Config.checked_eq_ok.2 ⟨hcheck, rfl⟩

/-- The order of a mapping does not count. -/
theorem config_of_perm {m' : Mapping} (h : m.entries.Perm m'.entries) : m.config = m'.config := by
  have hunknown : m.unknown.Perm m'.unknown := (h.map _).filter _
  have hsettings : ∀ name form default, Config.settingOf name (Datum.ofMembers m.entries) form default =
      Config.settingOf name (Datum.ofMembers m'.entries) form default := fun name form default => by
    rw [settingOf_entries, settingOf_entries, get?_of_perm h]
  have hkeys : Config.checkKeys (Datum.ofMembers m.entries) = Config.checkKeys (Datum.ofMembers m'.entries) := by
    rw [checkKeys_entries, checkKeys_entries, sortBy_of_perm hunknown]
    simp only [← List.length_eq_zero_iff, hunknown.length_eq]
  unfold config Config.ofMapping
  simp only [hkeys, hsettings]

end Mapping

/-! ## Forms -/

namespace Json

def IsTexts (v : Json) : Prop := ∃ texts : List String, v = .array (texts.map .string)

def IsText (v : Json) : Prop := ∃ text, v = .string text

def IsInteger (v : Json) : Prop := ∃ n, v = .int n

def IsReal (v : Json) : Prop := ∃ x, v = .real x

/-- A real number in the one form of these. -/
def IsCanonicalReal (v : Json) : Prop := ∃ x : Binary64, v = .real x ∧ x.IsCanonical

end Json

namespace Config

theorem isText_of_toText {v : Datum} {w : Json} (h : toText v = .ok w) : w.IsText := by
  unfold toText at h
  split at h
  · cases h
    exact ⟨_, rfl⟩
  · cases h

theorem toText_text (s : String) : toText (.text s) = .ok (.string s) := rfl

theorem isTexts_of_mapM_toText {items : List Datum} {ws : List Json} (h : items.mapM toText = .ok ws) :
    Json.IsTexts (.array ws) := by
  have hall : ∀ w ∈ ws, w.IsText := fun w hw => by
    obtain ⟨v, -, hv⟩ := exists_of_mem_mapM h hw
    exact isText_of_toText hv
  clear h
  induction ws with
  | nil => exact ⟨[], rfl⟩
  | cons w ws ih =>
    obtain ⟨⟨s, rfl⟩, hws⟩ := List.forall_mem_cons.1 hall
    obtain ⟨texts, htexts⟩ := ih hws
    exact ⟨s :: texts, by rw [Json.array.inj htexts, List.map_cons]⟩

theorem isTexts_of_toTexts {key : String} {v : Datum} {w : Json} (h : toTexts key v = .ok w) : w.IsTexts := by
  unfold toTexts at h
  split at h
  · cases h
    exact ⟨_, rfl⟩
  · obtain ⟨ws, hws, h⟩ := bind_eq_ok.1 h
    cases h
    exact isTexts_of_mapM_toText hws
  · obtain ⟨ws, hws, h⟩ := bind_eq_ok.1 h
    cases h
    exact isTexts_of_mapM_toText hws
  · cases h

theorem toTexts_texts (key : String) (texts : List String) :
    toTexts key (.ofJson (.array (texts.map .string))) = .ok (.array (texts.map .string)) := by
  have hitems : Datum.ofItems (texts.map Json.string) = texts.map Datum.text := by
    rw [Datum.ofItems_eq_map, List.map_map]
    rfl
  have hmap : (texts.map Datum.text).mapM toText = .ok (texts.map Json.string) := by
    rw [mapM_eq_ok, List.forall₂_map_left_iff, List.forall₂_map_right_iff, List.forall₂_same]
    exact fun s _ => toText_text s
  rw [Datum.ofJson, hitems]
  exact bind_eq_ok.2 ⟨_, hmap, rfl⟩

theorem isInteger_of_toInteger {v w : Json} (h : toInteger (.ofJson v) = .ok w) : w.IsInteger := by
  cases v with
  | null => cases h
  | bool b => cases h; exact ⟨_, rfl⟩
  | int n => cases h; exact ⟨_, rfl⟩
  | real x =>
    cases x with
    | nan => cases h
    | infinite negative => cases h
    | finite negative mantissa exponent => cases h; exact ⟨_, rfl⟩
  | string s =>
    simp only [Datum.ofJson, toInteger] at h
    split at h
    · cases h
      exact ⟨_, rfl⟩
    · cases h
  | array items => cases h
  | object members => cases h

theorem exists_of_toReal {v w : Json} (h : toReal (.ofJson v) = .ok w) :
    ∃ x, w = .real x ∧ (v ≠ .real x → x.IsCanonical) := by
  have hint : ∀ n, (Binary64.ofInt n).IsCanonical := fun n => Binary64.isCanonical_ofRatio _ _ one_ne_zero
  cases v with
  | null => cases h
  | bool b => cases h; exact ⟨_, rfl, fun _ => hint _⟩
  | int n =>
    simp only [Datum.ofJson, toReal] at h
    split at h
    · cases h
    · cases h
      exact ⟨_, rfl, fun _ => hint n⟩
  | real x => cases h; exact ⟨x, rfl, fun hne => absurd rfl hne⟩
  | string s =>
    simp only [Datum.ofJson, toReal] at h
    split at h
    · next hread =>
      cases h
      exact ⟨_, rfl, fun _ => Numeral.isCanonical_of_readReal hread⟩
    · cases h
  | array items => cases h
  | object members => cases h

/-- A configuration in form: what is a list of texts, a text, an integer or a real number is given as such. -/
structure InForm (c : Config) : Prop where
  extraIgnoreDirs : c.extraIgnoreDirs.IsTexts
  reportDir : c.reportDir.IsText
  jobs : c.jobs.IsInteger
  eslintCommand : c.eslintCommand.IsTexts
  eslintTimeout : c.eslintTimeout.IsReal

def toMapping (c : Config) : Mapping where
  entries := [("extra_ignore_dirs", c.extraIgnoreDirs), ("report_dir", c.reportDir), ("jobs", c.jobs),
    ("eslint_command", c.eslintCommand), ("eslint_timeout", c.eslintTimeout)]
  distinct := (by decide : keys.Nodup)

/-- The settings as they are shown: the timeout is written out. -/
def shown (c : Config) : Mapping := { c with eslintTimeout := .string c.eslintTimeout.display }.toMapping

end Config

/-! ## Loading -/

variable {m : Mapping} {c : Config}

theorem Mapping.of_settingOf {name : String} {form : Datum → Except ConfigFault Json} {default w : Json}
    {P : Json → Prop} (h : Config.settingOf name (Datum.ofMembers m.entries) form default = .ok w)
    (hdefault : P default) (hform : ∀ v, m.get? name = some v → form (.ofJson v) = .ok w → P w) : P w := by
  rw [settingOf_entries] at h
  cases hvalue : m.get? name with
  | none =>
    rw [hvalue] at h
    cases h
    exact hdefault
  | some v =>
    rw [hvalue] at h
    exact hform v hvalue h

namespace Config

theorem inForm_of_config (h : m.config = .ok c) : c.InForm := by
  obtain ⟨-, hdirs, hcommand, hjobs, htimeout, hreportDir, -⟩ := Mapping.config_eq_ok.1 h
  refine ⟨?_, ?_, ?_, ?_, ?_⟩
  · exact Mapping.of_settingOf (P := Json.IsTexts) hdirs ⟨[], rfl⟩ fun _ _ => isTexts_of_toTexts
  · exact Mapping.of_settingOf (P := Json.IsText) hreportDir ⟨_, rfl⟩ fun _ _ => isText_of_toText
  · exact Mapping.of_settingOf (P := Json.IsInteger) hjobs ⟨_, rfl⟩ fun _ _ => isInteger_of_toInteger
  · exact Mapping.of_settingOf (P := Json.IsTexts) hcommand ⟨["eslint"], rfl⟩ fun _ _ => isTexts_of_toTexts
  · refine Mapping.of_settingOf (P := Json.IsReal) htimeout ⟨_, rfl⟩ fun v _ hv => ?_
    obtain ⟨x, hx, -⟩ := exists_of_toReal hv
    exact ⟨x, hx⟩

/-- A timeout that is loaded is in the one form of real numbers, unless it is given as one that is not. -/
theorem isCanonical_of_config (h : m.config = .ok c)
    (hgiven : ∀ x, m.get? "eslint_timeout" = some (.real x) → x.IsCanonical) : c.eslintTimeout.IsCanonicalReal := by
  obtain ⟨-, -, -, -, htimeout, -⟩ := Mapping.config_eq_ok.1 h
  have hdefault : Json.IsCanonicalReal (.real (.ofInt 300)) := ⟨_, rfl, Binary64.isCanonical_ofRatio _ _ one_ne_zero⟩
  refine Mapping.of_settingOf (P := Json.IsCanonicalReal) htimeout hdefault fun v hget hv => ?_
  obtain ⟨x, hx, hform⟩ := exists_of_toReal hv
  refine ⟨x, hx, ?_⟩
  by_cases hreal : v = .real x
  · exact hgiven x (hreal ▸ hget)
  · exact hform hreal

theorem config_toMapping (h : c.InForm) (hcheck : c.check = .ok ()) {v : Json}
    (hv : toReal (.ofJson v) = .ok c.eslintTimeout) :
    { c with eslintTimeout := v }.toMapping.config = .ok c := by
  obtain ⟨⟨dirs, hdirs⟩, ⟨dir, hdir⟩, ⟨jobs, hjobs⟩, ⟨command, hcommand⟩, -⟩ := h
  refine Mapping.config_eq_ok.2 ⟨rfl, ?_, ?_, ?_, hv, ?_, hcheck⟩
  · rw [hdirs]
    exact toTexts_texts "extra_ignore_dirs" dirs
  · rw [hcommand]
    exact toTexts_texts "eslint_command" command
  · rw [hjobs]
    rfl
  · rw [hdir]
    rfl

/-- Loading leaves exactly the configurations in form that pass the checks as they are. -/
theorem config_toMapping_iff : c.toMapping.config = .ok c ↔ c.InForm ∧ c.check = .ok () := by
  refine ⟨fun h => ⟨inForm_of_config h, check_of_ofMapping h⟩, fun h => ?_⟩
  obtain ⟨hform, hcheck⟩ := h
  obtain ⟨x, hx⟩ := hform.eslintTimeout
  exact config_toMapping hform hcheck (by rw [hx]; rfl)

theorem config_shown (hform : c.InForm) (hcheck : c.check = .ok ()) {x : Binary64} (hx : c.eslintTimeout = .real x)
    (hcanonical : x.IsCanonical) : c.shown.config = .ok c := by
  refine config_toMapping hform hcheck ?_
  rw [hx]
  show toReal (.text x.text) = .ok (.real x)
  simp only [toReal, Numeral.readReal_text hcanonical]

/-- **Loading brings settings into form.** For every mapping: if it is loaded as a configuration, then the configuration
is in form and passes the checks, and loading its own settings gives it again, with the timeout as the number that it is
and, if it was given in the one form of such numbers, also as it is shown. A mapping with the same entries in any order
comes to the same, be it a configuration or a fault. And a mapping with a name that is no setting is refused, whatever
its values are: the fault names all such names, each once, in ascending order. -/
theorem loading_normalises (m : Mapping) :
    (∀ c, m.config = .ok c →
      c.InForm ∧ c.check = .ok () ∧ c.toMapping.config = .ok c ∧
        ((∀ x, m.get? "eslint_timeout" = some (.real x) → x.IsCanonical) → c.shown.config = .ok c)) ∧
    (∀ m' : Mapping, (∀ entry, entry ∈ m'.entries ↔ entry ∈ m.entries) → m'.config = m.config) ∧
    ∀ name ∈ m.names, name ∉ keys → ∃ names, m.config = .error (.unknownKeys names) ∧
      names.Pairwise (· < ·) ∧ ∀ other, other ∈ names ↔ other ∈ m.names ∧ other ∉ keys := by
  refine ⟨fun c h => ?_, fun m' h => ?_, fun name hname hunknown => ?_⟩
  · have hform := inForm_of_config h
    have hcheck : c.check = .ok () := check_of_ofMapping h
    refine ⟨hform, hcheck, config_toMapping_iff.2 ⟨hform, hcheck⟩, fun hgiven => ?_⟩
    obtain ⟨x, hx, hcanonical⟩ := isCanonical_of_config h hgiven
    exact config_shown hform hcheck hx hcanonical
  · have hperm : m'.entries.Perm m.entries :=
      (List.perm_ext_iff_of_nodup (List.Nodup.of_map _ m'.distinct) (List.Nodup.of_map _ m.distinct)).2 h
    exact Mapping.config_of_perm hperm
  · have hmem : ∀ other, other ∈ m.unknown ↔ other ∈ m.names ∧ other ∉ keys := by simp [Mapping.unknown]
    have hne : m.unknown ≠ [] := List.ne_nil_of_mem ((hmem name).2 ⟨hname, hunknown⟩)
    have hperm := sortBy_perm id m.unknown
    have hnodup : (sortBy id m.unknown).Nodup := hperm.nodup_iff.2 (m.distinct.filter _)
    refine ⟨_, Mapping.config_of_unknown hne, ?_, fun other => ?_⟩
    · exact (pairwise_le_sortBy id m.unknown).imp₂ (fun _ _ => lt_of_le_of_ne) hnodup
    · rw [hperm.mem_iff, hmem]

def looseValues : Mapping where
  entries := [("jobs", .string " 1_2 "), ("eslint_timeout", .real (.finite false 7205759403792794 (-56))),
    ("report_dir", .bool true), ("extra_ignore_dirs", .array [.null, .real .nan]),
    ("eslint_command", .string "npx  eslint")]
  distinct := by decide

def looseReversed : Mapping where
  entries := looseValues.entries.reverse
  distinct := by decide

def misspelt : Mapping where
  entries := [("jobs", .array []), ("colour", .null), ("report_dir", .string "/")]
  distinct := by decide

/-- A numeral with an underscore, a flag for a name and a command in one text are brought into form and stay so, with
the timeout given back as 0.1; and a stray name is what is reported of a mapping that has bad values, too. -/
theorem loading_normalises_looseValues :
    ∃ c, looseValues.config = .ok c ∧ c.jobs = .int 12 ∧ c.reportDir = .string "True" ∧
      c.extraIgnoreDirs = .array [.string "None", .string "nan"] ∧ c.eslintTimeout.display = "0.1" ∧
      c.InForm ∧ c.toMapping.config = .ok c ∧ c.shown.config = .ok c ∧ looseReversed.config = .ok c ∧
      ∃ names, misspelt.config = .error (.unknownKeys names) ∧ "colour" ∈ names := by
  have hloaded : looseValues.config = .ok
      { extraIgnoreDirs := .array [.string "None", .string "nan"], reportDir := .string "True", jobs := .int 12,
        eslintCommand := .array [.string "npx", .string "eslint"],
        eslintTimeout := .real (.finite false 7205759403792794 (-56)) } := rfl
  have hcanonical : ∀ x, looseValues.get? "eslint_timeout" = some (.real x) → x.IsCanonical := by
    intro x hx
    cases hx
    exact ⟨by decide, by decide, by decide, .inl (by decide)⟩
  obtain ⟨hform, -, hagain, hshown⟩ := (loading_normalises looseValues).1 _ hloaded
  obtain ⟨names, hnames, -, hmem⟩ := (loading_normalises misspelt).2.2 "colour" (by decide) (by decide)
  refine ⟨_, hloaded, rfl, rfl, rfl, rfl, hform, hagain, hshown hcanonical, ?_, names, hnames,
    (hmem _).2 ⟨by decide, by decide⟩⟩
  exact ((loading_normalises looseValues).2.1 looseReversed fun _ => List.mem_reverse).trans hloaded

end Config
end SourceAudit
