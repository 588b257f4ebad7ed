import SourceAudit.Proofs.Audit.Provenance
import SourceAudit.Proofs.Language

/-!
# Who judges a candidate

Files are selected by one notion of an extension and given to rules or to the linter by another. A file that is selected
and has no language would be looked at by nobody, and nothing would be said about it. This does not happen: what a
filter selects for an extension of some language is a file of that language. The other way round there are files of a
language that no filter selects, those whose names have nothing but dots in front of the last dot.

With a linter for JavaScript each candidate for sanitization is therefore judged, either by the linter or by rules for
its own language, and no candidate by both.

Results:
* `exists_language_of_selects`: a file that is selected for an extension of some language is a file of that language.
* `unselected_iff`: the files of some language that are not selected for any extension of a language.
* `Registry.assigns_of_language`: the languages that are left to the linter, and those that have rules.
* `selection_agrees_with_language`: selection and languages agree, and each candidate for sanitization is judged once.
-/
namespace SourceAudit

open Disk (Candidate)

variable {names : List String}

theorem fileName_intercalate (hne : names ≠ []) (h : ∀ n ∈ names, isFileName n = true) :
    (Path.ofString ("/".intercalate names)).fileName = names.getLast hne := by
  rw [Path.fileName, Path.ofString_intercalate hne h, List.getLast?_eq_some_getLast hne, Option.getD_some]

/-- A file that is selected for an extension of some language is a file of that language. -/
theorem exists_language_of_selects {f : FileFilter} (hkeywords : f.keywords = [])
    (hextensions : ∀ e ∈ f.extensions, ∃ l, (e, l) ∈ Language.extensions) (hne : names ≠ [])
    (h : ∀ n ∈ names, isFileName n = true) (hselects : f.selects ("/".intercalate names) = true) :
    ∃ e ∈ f.extensions, ∃ l, (e, l) ∈ Language.extensions ∧
      Language.ofPath? (.ofString ("/".intercalate names)) = some l := by
  have hplain : ∀ e ∈ f.extensions, isPlainExtension e = true := by
    intro e he
    obtain ⟨l, hl⟩ := hextensions e he
    exact Language.isPlainExtension_of_mem hl
  obtain ⟨e, he, front, hbears, c, hc, -⟩ := (FileFilter.selects_iff hkeywords hplain).1 hselects
  obtain ⟨l, hl⟩ := hextensions e he
  refine ⟨e, he, l, hl, Language.ofPath?_eq_some_iff.2 ⟨e, hl, front, ?_, List.ne_nil_of_mem hc⟩⟩
  rwa [fileName_intercalate hne h, ← baseName_intercalate hne h]

/-- The files of some language that are not selected for any extension of a language: their names are at least two dots
and what follows the dot of an extension. -/
theorem unselected_iff (hne : names ≠ []) (h : ∀ n ∈ names, isFileName n = true) :
    (∃ l, Language.ofPath? (.ofString ("/".intercalate names)) = some l) ∧
        FileFilter.selects { extensions := Language.extensions.map (·.1) } ("/".intercalate names) = false ↔
      ∃ dots body, 2 ≤ dots ∧ (names.getLast hne).toList = List.replicate dots '.' ++ body ∧ '.' ∉ body ∧
        ∃ e ∈ Language.extensions.map (·.1), e.toList = '.' :: body.map Char.toLower := by
  have hplain : ∀ e ∈ Language.extensions.map (·.1), isPlainExtension e = true := by
    intro e he
    obtain ⟨x, hx, rfl⟩ := List.mem_map.1 he
    exact Language.isPlainExtension_of_mem hx
  rw [← Bool.not_eq_true, FileFilter.selects_iff rfl hplain, baseName_intercalate hne h]
  simp only [Language.ofPath?_eq_some_iff, fileName_intercalate hne h]
  constructor
  · intro h
    obtain ⟨⟨l, e, he, front, hbears, hfront⟩, hunselected⟩ := h
    -- Whatever else is in front of the last dot would make the file a selected one.
    have hdots : ∀ c ∈ front, c = '.' := by
      intro c hc
      by_contra hother
      exact hunselected ⟨e, List.mem_map_of_mem he, front, hbears, c, hc, hother⟩
    obtain ⟨body, hname, hbody, hlower⟩ := hbears
    have hpos := List.length_pos_iff.2 hfront
    refine ⟨front.length + 1, body, by omega, ?_, hbody, e, List.mem_map_of_mem he, hlower.symm⟩
    rw [hname, List.replicate_succ', ← List.eq_replicate_of_mem hdots, List.append_assoc]
    rfl
  · intro h
    obtain ⟨dots, body, htwo, hname, hbody, e, he, hlower⟩ := h
    obtain ⟨x, hx, rfl⟩ := List.mem_map.1 he
    obtain ⟨n, rfl⟩ : ∃ n, dots = n + 1 := ⟨dots - 1, by omega⟩
    rw [List.replicate_succ', List.append_assoc] at hname
    have hsplit := Path.splitLastDot?_eq_some.2 ⟨hname, hbody⟩
    refine ⟨⟨x.2, x.1, hx, List.replicate n '.', (bears_iff hsplit).2 ⟨rfl, hlower.symm⟩, ?_⟩, ?_⟩
    · intro hnil
      have := congrArg List.length hnil
      simp at this
      omega
    · intro hselected
      obtain ⟨e', -, front, hbears, c, hc, hother⟩ := hselected
      obtain ⟨rfl, -⟩ := (bears_iff hsplit).1 hbears
      exact hother (List.eq_of_mem_replicate hc)

/-! ## Sanitization -/

/-- The files of a language are left to the linter, or there are rules for this language and no other; never both. -/
def Profile.Assigns (p : Profile) (language : Option Language) : Prop :=
  (p.delegates language = true ∧ p.rulesFor language = []) ∨
    (p.delegates language = false ∧ p.rulesFor language ≠ [] ∧
      ∃ l, language = some l ∧ ∀ r ∈ p.rulesFor language, r.languages = some [l])

namespace Registry

theorem delegates_iff {linter : Linter} (hlinter : linter.languages = [.javaScript]) (l : Language) :
    (profileOf (some linter) .sanitization).delegates (some l) = decide (l = .javaScript) := by
  simp [Profile.delegates, profileOf, Linter.handles, hlinter]

theorem assigns_of_rules {linter : Linter} (hlinter : linter.languages = [.javaScript]) {l : Language}
    (hl : l ≠ .javaScript) (checks : List LineCheck)
    (hrules : (profileOf (some linter) .sanitization).rulesFor (some l) = checks.map .line) (hne : checks ≠ [])
    (hscope : ∀ c ∈ checks, c.languages = some [l]) : (profileOf (some linter) .sanitization).Assigns (some l) := by
  refine .inr ⟨?_, ?_, l, rfl, ?_⟩
  · rw [delegates_iff hlinter, decide_eq_false hl]
  · rw [hrules]
    exact fun h => hne (List.map_eq_nil_iff.1 h)
  · rw [hrules, List.forall_mem_map]
    exact hscope

/-- With a linter for JavaScript each language has one judge in sanitization. -/
theorem assigns_of_language {linter : Linter} (hlinter : linter.languages = [.javaScript]) {e : String} {l : Language}
    (h : (e, l) ∈ Language.extensions) : (profileOf (some linter) .sanitization).Assigns (some l) := by
  have hall : ∀ x ∈ Language.extensions, x.2 ∈ [Language.javaScript, .python, .php, .java] := by decide
  have hl : l ∈ [Language.javaScript, .python, .php, .java] := hall (e, l) h
  simp only [List.mem_cons, List.not_mem_nil, or_false] at hl
  rcases hl with rfl | rfl | rfl | rfl
  · exact .inl ⟨delegates_iff hlinter _, rfl⟩
  · exact assigns_of_rules hlinter (by decide) Catalogue.Sanitization.pythonRules rfl (List.cons_ne_nil _ _) (by decide)
  · exact assigns_of_rules hlinter (by decide) Catalogue.Sanitization.phpRules rfl (List.cons_ne_nil _ _) (by decide)
  · exact assigns_of_rules hlinter (by decide) Catalogue.Sanitization.javaRules rfl (List.cons_ne_nil _ _) (by decide)

end Registry

/-- **Selection agrees with languages.** Let a relative path consist of names of files. If the filter for the extensions
of all languages selects it, it has a language. It has a language without being selected exactly if its last name is two
or more dots and then, in any case of ASCII letters, what follows the dot of an extension of some language, in which
there is no other dot. So with a linter for JavaScript every candidate for sanitization is left to the linter or has
rules of its own, all for its language, and never both. -/
theorem selection_agrees_with_language :
    (∀ (names : List String) (hne : names ≠ []), (∀ n ∈ names, isFileName n = true) →
      let relative := "/".intercalate names
      let filter : FileFilter := { extensions := Language.extensions.map (·.1) }
      (filter.selects relative = true → ∃ l, Language.ofPath? (.ofString relative) = some l) ∧
      ((∃ l, Language.ofPath? (.ofString relative) = some l) ∧ filter.selects relative = false ↔
        ∃ dots body, 2 ≤ dots ∧ (names.getLast hne).toList = List.replicate dots '.' ++ body ∧ '.' ∉ body ∧
          ∃ e ∈ Language.extensions.map (·.1), e.toList = '.' :: body.map Char.toLower)) ∧
    ∀ linter : Linter, linter.languages = [.javaScript] → ∀ d : Disk, d.root.isProper = true →
      let p := Registry.profileOf (some linter) .sanitization
      ∀ ignored root, ∀ c ∈ d.candidates ignored root p.filter, p.Assigns (Language.ofPath? c.path) := by
  constructor
  · intro names hne h
    refine ⟨fun hselects => ?_, unselected_iff hne h⟩
    have hextensions : ∀ e ∈ Language.extensions.map (·.1), ∃ l, (e, l) ∈ Language.extensions := by
      intro e he
      obtain ⟨x, hx, rfl⟩ := List.mem_map.1 he
      exact ⟨x.2, hx⟩
    obtain ⟨_, _, l, _, hl⟩ := exists_language_of_selects rfl hextensions hne h hselects
    exact ⟨l, hl⟩
  · intro linter hlinter d hp p ignored root c hc
    have hextensions : ∀ e ∈ p.filter.extensions, ∃ l, (e, l) ∈ Language.extensions := by
      have hall : ∀ e ∈ Registry.sanitizationExtensions, (Language.extensions.lookup e).isSome = true := by decide
      intro e he
      obtain ⟨l, hl⟩ := Option.isSome_iff_exists.1 (hall e he)
      exact ⟨l, Association.mem_of_lookup hl⟩
    have hselects : p.filter.selects c.relative = true := (List.mem_filter.1 hc).2
    have hrelative := Disk.language_relative hp hc
    obtain ⟨names, hne, hnames, rfl⟩ := Disk.mem_candidates hp hc
    obtain ⟨_, _, l, hmem, hl⟩ := exists_language_of_selects rfl hextensions hne hnames hselects
    rw [← hrelative, hl]
    exact Registry.assigns_of_language hlinter hmem

/-- A script whose name is all dots in front of the extension, and a tree with a script and a module. -/
theorem selection_agrees_with_language_dots :
    let filter : FileFilter := { extensions := Language.extensions.map (·.1) }
    let linter : Linter := { backend := ⟨"eslint", fun _ _ => ⟨.ok [], [], []⟩⟩ }
    let p := Registry.profileOf (some linter) .sanitization
    let d : Disk := { root := .dir [("r", .dir [("app.js", .file []), ("main.PY", .file [])])] }
    (∀ n ∈ ["src", "..JS"], isFileName n = true) ∧ linter.languages = [.javaScript] ∧ d.root.isProper = true ∧
    ((∃ l, Language.ofPath? (.ofString ("/".intercalate ["src", "..JS"])) = some l) ∧
      filter.selects ("/".intercalate ["src", "..JS"]) = false) ∧
    (d.candidates [] ⟨"/", ["r"]⟩ p.filter).map (·.relative) = ["app.js", "main.PY"] ∧
    ∀ c ∈ d.candidates [] ⟨"/", ["r"]⟩ p.filter, p.Assigns (Language.ofPath? c.path) := by
  intro filter linter p d
  have hnames : ∀ n ∈ ["src", "..JS"], isFileName n = true := by decide
  have hp : d.root.isProper = true := by decide +kernel
  obtain ⟨hagree, hassigned⟩ := selection_agrees_with_language
  obtain ⟨-, hunselected⟩ := hagree ["src", "..JS"] (List.cons_ne_nil _ _) hnames
  refine ⟨hnames, rfl, hp, hunselected.2 ?_, by decide +kernel, hassigned linter rfl d hp [] ⟨"/", ["r"]⟩⟩
  exact ⟨2, ['J', 'S'], Nat.le_refl 2, rfl, by decide, ".js", .head _, rfl⟩

end SourceAudit
