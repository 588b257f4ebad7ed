import Mathlib.Data.List.TakeDrop
import Mathlib.Data.List.TakeWhile
import SourceAudit.FileFilter
import SourceAudit.Proofs.Association
import SourceAudit.Proofs.Path
import SourceAudit.Proofs.Text.Lowercase

/-!
# Extensions of file names

What the extension of a file is, is asked twice. A filter lowers the name and takes what follows the last dot, unless
only dots precede it. The language of a file takes what follows the last dot, unless nothing precedes it, and lowers
that. Lowering looks at the letters around a letter, so the two could differ in more than the dots; for the extensions
that matter here, which are plain, they do not.

Results:
* `Path.splitLastDot?_eq_some`: the last dot of a name parts it in one way.
* `extensionOf_lower_eq_iff`, `Path.lower_suffix_eq_iff`: both notions of an extension, said of the name as it is.
* `FileFilter.selects_iff`: the files that a filter without keywords selects.
* `Language.ofPath?_eq_some_iff`: the files of a language.
-/
namespace SourceAudit

/-! ## The last dot of a name -/

namespace Path

/-- The last dot of a name parts it in one way. -/
theorem splitLastDot?_eq_some {name front body : List Char} :
    splitLastDot? name = some (front, body) ↔ name = front ++ '.' :: body ∧ '.' ∉ body := by
  unfold splitLastDot?
  rw [List.span_eq_takeWhile_dropWhile]
  constructor
  · intro h
    have hparts : name.reverse.takeWhile (· != '.') ++ name.reverse.dropWhile (· != '.') = name.reverse :=
      List.takeWhile_append_dropWhile
    cases hdrop : name.reverse.dropWhile (· != '.') with
    | nil =>
      rw [hdrop] at h
      cases h
    | cons dot before =>
      rw [hdrop] at h hparts
      obtain ⟨rfl, rfl⟩ : before.reverse = front ∧ (name.reverse.takeWhile (· != '.')).reverse = body := by
        simpa using h
      have hdot : dot = '.' := by
        have hhead := List.head_dropWhile_not (· != '.') (l := name.reverse) (by simp [hdrop])
        simpa [hdrop] using hhead
      constructor
      · have hname := congrArg List.reverse hparts
        simpa [hdot] using hname.symm
      · intro hmem
        have hnot := List.mem_takeWhile_imp (List.mem_reverse.1 hmem)
        simp at hnot
  · intro h
    obtain ⟨rfl, hbody⟩ := h
    have hnot : ∀ c ∈ body.reverse, (c != '.') = true := by
      intro c hc
      rw [bne_iff_ne]
      rintro rfl
      exact hbody (List.mem_reverse.1 hc)
    have hreverse : (front ++ '.' :: body).reverse = body.reverse ++ '.' :: front.reverse := by simp
    rw [hreverse, List.takeWhile_append_of_pos hnot, List.dropWhile_append_of_pos hnot]
    simp

theorem splitLastDot?_eq_none {name : List Char} : splitLastDot? name = none ↔ '.' ∉ name := by
  constructor
  · intro h
    unfold splitLastDot? at h
    rw [List.span_eq_takeWhile_dropWhile] at h
    cases hdrop : name.reverse.dropWhile (· != '.') with
    | nil =>
      intro hmem
      have hnot := List.dropWhile_eq_nil_iff.1 hdrop '.' (List.mem_reverse.2 hmem)
      simp at hnot
    | cons dot before =>
      rw [hdrop] at h
      cases h
  · intro h
    rw [Option.eq_none_iff_forall_ne_some]
    intro parts hparts
    obtain ⟨hname, -⟩ := splitLastDot?_eq_some.1 hparts
    exact h (by simp [hname])

theorem splitLastDot?_of_lowers {name lowered : List Char} (h : Text.Lowers name lowered) :
    (splitLastDot? name = none ∧ splitLastDot? lowered = none) ∨
      ∃ front body front' body', splitLastDot? name = some (front, body) ∧
        splitLastDot? lowered = some (front', body') ∧ Text.Lowers front front' ∧ Text.Lowers body body' := by
  cases hsplit : splitLastDot? name with
  | none =>
    refine .inl ⟨rfl, ?_⟩
    rw [splitLastDot?_eq_none] at hsplit ⊢
    rwa [h.mem_dot]
  | some parts =>
    obtain ⟨front, body⟩ := parts
    obtain ⟨rfl, hbody⟩ := splitLastDot?_eq_some.1 hsplit
    obtain ⟨front', body', rfl, hfront, hlowered⟩ := h.split
    refine .inr ⟨front, body, front', body', rfl, splitLastDot?_eq_some.2 ⟨rfl, ?_⟩, hfront, hlowered⟩
    rwa [hlowered.mem_dot]

end Path

/-! ## Plain extensions -/

/-- Whether a text is an extension of plain characters: a dot and at least one more of them. -/
def isPlainExtension (e : String) : Bool :=
  match e.toList with
  | '.' :: c :: body => (c :: body).all Text.isPlain
  | _ => false

theorem exists_of_isPlainExtension {e : String} (he : isPlainExtension e = true) :
    ∃ body, e.toList = '.' :: body ∧ body ≠ [] ∧ ∀ d ∈ body, Text.isPlain d = true := by
  unfold isPlainExtension at he
  split at he
  · next c body heq => exact ⟨c :: body, heq, List.cons_ne_nil _ _, List.all_eq_true.1 he⟩
  · cases he

/-- The name of a file bears an extension behind some beginning, in any case of ASCII letters. -/
def Bears (name front : List Char) (e : String) : Prop :=
  ∃ body, name = front ++ '.' :: body ∧ '.' ∉ body ∧ '.' :: body.map Char.toLower = e.toList

variable {name front body : List Char} {e : String}

theorem bears_iff (h : Path.splitLastDot? name = some (front, body)) {front' : List Char} :
    Bears name front' e ↔ front' = front ∧ '.' :: body.map Char.toLower = e.toList := by
  constructor
  · intro hbears
    obtain ⟨body', hname, hbody, he⟩ := hbears
    have hparts := Path.splitLastDot?_eq_some.2 ⟨hname, hbody⟩
    obtain ⟨rfl, rfl⟩ : front' = front ∧ body' = body := by simpa [h, eq_comm] using hparts
    exact ⟨rfl, he⟩
  · intro hparts
    obtain ⟨rfl, he⟩ := hparts
    obtain ⟨hname, hbody⟩ := Path.splitLastDot?_eq_some.1 h
    exact ⟨body, hname, hbody, he⟩

theorem not_bears (h : Path.splitLastDot? name = none) : ¬ Bears name front e := by
  intro hbears
  obtain ⟨body, hname, -⟩ := hbears
  exact Path.splitLastDot?_eq_none.1 h (by simp [hname])

/-- The extension that a filter sees in a name: what follows the last dot, if not only dots precede it. -/
theorem extensionOf_lower_eq_iff (he : isPlainExtension e = true) (name : String) :
    extensionOf (Text.lower name) = e ↔ ∃ front, Bears name.toList front e ∧ ∃ c ∈ front, c ≠ '.' := by
  obtain ⟨word, hword, -, hplain⟩ := exists_of_isPlainExtension he
  have hempty : "" ≠ e := by
    rintro rfl
    cases hword
  unfold extensionOf
  rcases Path.splitLastDot?_of_lowers (Text.lowers_lower name) with
    ⟨hnone, hnone'⟩ | ⟨front, body, front', body', hsplit, hsplit', hfront, hbody⟩
  · rw [hnone']
    refine iff_of_false hempty ?_
    rintro ⟨front, hbears, -⟩
    exact not_bears hnone hbears
  · simp only [hsplit', hfront.all_dots, bears_iff hsplit]
    cases hdots : front.all (· == '.') with
    | true =>
      refine iff_of_false hempty ?_
      rintro ⟨_, ⟨rfl, -⟩, c, hc, hne⟩
      exact hne (eq_of_beq (List.all_eq_true.1 hdots c hc))
    | false =>
      obtain ⟨c, hc, hne⟩ := List.all_eq_false.1 hdots
      have hsame : String.ofList ('.' :: body') = e ↔ '.' :: body.map Char.toLower = e.toList := by
        rw [← String.toList_inj, String.toList_ofList, hword, List.cons_inj_right, List.cons_inj_right,
          hbody.eq_iff hplain]
      rw [if_neg Bool.false_ne_true, hsame]
      constructor
      · intro h
        exact ⟨front, ⟨rfl, h⟩, c, hc, by simpa using hne⟩
      · intro h
        obtain ⟨_, ⟨_, h⟩, _⟩ := h
        exact h

/-- The extension that tells the language of a file: what follows the last dot, if anything precedes it. -/
theorem Path.lower_suffix_eq_iff (he : isPlainExtension e = true) (p : Path) :
    Text.lower p.suffix = e ↔ ∃ front, Bears p.fileName.toList front e ∧ front ≠ [] := by
  obtain ⟨word, hword, hne, hplain⟩ := exists_of_isPlainExtension he
  have hempty : Text.lower "" ≠ e := by
    rintro rfl
    cases hword
  unfold suffix
  cases hsplit : splitLastDot? p.fileName.toList with
  | none =>
    refine iff_of_false hempty ?_
    rintro ⟨front, hbears, -⟩
    exact not_bears hsplit hbears
  | some parts =>
    obtain ⟨front, body⟩ := parts
    simp only [bears_iff hsplit, Bool.or_eq_true, List.isEmpty_iff]
    by_cases hnothing : front = [] ∨ body = []
    · rw [if_pos hnothing]
      refine iff_of_false hempty ?_
      rintro ⟨_, ⟨rfl, h⟩, hfront⟩
      -- An extension is more than a dot.
      rw [hnothing.resolve_left hfront, hword] at h
      exact hne (List.cons.inj h).2.symm
    · rw [if_neg hnothing]
      have hlower : Text.lower (String.ofList ('.' :: body)) = e ↔ '.' :: body.map Char.toLower = e.toList := by
        have hlowers := Text.lowers_lower (String.ofList ('.' :: body))
        rw [String.toList_ofList] at hlowers
        rw [← String.toList_inj, hword]
        exact hlowers.eq_iff (List.forall_mem_cons.2 ⟨by decide, hplain⟩)
      rw [hlower]
      constructor
      · intro h
        exact ⟨front, ⟨rfl, h⟩, fun hfront => hnothing (.inl hfront)⟩
      · intro h
        obtain ⟨_, ⟨_, h⟩, _⟩ := h
        exact h

/-! ## Filters and languages -/

/-- A filter without keywords selects the files whose names bear one of its extensions behind more than dots. -/
theorem FileFilter.selects_iff {f : FileFilter} (hkeywords : f.keywords = [])
    (hplain : ∀ e ∈ f.extensions, isPlainExtension e = true) {relative : String} :
    f.selects relative = true ↔
      ∃ e ∈ f.extensions, ∃ front, Bears (baseName relative).toList front e ∧ ∃ c ∈ front, c ≠ '.' := by
  have hselects : f.selects relative = f.extensions.contains (extensionOf (Text.lower (baseName relative))) := by
    unfold selects
    simp only [hkeywords, List.any_nil]
    split
    · next h => exact h.symm
    · next h => rw [Bool.eq_false_iff.2 h, ite_self]
  rw [hselects, List.contains_iff_mem]
  constructor
  · intro h
    exact ⟨_, h, (extensionOf_lower_eq_iff (hplain _ h) _).1 rfl⟩
  · intro h
    obtain ⟨e, he, hbears⟩ := h
    rwa [(extensionOf_lower_eq_iff (hplain e he) _).2 hbears]

namespace Language

theorem isPlainExtension_of_mem {l : Language} (h : (e, l) ∈ extensions) : isPlainExtension e = true := by
  have hall : extensions.all (fun x => isPlainExtension x.1) = true := rfl
  exact List.all_eq_true.1 hall (e, l) h

/-- A file is of a language if its name bears an extension of the language behind anything. -/
theorem ofPath?_eq_some_iff {p : Path} {l : Language} :
    ofPath? p = some l ↔ ∃ e, (e, l) ∈ extensions ∧ ∃ front, Bears p.fileName.toList front e ∧ front ≠ [] := by
  have hnodup : (extensions.map (·.1)).Nodup := by decide
  unfold ofPath?
  rw [Association.lookup_eq_some_iff_mem hnodup]
  constructor
  · intro h
    exact ⟨_, h, (Path.lower_suffix_eq_iff (isPlainExtension_of_mem h) p).1 rfl⟩
  · intro h
    obtain ⟨e, he, hbears⟩ := h
    rwa [(Path.lower_suffix_eq_iff (isPlainExtension_of_mem he) p).2 hbears]

end Language

/-! ## The name of a file in its path -/

theorem baseName_slash (a s : String) : baseName (a ++ "/" ++ s) = baseName s := by
  have hreverse : (a ++ "/" ++ s).toList.reverse = s.toList.reverse ++ '/' :: a.toList.reverse := by simp
  unfold baseName
  rw [hreverse, List.takeWhile_append]
  split
  · next hall =>
    have hself := (List.takeWhile_prefix (· != '/')).eq_of_length hall
    rw [hself, List.takeWhile_cons_of_neg (by decide), List.append_nil]
  · rfl

theorem baseName_intercalate {names : List String} (hne : names ≠ []) (h : ∀ n ∈ names, isFileName n = true) :
    baseName ("/".intercalate names) = names.getLast hne := by
  induction names with
  | nil => exact absurd rfl hne
  | cons n rest ih =>
    obtain ⟨hn, hrest⟩ := List.forall_mem_cons.1 h
    cases rest with
    | nil =>
      obtain ⟨-, -, -, hslash, -⟩ := isFileName_iff.1 hn
      have hall : ∀ c ∈ n.toList.reverse, (c != '/') = true := by
        intro c hc
        rw [bne_iff_ne]
        rintro rfl
        exact hslash (List.mem_reverse.1 hc)
      rw [String.intercalate_singleton, baseName, List.takeWhile_eq_self_iff.2 hall]
      simp
    | cons m rest =>
      rw [String.intercalate_cons_cons, baseName_slash, ih (List.cons_ne_nil _ _) hrest]
      rfl

end SourceAudit
