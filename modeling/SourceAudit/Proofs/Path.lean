import Mathlib.Data.List.Basic
import SourceAudit.Language

/-!
# Names and paths

The name of a file holds no slash, no zero character, and is neither empty nor a dot or two. Names joined by
slashes therefore come apart again, so that a file is known by its path below the root of a tree, and its language
as well.

Results:
* `Path.ofString_intercalate`: names joined by slashes are read back as they were.
* `Path.intercalate_inj`: different names give different texts.
* `Path.ofString_toString`: the text of an absolute path is read back as the path.
* `Language.ofPath?_relative`: the language of a file is that of its path below any directory above it.
-/
namespace SourceAudit

/-- Whether a text can be the name of a file. -/
def isFileName (s : String) : Bool :=
  s != "" && s != "." && s != ".." && !s.toList.contains '/' && !s.toList.contains (Char.ofNat 0)

theorem isFileName_iff {s : String} :
    isFileName s = true ↔ s ≠ "" ∧ s ≠ "." ∧ s ≠ ".." ∧ '/' ∉ s.toList ∧ Char.ofNat 0 ∉ s.toList := by
  simp [isFileName, and_assoc]

namespace Path

/-- Where a name leads to from a place, if there are no links. -/
def step (place : List String) (name : String) : List String :=
  if name = ".." then place.dropLast else place ++ [name]

theorem splitSlashes_cons {c : Char} {cs part : List Char} {rest : List (List Char)}
    (h : splitSlashes cs = part :: rest) :
    splitSlashes (c :: cs) = if c = '/' then [] :: part :: rest else (c :: part) :: rest := by
  unfold splitSlashes splitAt at h ⊢
  rw [List.foldr_cons, h]

theorem splitSlashes_eq (cs : List Char) : splitSlashes cs = cs.splitOn '/' := by
  induction cs with
  | nil => rfl
  | cons c cs ih =>
    simp only [List.splitOn_eq_splitOnP, List.splitOnP_cons_eq_if_modifyHead] at ih ⊢
    cases h : List.splitOnP (· == '/') cs with
    | nil => exact absurd h (List.splitOnP_ne_nil _ _)
    | cons part rest =>
      rw [splitSlashes_cons (ih.trans h)]
      by_cases hc : c = '/' <;> simp [hc]

/-- Names joined by slashes are read back as they were. -/
theorem ofString_intercalate {names : List String} (hne : names ≠ []) (h : ∀ n ∈ names, isFileName n = true) :
    (ofString ("/".intercalate names)).names = names := by
  have hchars : ("/".intercalate names).toList = ['/'].intercalate (names.map String.toList) := by
    rw [String.toList_intercalate]
    rfl
  have hslash : ∀ l ∈ names.map String.toList, '/' ∉ l := by
    intro l hl
    obtain ⟨n, hn, rfl⟩ := List.mem_map.1 hl
    exact (isFileName_iff.1 (h n hn)).2.2.2.1
  unfold ofString
  simp only
  rw [splitSlashes_eq, hchars, List.splitOn_intercalate '/' hslash (by simpa using hne), List.map_map]
  have hid : names.map (String.ofList ∘ String.toList) = names := by
    simp [Function.comp_def]
  rw [hid, List.filter_eq_self]
  intro n hn
  obtain ⟨h1, h2, -⟩ := isFileName_iff.1 (h n hn)
  simp [h1, h2]

/-- Different names give different texts. -/
theorem intercalate_inj {names names' : List String} (hne : names ≠ []) (hne' : names' ≠ [])
    (h : ∀ n ∈ names, isFileName n = true) (h' : ∀ n ∈ names', isFileName n = true)
    (e : "/".intercalate names = "/".intercalate names') : names = names' := by
  rw [← ofString_intercalate hne h, e, ofString_intercalate hne' h']

theorem intercalate_ne_empty {names : List String} (hne : names ≠ []) (h : ∀ n ∈ names, isFileName n = true) :
    "/".intercalate names ≠ "" := by
  intro e
  have hnil : ("/".intercalate names) = "/".intercalate [] := by rw [e, String.intercalate_nil]
  have hread := ofString_intercalate hne h
  rw [hnil] at hread
  exact hne (hread.symm.trans (by decide +kernel))

theorem names_ofString_slash (s : String) : (ofString ("/" ++ s)).names = (ofString s).names := by
  have hsplit : splitSlashes ('/' :: s.toList) = [] :: splitSlashes s.toList := by
    have hne : splitSlashes s.toList ≠ [] := by
      rw [splitSlashes_eq, List.splitOn_eq_splitOnP]
      exact List.splitOnP_ne_nil _ _
    obtain ⟨part, rest, hparts⟩ := List.exists_cons_of_ne_nil hne
    rw [splitSlashes_cons hparts, if_pos rfl, hparts]
  unfold ofString
  simp only [String.toList_append]
  change ((splitSlashes ('/' :: s.toList)).map String.ofList).filter _ = _
  rw [hsplit, List.map_cons, List.filter_cons_of_neg (by decide)]

theorem map_steps (s : String) : (steps (splitSlashes s.toList)).map (·.1) = (ofString s).names := by
  unfold ofString
  simp only
  induction splitSlashes s.toList with
  | nil => rfl
  | cons part rest ih =>
    rw [steps, List.map_cons, List.filter_cons]
    by_cases hskip : part = [] ∨ part = ['.']
    · rw [if_pos hskip, ih]
      rcases hskip with rfl | rfl <;> rfl
    · have hname : (String.ofList part != "" && String.ofList part != ".") = true := by
        simpa [String.ext_iff, not_or] using hskip
      rw [if_neg hskip, if_pos hname, List.map_cons, ih]

theorem codePointsOf_of_notMem {cs : List Char} (h : '/' ∉ cs) : codePointsOf cs = cs.map .char := by
  induction cs with
  | nil => rfl
  | cons c rest ih =>
    obtain ⟨hc, hrest⟩ : '/' ≠ c ∧ '/' ∉ rest := by simpa using h
    rw [codePointsOf, ih hrest, List.map_cons]
    exact fun _ _ hslash => absurd hslash.symm hc
theorem head?_intercalate {names : List String} (h : ∀ n ∈ names, isFileName n = true) :
    ∀ c ∈ ("/".intercalate names).toList.head?, c ≠ '/' := by
  cases names with
  | nil => simp
  | cons n rest =>
    obtain ⟨hne, -, -, hslash, -⟩ := isFileName_iff.1 (h n List.mem_cons_self)
    obtain ⟨c, cs, hcs⟩ := List.exists_cons_of_ne_nil (mt String.toList_eq_nil_iff.1 hne)
    have hhead : ("/".intercalate (n :: rest)).toList.head? = some c := by
      cases rest with
      | nil => simp [hcs]
      | cons m rest => simp [String.intercalate_cons_cons, hcs]
    rintro _ hc rfl
    rw [hhead] at hc
    cases hc
    exact hslash (by rw [hcs]; exact List.mem_cons_self)

theorem rootOf_slash {cs : List Char} (h : ∀ c ∈ cs.head?, c ≠ '/') : rootOf ('/' :: cs) = "/" := by
  unfold rootOf
  split
  · next heq => exact absurd rfl (h '/' (by rw [(List.cons.inj heq).2]; rfl))
  · next heq => exact absurd rfl (h '/' (by rw [(List.cons.inj heq).2]; rfl))
  · rfl
  · next hne => exact absurd rfl (hne cs)

/-- The text of an absolute path is read back as the path. -/
theorem ofString_toString {names : List String} (h : ∀ n ∈ names, isFileName n = true) :
    ofString (toString ⟨"/", names⟩) = ⟨"/", names⟩ := by
  have hroot : (ofString ("/" ++ "/".intercalate names)).root = "/" := by
    unfold ofString
    simp only [String.toList_append]
    exact rootOf_slash (head?_intercalate h)
  have hnames : (ofString ("/" ++ "/".intercalate names)).names = names := by
    rw [names_ofString_slash]
    cases names with
    | nil => decide +kernel
    | cons n rest => exact ofString_intercalate (List.cons_ne_nil _ _) h
  exact congrArg₂ Path.mk hroot hnames

end Path

/-- The language of a file is that of its path below any directory above it. -/
theorem Language.ofPath?_relative (root : String) (above : List String) {names : List String} (hne : names ≠ [])
    (h : ∀ n ∈ names, isFileName n = true) :
    ofPath? (.ofString ("/".intercalate names)) = ofPath? ⟨root, above ++ names⟩ := by
  have hlast : (above ++ names).getLast? = names.getLast? := by
    rw [List.getLast?_append, List.getLast?_eq_some_getLast hne, Option.some_or]
  unfold ofPath? Path.suffix Path.fileName
  rw [Path.ofString_intercalate hne h, hlast]

end SourceAudit
