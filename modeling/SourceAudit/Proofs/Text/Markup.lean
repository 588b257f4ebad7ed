import Mathlib.Data.List.Basic
import SourceAudit.Text.Markup

/-!
# Text inside markup is inert

What a text does to the markup around it is told by two kinds of characters. *Delimiters* open and close elements and
quoted attributes; the `skeleton` of a text is what remains of it if only these are kept. An ampersand begins an entity.
A text that is written as markup text has an empty skeleton, and each of its ampersands begins an entity. A text inside
a script does not close the script's element.

Results:
* `skeleton_markup`: no delimiter is left in markup text.
* `begins_markup`: each ampersand of markup text begins an entity.
* `BeginsEntities.append`, `skeleton_append`: both views of a text are put together from those of its parts.
* `not_infix_scriptChars`: nothing in a script text begins to close an element.
-/
namespace SourceAudit.Text

/-! ## Delimiters -/

/-- Whether a character opens or closes an element or a quoted attribute. -/
def isDelimiter (c : Char) : Bool := c == '<' || c == '>' || c == '"' || c == '\''

/-- The delimiters of a text, in their order. -/
def skeleton (s : String) : List Char := s.toList.filter isDelimiter

@[simp] theorem skeleton_append (s t : String) : skeleton (s ++ t) = skeleton s ++ skeleton t := by
  simp [skeleton]

theorem skeleton_eq_nil {s : String} (h : ∀ c ∈ s.toList, isDelimiter c = false) : skeleton s = [] := by
  rw [skeleton, List.filter_eq_nil_iff]
  exact fun c hc => by simp [h c hc]

theorem filter_markupChar (c : Char) : (markupChar c).filter isDelimiter = [] := by
  unfold markupChar
  split
  case h_6 hamp hlt hgt hquote happ =>
    have hc : isDelimiter c = false := by
      simp only [isDelimiter, Bool.or_eq_false_iff, beq_eq_false_iff_ne]
      exact ⟨⟨⟨hlt, hgt⟩, hquote⟩, happ⟩
    rw [List.filter_cons_of_neg (by simp [hc]), List.filter_nil]
  all_goals rfl

/-- No delimiter is left in markup text. -/
@[simp] theorem skeleton_markup (s : String) : skeleton (markup s) = [] := by
  rw [skeleton, markup, String.toList_ofList, List.filter_flatMap]
  exact List.flatMap_eq_nil_iff.2 fun c _ => filter_markupChar c

theorem not_delimiter_of_isDigit {c : Char} (h : c.isDigit = true) : isDelimiter c = false := by
  by_contra hd
  simp only [isDelimiter, Bool.not_eq_false, Bool.or_eq_true, beq_iff_eq] at hd
  rcases hd with ((rfl | rfl) | rfl) | rfl <;> exact absurd h (by decide)

theorem isDigit_of_mem_toString {n : Nat} {c : Char} (h : c ∈ (toString n).toList) : c.isDigit = true := by
  rw [Nat.toString_eq_ofList_toDigits, String.toList_ofList] at h
  exact Nat.isDigit_of_mem_toDigits (by decide) (by decide) h

@[simp] theorem skeleton_toString (n : Nat) : skeleton (toString n) = [] :=
  skeleton_eq_nil fun _ h => not_delimiter_of_isDigit (isDigit_of_mem_toString h)

theorem skeleton_intercalate (lines : List String) : skeleton ("\n".intercalate lines) = lines.flatMap skeleton := by
  have hend : skeleton "\n" = [] := rfl
  induction lines with
  | nil => rw [String.intercalate_nil]; rfl
  | cons line rest ih =>
    cases rest with
    | nil => simp [String.intercalate_singleton]
    | cons next rest =>
      rw [String.intercalate_cons_cons, skeleton_append, skeleton_append, hend, ih, List.append_nil]
      rfl

/-! ## Entities -/

def entities : List String := ["&amp;", "&lt;", "&gt;", "&quot;", "&#x27;", "&middot;"]

def BeginsEntities (cs : List Char) : Prop :=
  ∀ before after, cs = before ++ '&' :: after → ∃ e ∈ entities, e.toList <+: '&' :: after

def beginsEntities : List Char → Bool
  | [] => true
  | c :: rest => (c != '&' || entities.any (·.toList.isPrefixOf (c :: rest))) && beginsEntities rest

theorem beginsEntities_iff (cs : List Char) : beginsEntities cs = true ↔ BeginsEntities cs := by
  induction cs with
  | nil => simp [beginsEntities, BeginsEntities]
  | cons c rest ih =>
    simp only [beginsEntities, Bool.and_eq_true, Bool.or_eq_true, bne_iff_ne, List.any_eq_true,
      List.isPrefixOf_iff_prefix, ih]
    constructor
    · rintro ⟨hfirst, hrest⟩ before after heq
      cases before with
      | nil =>
        obtain ⟨rfl, rfl⟩ := List.cons.inj heq
        exact hfirst.resolve_left (fun h => h rfl)
      | cons b before => exact hrest before after (List.cons.inj heq).2
    · intro h
      constructor
      · by_cases hc : c = '&'
        · exact .inr (hc ▸ h [] rest (by rw [hc]; rfl))
        · exact .inl hc
      · exact fun before after heq => h (c :: before) after (by rw [heq]; rfl)

namespace BeginsEntities

theorem of_not_mem {cs : List Char} (h : '&' ∉ cs) : BeginsEntities cs := by
  rintro before after rfl
  exact absurd (by simp) h

theorem append {cs ds : List Char} (hc : BeginsEntities cs) (hd : BeginsEntities ds) : BeginsEntities (cs ++ ds) := by
  intro before after h
  rcases List.append_eq_append_iff.1 h with ⟨more, rfl, hds⟩ | ⟨more, rfl, hafter⟩
  · exact hd more after hds
  · cases more with
    | nil => exact hd [] after (by simpa using hafter.symm)
    | cons c more =>
      -- The entity that the ampersand begins ends inside the first text.
      obtain ⟨rfl, rfl⟩ := List.cons.inj hafter
      obtain ⟨e, he, hprefix⟩ := hc before more rfl
      exact ⟨e, he, hprefix.trans (List.prefix_append ('&' :: more) ds)⟩

theorem ofList {cs : List Char} (h : beginsEntities cs = true) : BeginsEntities (String.ofList cs).toList := by
  rw [String.toList_ofList]
  exact (beginsEntities_iff cs).1 h

theorem flatMap {α : Type} {f : α → List Char} {xs : List α} (h : ∀ x ∈ xs, BeginsEntities (f x)) :
    BeginsEntities (xs.flatMap f) := by
  induction xs with
  | nil => exact of_not_mem List.not_mem_nil
  | cons x rest ih =>
    rw [List.flatMap_cons]
    exact (h x List.mem_cons_self).append (ih fun y hy => h y (List.mem_cons_of_mem _ hy))

theorem intercalate {lines : List String} (h : ∀ line ∈ lines, BeginsEntities line.toList) :
    BeginsEntities ("\n".intercalate lines).toList := by
  induction lines with
  | nil => rw [String.intercalate_nil]; exact .ofList rfl
  | cons line rest ih =>
    have hline := h line List.mem_cons_self
    cases rest with
    | nil => rwa [String.intercalate_singleton]
    | cons next rest =>
      rw [String.intercalate_cons_cons, String.toList_append, String.toList_append]
      exact (hline.append (.ofList rfl)).append (ih fun l hl => h l (List.mem_cons_of_mem _ hl))

end BeginsEntities

theorem begins_append {s t : String} (hs : BeginsEntities s.toList) (ht : BeginsEntities t.toList) :
    BeginsEntities (s ++ t).toList := by
  rw [String.toList_append]
  exact hs.append ht

theorem begins_markupChar (c : Char) : BeginsEntities (markupChar c) := by
  unfold markupChar
  split
  case h_6 hamp hlt hgt hquote happ =>
    refine .of_not_mem fun h => ?_
    rw [List.mem_singleton] at h
    exact hamp h.symm
  all_goals exact .ofList rfl

theorem begins_toString (n : Nat) : BeginsEntities (toString n).toList :=
  .of_not_mem fun h => absurd (isDigit_of_mem_toString h) (by decide)

/-- Each ampersand of markup text begins an entity. -/
theorem begins_markup (s : String) : BeginsEntities (markup s).toList := by
  rw [markup, String.toList_ofList]
  exact .flatMap fun c _ => begins_markupChar c

/-! ## Scripts -/

theorem head?_scriptChars (cs : List Char) : (scriptChars cs).head? = cs.head? := by
  fun_cases scriptChars cs <;> rfl

/-- Nothing in a script text begins to close an element. -/
theorem not_infix_scriptChars (cs : List Char) : ¬['<', '/'] <:+: scriptChars cs := by
  fun_induction scriptChars cs with
  | case1 rest ih => simpa [List.infix_cons_iff, List.cons_prefix_cons] using ih
  | case2 c rest hother ih =>
    rw [List.infix_cons_iff, List.cons_prefix_cons, not_or]
    refine ⟨?_, ih⟩
    -- The slash of a closing tag would have been the next character of the text itself.
    rintro ⟨rfl, hslash⟩
    have hhead := head?_scriptChars rest
    rw [List.singleton_prefix_iff_head?_eq_some.1 hslash] at hhead
    obtain ⟨more, hmore⟩ := List.head?_eq_some_iff.1 hhead.symm
    exact hother more rfl hmore
  | case3 => simp

theorem script_of_notMem {s : String} (h : '<' ∉ s.toList) : script s = s := by
  have hchars : scriptChars s.toList = s.toList := by
    generalize s.toList = cs at h
    induction cs with
    | nil => rfl
    | cons c rest ih =>
      obtain ⟨hc, hrest⟩ : '<' ≠ c ∧ '<' ∉ rest := by simpa using h
      rw [scriptChars, ih hrest]
      exact fun _ hlt => absurd hlt.symm hc
  rw [script, hchars, String.ofList_toList]

end SourceAudit.Text
