import SourceAudit.Json.Reader
import SourceAudit.Json.Writer
import SourceAudit.Proofs.Association
import SourceAudit.Proofs.Fallible

/-!
# JSON text is read back

Writing a value over several lines and reading the text gives the value again, whatever characters its strings hold and
however large its integers are. `Fits` says which values these are: those without floating-point numbers, in which the
names of each object differ. The reader is followed from the inside out: escapes, strings, integers, and last the
values, of which arrays and objects are read item by item.

Results:
* `readString_flatMap`: a string is read back, whatever its characters.
* `readNumber_toDigits`: an integer is read back, within the reader's limit.
* `readItems_pretty`, `readMembers_pretty`: items and members are read back if the values in them are.
* `read_pretty_retext`: a value that fits is read back, whatever type the reader keeps texts in.
-/
namespace SourceAudit.Json

/-! ## Strings -/

theorem hexValue?_digitChar : ∀ k < 16, hexValue? (Nat.digitChar k) = some k := by decide

theorem hexValue4?_hex4 {n : Nat} (h : n < 0x10000) :
    hexValue4? (Nat.digitChar (n / 0x1000 % 16)) (Nat.digitChar (n / 0x100 % 16)) (Nat.digitChar (n / 0x10 % 16))
      (Nat.digitChar (n % 16)) = some n := by
  have hdigit : ∀ k, hexValue? (Nat.digitChar (k % 16)) = some (k % 16) := fun k =>
    hexValue?_digitChar _ (Nat.mod_lt k (by decide))
  have hsum : ((n / 0x1000 % 16 * 16 + n / 0x100 % 16) * 16 + n / 0x10 % 16) * 16 + n % 16 = n := by omega
  simp only [hexValue4?, hdigit, Option.bind_eq_bind, Option.bind_some, hsum, Option.pure_def]

theorem toNat_cases (c : Char) : c.toNat < 0xD800 ∨ (0xDFFF < c.toNat ∧ c.toNat < 0x110000) := c.valid

theorem ofUnit_toNat (c : Char) : CodePoint.ofUnit c.toNat = .char c := by
  rw [CodePoint.ofUnit, if_pos (toNat_cases c), Char.ofNat_toNat]

theorem readString_letter {letter c : Char} (hu : letter ≠ 'u') (h : escaped? letter = some c) (start offset : Nat)
    (acc : List CodePoint) (rest : List Char) :
    readString start offset acc ('\\' :: letter :: rest) = readString start (offset + 2) (.char c :: acc) rest := by
  rw [readString.eq_5 _ _ _ _ _ (fun _ _ _ _ _ _ e _ => hu e), if_neg hu, h]

theorem readString_plain {c : Char} (hquote : c ≠ '"') (hback : c ≠ '\\') (hcontrol : 0x20 ≤ c.toNat)
    (start offset : Nat) (acc : List CodePoint) (rest : List Char) :
    readString start offset acc (c :: rest) = readString start (offset + 1) (.char c :: acc) rest := by
  rw [readString.eq_6 _ _ _ _ _ hquote (fun e => absurd e hback) (fun _ _ _ _ _ _ e => absurd e hback)
    (fun _ _ e => absurd e hback), if_neg (by omega)]

theorem readString_unicodeEscape {n : Nat} (h : n < 0x10000) (hsingle : ¬(0xD800 ≤ n ∧ n < 0xDC00))
    (start offset : Nat) (acc : List CodePoint) (next : Char) (rest : List Char) :
    readString start offset acc (unicodeEscape n ++ next :: rest) =
      readString start (offset + 6) (.ofUnit n :: acc) (next :: rest) := by
  simp only [unicodeEscape, hex4, List.map_cons, List.map_nil, List.cons_append, List.nil_append]
  rw [readString.eq_4, hexValue4?_hex4 h]
  simp only
  split
  · rw [if_neg hsingle]
  · rfl

theorem readString_pair {c : Char} (h : 0x10000 ≤ c.toNat) (start offset : Nat) (acc : List CodePoint) (next : Char)
    (rest : List Char) :
    readString start offset acc (unicodeEscape (0xD800 + (c.toNat - 0x10000) / 0x400) ++
        unicodeEscape (0xDC00 + (c.toNat - 0x10000) % 0x400) ++ next :: rest) =
      readString start (offset + 12) (.char c :: acc) (next :: rest) := by
  have hcode := toNat_cases c
  generalize hn : c.toNat - 0x10000 = n
  have hhigh : 0xD800 + n / 0x400 < 0x10000 := by omega
  have hlow : 0xDC00 + n % 0x400 < 0x10000 := by omega
  have hchar : 0x10000 + (0xD800 + n / 0x400 - 0xD800) * 0x400 + (0xDC00 + n % 0x400 - 0xDC00) = c.toNat := by omega
  simp only [unicodeEscape, hex4, List.map_cons, List.map_nil, List.cons_append, List.nil_append]
  rw [readString.eq_4, hexValue4?_hex4 hhigh]
  simp only [hexValue4?_hex4 hlow]
  rw [if_pos (by omega), if_pos (by omega), hchar, ofUnit_toNat]

/-- What is written for a character: an escape of one letter, the character itself, a unit or a pair. -/
theorem escapeChar_cases (c : Char) :
    (∃ letter, letter ≠ 'u' ∧ escaped? letter = some c ∧ escapeChar c = ['\\', letter]) ∨
      (c ≠ '"' ∧ c ≠ '\\' ∧ 0x20 ≤ c.toNat ∧ escapeChar c = [c]) ∨
      (c.toNat < 0x10000 ∧ escapeChar c = unicodeEscape c.toNat) ∨
      (0x10000 ≤ c.toNat ∧ escapeChar c = unicodeEscape (0xD800 + (c.toNat - 0x10000) / 0x400) ++
        unicodeEscape (0xDC00 + (c.toNat - 0x10000) % 0x400)) := by
  have hofNat : ∀ n, c.toNat = n → c = Char.ofNat n := fun n hn => by rw [← hn, Char.ofNat_toNat]
  by_cases hquote : c = '"'
  · exact .inl ⟨'"', by decide, by rw [hquote]; rfl, by rw [hquote]; rfl⟩
  by_cases hback : c = '\\'
  · exact .inl ⟨'\\', by decide, by rw [hback]; rfl, by rw [hback]; rfl⟩
  by_cases hline : c = '\n'
  · exact .inl ⟨'n', by decide, by rw [hline]; rfl, by rw [hline]; rfl⟩
  by_cases hreturn : c = '\r'
  · exact .inl ⟨'r', by decide, by rw [hreturn]; rfl, by rw [hreturn]; rfl⟩
  by_cases htab : c = '\t'
  · exact .inl ⟨'t', by decide, by rw [htab]; rfl, by rw [htab]; rfl⟩
  by_cases hbackspace : c.toNat = 0x08
  · exact .inl ⟨'b', by decide, by rw [hofNat _ hbackspace]; rfl, by rw [hofNat _ hbackspace]; rfl⟩
  by_cases hfeed : c.toNat = 0x0C
  · exact .inl ⟨'f', by decide, by rw [hofNat _ hfeed]; rfl, by rw [hofNat _ hfeed]; rfl⟩
  refine .inr ?_
  simp only [escapeChar, hquote, hback, hline, hreturn, htab, hbackspace, hfeed, if_false]
  split
  · next hplain => exact .inl ⟨hquote, hback, hplain.1, rfl⟩
  · split
    · next hunit => exact .inr (.inl ⟨hunit, rfl⟩)
    · next hunit => exact .inr (.inr ⟨by omega, rfl⟩)

theorem readString_escapeChar (c : Char) (start offset : Nat) (acc : List CodePoint) (next : Char) (rest : List Char) :
    ∃ o, readString start offset acc (escapeChar c ++ next :: rest) =
      readString start o (.char c :: acc) (next :: rest) := by
  rcases escapeChar_cases c with ⟨letter, hu, hletter, heq⟩ | ⟨hquote, hback, hplain, heq⟩ | ⟨hunit, heq⟩ | ⟨hpair, heq⟩
  · exact ⟨_, by rw [heq]; exact readString_letter hu hletter start offset acc (next :: rest)⟩
  · exact ⟨_, by rw [heq]; exact readString_plain hquote hback hplain start offset acc (next :: rest)⟩
  · have hcode := toNat_cases c
    exact ⟨offset + 6, by rw [heq, readString_unicodeEscape hunit (by omega), ofUnit_toNat]⟩
  · exact ⟨_, by rw [heq]; exact readString_pair hpair start offset acc next rest⟩

/-- A string is read back, whatever its characters. -/
theorem readString_flatMap (start offset : Nat) (acc : List CodePoint) (cs rest : List Char) :
    ∃ o, readString start offset acc (cs.flatMap escapeChar ++ '"' :: rest) =
      .ok (acc.reverse ++ cs.map .char, ⟨o, rest⟩) := by
  induction cs generalizing offset acc with
  | nil =>
    refine ⟨offset + 1, ?_⟩
    rw [List.flatMap_nil, List.nil_append, List.map_nil, List.append_nil, readString]
  | cons c cs ih =>
    -- There is always a next character: the quote at the end, if no other.
    obtain ⟨next, more, hmore⟩ : ∃ next more, cs.flatMap escapeChar ++ '"' :: rest = next :: more :=
      List.exists_cons_of_ne_nil (by simp)
    obtain ⟨o, hchar⟩ := readString_escapeChar c start offset acc next more
    obtain ⟨o', hrest⟩ := ih o (.char c :: acc)
    refine ⟨o', ?_⟩
    rw [List.flatMap_cons, List.append_assoc, hmore, hchar, ← hmore, hrest, List.reverse_cons, List.append_assoc,
      List.singleton_append, List.map_cons]

theorem ofCodePoints_chars (s : String) : JsonText.ofCodePoints (s.toList.map .char) = s := by
  show String.ofList ((s.toList.map CodePoint.char).map CodePoint.shown) = s
  rw [List.map_map]
  exact (congrArg String.ofList (List.map_id s.toList)).trans String.ofList_toList

/-! ## Integers -/

variable {τ : Type}

/-- What follows a number does not go on with it. -/
def Ends (rest : List Char) : Prop := ∀ c ∈ rest.head?, isDigit c = false ∧ c ≠ '.' ∧ c ≠ 'e' ∧ c ≠ 'E'

theorem isDigit_of_mem_toDigits {n : Nat} {c : Char} (h : c ∈ Nat.toDigits 10 n) : isDigit c = true := by
  have := Nat.isDigit_of_mem_toDigits (by decide) (by decide) h
  simpa [isDigit, Char.isDigit, Char.le_def] using this

theorem toDigits_eq_cons {n : Nat} (h : 0 < n) : ∃ c cs, Nat.toDigits 10 n = c :: cs ∧ c ≠ '0' := by
  induction n using Nat.strongRecOn with
  | ind n ih =>
    rw [Nat.toDigits_eq_if (by decide)]
    split
    · next hsmall =>
      have hnonzero : ∀ k < 10, 0 < k → Nat.digitChar k ≠ '0' := by decide
      exact ⟨_, [], rfl, hnonzero n hsmall h⟩
    · obtain ⟨c, cs, hcs, hc⟩ := ih (n / 10) (by omega) (by omega)
      exact ⟨c, cs ++ [(n % 10).digitChar], by rw [hcs]; rfl, hc⟩

theorem digitsValue_toDigits (n : Nat) : digitsValue (Nat.toDigits 10 n) = n := by
  rw [digitsValue, Numeral.valueOf, List.foldl_map]
  exact Nat.ofDigitChars_ten_toDigits

theorem span_digits {ds rest : List Char} (hds : ∀ c ∈ ds, isDigit c = true) (h : Ends rest) :
    (ds ++ rest).takeWhile isDigit = ds ∧ (ds ++ rest).dropWhile isDigit = rest := by
  rw [List.takeWhile_append_of_pos hds, List.dropWhile_append_of_pos hds]
  cases rest with
  | nil => simp
  | cons c rest => simp [(h c rfl).1]

theorem splitWhole_toDigits (n : Nat) {rest : List Char} (h : Ends rest) :
    splitWhole (Nat.toDigits 10 n ++ rest) = some (Nat.toDigits 10 n, rest) := by
  rcases Nat.eq_zero_or_pos n with rfl | hpos
  · rw [Nat.toDigits_zero]
    rfl
  · obtain ⟨c, cs, hcs, hc⟩ := toDigits_eq_cons hpos
    have hdigits : ∀ d ∈ c :: cs, isDigit d = true := fun d hd => isDigit_of_mem_toDigits (hcs ▸ hd)
    obtain ⟨htake, hdrop⟩ := span_digits (fun d hd => hdigits d (List.mem_cons_of_mem _ hd)) h
    rw [hcs, List.cons_append, splitWhole.eq_2 _ _ hc, if_pos (hdigits c List.mem_cons_self), htake, hdrop]

/-- An integer is read back, within the reader's limit. -/
theorem readNumber_toDigits {limit : Option Nat} {n : Nat} (hlimit : ∀ m ∈ limit, (Nat.toDigits 10 n).length ≤ m)
    (start : Nat) (negative : Bool) {rest : List Char} (h : Ends rest) :
    ∃ o, readNumber limit start negative (Nat.toDigits 10 n ++ rest) =
      .ok ((.int (if negative then -(n : Int) else n) : Json τ), ⟨o, rest⟩) := by
  have hfraction : splitFraction rest = none := by
    unfold splitFraction
    split
    · next c more => exact absurd rfl (h '.' rfl).2.1
    · rfl
  have hexponent : splitExponent rest = none := by
    cases rest with
    | nil => rfl
    | cons c more =>
      obtain ⟨-, -, hlower, hupper⟩ := h c rfl
      simp [splitExponent, hlower, hupper]
  have hany : limit.any ((Nat.toDigits 10 n).length > ·) = false := by
    cases limit with
    | none => rfl
    | some m => simpa using hlimit m rfl
  unfold readNumber
  simp only [splitWhole_toDigits n h, hfraction, hexponent, List.isEmpty_nil, if_true, hany, Bool.false_eq_true,
    if_false, digitsValue_toDigits]
  exact ⟨_, rfl⟩

theorem find?_words (τ : Type) {c : Char} (hc : isDigit c = true) (rest : List Char) :
    (words : List (List Char × Json τ)).find? (fun w => w.1.isPrefixOf (c :: rest)) = none ∧
      (words : List (List Char × Json τ)).find? (fun w => w.1.isPrefixOf ('-' :: c :: rest)) = none := by
  have hne : ∀ d, isDigit d = false → d ≠ c := by
    rintro d hd rfl
    exact absurd (hd.symm.trans hc) (by decide)
  have hnull := hne 'n' (by decide)
  have htrue := hne 't' (by decide)
  have hfalse := hne 'f' (by decide)
  have hnan := hne 'N' (by decide)
  have hinfinity := hne 'I' (by decide)
  have hminus := hne '-' (by decide)
  constructor <;> simp [words, List.isPrefixOf, hnull, htrue, hfalse, hnan, hinfinity, hminus]

theorem writeInt_eq_cons (i : Int) : ∃ c cs, writeInt i = c :: cs ∧ isSpace c = false ∧
    c ∉ ['"', '[', ']', '{', '\uFEFF'] := by
  obtain ⟨c, cs, hcs⟩ := List.exists_cons_of_ne_nil (Nat.toDigits_ne_nil (n := i.natAbs) (b := 10))
  have hc : isDigit c = true := isDigit_of_mem_toDigits (n := i.natAbs) (by rw [hcs]; exact List.mem_cons_self)
  rw [writeInt]
  split
  · exact ⟨'-', _, rfl, by decide⟩
  · refine ⟨c, cs, hcs, ?_, ?_⟩
    · cases hs : isSpace c with
      | false => rfl
      | true =>
        simp only [isSpace, Bool.or_eq_true, beq_iff_eq] at hs
        rcases hs with ((rfl | rfl) | rfl) | rfl <;> exact absurd hc (by decide)
    · intro hmem
      simp only [List.mem_cons, List.not_mem_nil, or_false] at hmem
      rcases hmem with rfl | rfl | rfl | rfl | rfl <;> exact absurd hc (by decide)

/-- What is written for an integer is read back. -/
theorem readScalar_writeInt {limit : Option Nat} {i : Int}
    (hlimit : ∀ m ∈ limit, (Nat.toDigits 10 i.natAbs).length ≤ m) (offset : Nat) {rest : List Char} (h : Ends rest) :
    ∃ o, readScalar limit ⟨offset, writeInt i ++ rest⟩ = .ok ((.int i : Json τ), ⟨o, rest⟩) := by
  obtain ⟨c, cs, hcs⟩ := List.exists_cons_of_ne_nil (Nat.toDigits_ne_nil (n := i.natAbs) (b := 10))
  have hc : isDigit c = true := isDigit_of_mem_toDigits (n := i.natAbs) (by rw [hcs]; exact List.mem_cons_self)
  obtain ⟨hword, hnegative⟩ := find?_words τ hc (cs ++ rest)
  unfold writeInt
  split
  · next hneg =>
    obtain ⟨o, hread⟩ := readNumber_toDigits hlimit offset true h
    refine ⟨o, ?_⟩
    have hvalue : -(i.natAbs : Int) = i := by omega
    rw [if_pos rfl, hvalue] at hread
    rw [hcs] at hread ⊢
    simp only [readScalar, List.cons_append, hnegative]
    exact hread
  · next hnonneg =>
    obtain ⟨o, hread⟩ := readNumber_toDigits hlimit offset false h
    refine ⟨o, ?_⟩
    have hvalue : (i.natAbs : Int) = i := by omega
    rw [if_neg Bool.false_ne_true, hvalue] at hread
    rw [hcs] at hread ⊢
    have hminus : c ≠ '-' := by
      rintro rfl
      exact absurd hc (by decide)
    simp only [readScalar, List.cons_append, hword]
    split
    · next heq => exact absurd (List.cons.inj heq).1 hminus
    · exact hread

/-! ## Values -/

/-- A value that can be read back: it holds no floating-point number, the names of each object differ, its integers have
at most `limit` digits, and arrays and objects are nested at most `depth` deep. -/
inductive Fits (limit : Option Nat) : (depth : Nat) → Json → Prop
  | null {depth : Nat} : Fits limit depth .null
  | bool {depth : Nat} (b : Bool) : Fits limit depth (.bool b)
  | int {depth : Nat} (i : Int) (digits : ∀ m ∈ limit, (Nat.toDigits 10 i.natAbs).length ≤ m) :
      Fits limit depth (.int i)
  | string {depth : Nat} (s : String) : Fits limit depth (.string s)
  | array {depth : Nat} {items : List Json} (values : ∀ v ∈ items, Fits limit depth v) :
      Fits limit (depth + 1) (.array items)
  | object {depth : Nat} {members : List (String × Json)} (names : (members.map (·.1)).Nodup)
      (values : ∀ m ∈ members, Fits limit depth m.2) : Fits limit (depth + 1) (.object members)

mutual
def integers : Json → List Int
  | .int n => [n]
  | .array items => integersOfItems items
  | .object members => integersOfMembers members
  | _ => []

def integersOfItems : List Json → List Int
  | [] => []
  | v :: rest => integers v ++ integersOfItems rest

def integersOfMembers : List (String × Json) → List Int
  | [] => []
  | (_, v) :: rest => integers v ++ integersOfMembers rest
end

theorem mem_integersOfItems {items : List Json} {v : Json} (hv : v ∈ items) {i : Int} (hi : i ∈ v.integers) :
    i ∈ integersOfItems items := by
  induction items with
  | nil => cases hv
  | cons w items ih =>
    rw [integersOfItems, List.mem_append]
    rcases List.mem_cons.1 hv with rfl | hv
    · exact .inl hi
    · exact .inr (ih hv)

theorem mem_integersOfMembers {members : List (String × Json)} {m : String × Json} (hm : m ∈ members) {i : Int}
    (hi : i ∈ m.2.integers) : i ∈ integersOfMembers members := by
  induction members with
  | nil => cases hm
  | cons first members ih =>
    rw [integersOfMembers, List.mem_append]
    rcases List.mem_cons.1 hm with rfl | hm
    · exact .inl hi
    · exact .inr (ih hm)

theorem Fits.within {limit : Option Nat} {depth : Nat} {v : Json} (h : Fits none depth v)
    (hdigits : ∀ i ∈ v.integers, ∀ m ∈ limit, (Nat.toDigits 10 i.natAbs).length ≤ m) : Fits limit depth v := by
  induction h with
  | null => exact .null
  | bool b => exact .bool b
  | int i _ => exact .int i (hdigits i List.mem_cons_self)
  | string s => exact .string s
  | array _ ih => exact .array fun v hv => ih v hv fun i hi => hdigits i (mem_integersOfItems hv hi)
  | object names _ ih => exact .object names fun m hm => ih m hm fun i hi => hdigits i (mem_integersOfMembers hm hi)

section

variable (τ) [JsonText τ]

mutual
/-- A value with texts of another type, as its own text is read with that type. -/
def retext : Json → Json τ
  | .null => .null
  | .bool b => .bool b
  | .int n => .int n
  | .real x => .real x
  | .string s => .string (JsonText.ofCodePoints (s.toList.map .char))
  | .array items => .array (retextItems items)
  | .object members => .object (retextMembers members)

def retextItems : List Json → List (Json τ)
  | [] => []
  | v :: rest => retext v :: retextItems rest

def retextMembers : List (String × Json) → List (String × Json τ)
  | [] => []
  | (name, v) :: rest => (name, retext v) :: retextMembers rest
end

theorem retextItems_eq_map (items : List Json) : retextItems τ items = items.map (retext τ) := by
  induction items with
  | nil => rfl
  | cons v rest ih => rw [retextItems, ih, List.map_cons]

theorem retextMembers_eq_map (members : List (String × Json)) :
    retextMembers τ members = members.map fun m => (m.1, m.2.retext τ) := by
  induction members with
  | nil => rfl
  | cons m rest ih => rw [retextMembers, ih, List.map_cons]

end

theorem retext_string {limit : Option Nat} {depth : Nat} {v : Json} (h : Fits limit depth v) : v.retext String = v := by
  induction h with
  | null | bool | int => rfl
  | string s => rw [retext, ofCodePoints_chars]
  | array values ih => rw [retext, retextItems_eq_map, List.map_congr_left ih, List.map_id']
  | object names values ih =>
    have hmembers := List.map_congr_left fun m hm => congrArg (Prod.mk m.1) (ih m hm)
    rw [retext, retextMembers_eq_map, hmembers, List.map_id']

variable [JsonText τ]

/-- A value is read back, with any text behind it that does not go on with it and enough fuel. -/
def ReadsBack (τ : Type) [JsonText τ] (limits : Limits) (depth : Nat) (v : Json) : Prop :=
  ∀ level fuel above offset rest, above + depth ≤ limits.depth → 2 * (prettyChars level v).length ≤ fuel → Ends rest →
    ∃ o, readValue limits fuel above ⟨offset, prettyChars level v ++ rest⟩ = .ok (v.retext τ, ⟨o, rest⟩)

theorem prettyChars_eq_cons {limits : Limits} {depth : Nat} {v : Json} (h : Fits limits.digits depth v) (level : Nat) :
    ∃ c cs, prettyChars level v = c :: cs ∧ isSpace c = false ∧ c ≠ ']' ∧ c ≠ '\uFEFF' := by
  cases h with
  | null => exact ⟨'n', _, rfl, by decide⟩
  | bool b => cases b <;> exact ⟨_, _, rfl, by decide⟩
  | string s => exact ⟨'"', _, rfl, by decide⟩
  | int i _ =>
    obtain ⟨c, cs, hcs, hspace, hother⟩ := writeInt_eq_cons i
    rw [prettyChars]
    exact ⟨c, cs, hcs, hspace, fun h => hother (by simp [h]), fun h => hother (by simp [h])⟩
  | @array _ items _ =>
    cases items with
    | nil => exact ⟨'[', _, prettyChars.eq_6 level, by decide⟩
    | cons v items => exact ⟨'[', _, prettyChars.eq_7 level v items, by decide⟩
  | @object _ members _ _ =>
    cases members with
    | nil => exact ⟨'{', _, prettyChars.eq_8 level, by decide⟩
    | cons m members => exact ⟨'{', _, prettyChars.eq_9 level m.1 m.2 members, by decide⟩

theorem skipSpace_append {spaces : List Char} (h : ∀ s ∈ spaces, isSpace s = true) {c : Char} (hc : isSpace c = false)
    (offset : Nat) (rest : List Char) : ∃ o, skipSpace offset (spaces ++ c :: rest) = ⟨o, c :: rest⟩ := by
  induction spaces generalizing offset with
  | nil => exact ⟨offset, by rw [List.nil_append, skipSpace, if_neg (by simp [hc])]⟩
  | cons s spaces ih =>
    obtain ⟨o, ho⟩ := ih (fun x hx => h x (List.mem_cons_of_mem _ hx)) (offset + 1)
    exact ⟨o, by rw [List.cons_append, skipSpace, if_pos (h s List.mem_cons_self), ho]⟩

theorem isSpace_of_mem_newline {level : Nat} {s : Char} (h : s ∈ newline level) : isSpace s = true := by
  rcases List.mem_cons.1 h with rfl | h
  · decide
  · rw [(List.mem_replicate.1 h).2]
    decide

theorem skipSpace_newline {c : Char} (hc : isSpace c = false) (offset level : Nat) (rest : List Char) :
    ∃ o, skipSpace offset (newline level ++ c :: rest) = ⟨o, c :: rest⟩ :=
  skipSpace_append (fun _ => isSpace_of_mem_newline) hc offset rest

theorem skipSpace_value {limits : Limits} {depth : Nat} {v : Json} (h : Fits limits.digits depth v) (offset level : Nat)
    (rest : List Char) :
    ∃ o, skipSpace offset (newline level ++ (prettyChars level v ++ rest)) = ⟨o, prettyChars level v ++ rest⟩ := by
  obtain ⟨c, cs, hv, hspace, -⟩ := prettyChars_eq_cons h level
  rw [hv]
  exact skipSpace_newline hspace offset level (cs ++ rest)

theorem head?_prettyChars {limits : Limits} {depth : Nat} {v : Json} (h : Fits limits.digits depth v) (level : Nat)
    (rest : List Char) : ∀ c ∈ (prettyChars level v ++ rest).head?, isSpace c = false := by
  obtain ⟨c, cs, hv, hspace, -⟩ := prettyChars_eq_cons h level
  rw [hv]
  intro d hd
  cases hd
  exact hspace

theorem skip_of_not_space {c : Char} (hc : isSpace c = false) (offset : Nat) (rest : List Char) :
    Cursor.skip ⟨offset, c :: rest⟩ = ⟨offset, c :: rest⟩ := by
  rw [Cursor.skip, skipSpace, if_neg (by simp [hc])]

theorem ends_cons {c : Char} (h : isDigit c = false ∧ c ≠ '.' ∧ c ≠ 'e' ∧ c ≠ 'E') (rest : List Char) :
    Ends (c :: rest) := by
  intro d hd
  cases hd
  exact h

theorem ends_prettyItems (level level' : Nat) (items : List Json) (rest : List Char) :
    Ends (prettyItems level items ++ (newline level' ++ rest)) := by
  cases items <;> exact ends_cons (by decide) _

theorem ends_prettyMembers (level level' : Nat) (members : List (String × Json)) (rest : List Char) :
    Ends (prettyMembers level members ++ (newline level' ++ rest)) := by
  cases members with
  | nil => exact ends_cons (by decide) _
  | cons m members => exact ends_cons (by decide) _

section

variable {limits : Limits} {fuel depth : Nat} {v : Json τ} {o : Nat}

theorem readItems_last {c : Cursor} {level : Nat} {tail : List Char}
    (h : readValue limits fuel depth c = .ok (v, ⟨o, newline level ++ ']' :: tail⟩)) (acc : List (Json τ)) :
    ∃ o', readItems limits (fuel + 1) depth acc c = .ok (.array (acc.reverse ++ [v]), ⟨o', tail⟩) := by
  obtain ⟨o', hskip⟩ := skipSpace_newline (c := ']') (by decide) o level tail
  refine ⟨o' + 1, ?_⟩
  rw [readItems, h]
  simp only [bind, Except.bind, Cursor.skip, hskip, List.reverse_cons]

theorem readItems_next {c : Cursor} {rest : List Char} (h : readValue limits fuel depth c = .ok (v, ⟨o, ',' :: rest⟩))
    (acc : List (Json τ)) :
    readItems limits (fuel + 1) depth acc c = readItems limits fuel depth (v :: acc) (skipSpace (o + 1) rest) := by
  have hskip := skip_of_not_space (c := ',') (by decide) o rest
  rw [readItems, h]
  simp only [bind, Except.bind, hskip]

theorem readMembers_value (name : String) {text rest : List Char} (hspace : ∀ c ∈ text.head?, isSpace c = false)
    (h : ∀ offset, ∃ o, readValue limits fuel depth ⟨offset, text⟩ = .ok (v, ⟨o, rest⟩))
    (offset : Nat) (acc : List (String × Json τ)) :
    ∃ o, readMembers limits (fuel + 1) depth acc ⟨offset, writeString name ++ ':' :: ' ' :: text⟩ =
      match (skipSpace o rest).rest with
      | '}' :: rest' => .ok (.object (Association.set name v acc), ⟨(skipSpace o rest).offset + 1, rest'⟩)
      | ',' :: rest' =>
        readMembers limits fuel depth (Association.set name v acc) (skipSpace ((skipSpace o rest).offset + 1) rest')
      | _ => .error (.at .expectedComma (skipSpace o rest).offset) := by
  obtain ⟨o, hname⟩ := readString_flatMap offset (offset + 1) [] name.toList (':' :: ' ' :: text)
  have hcolon := skip_of_not_space (c := ':') (by decide) o (' ' :: text)
  have hblank : skipSpace (o + 1) (' ' :: text) = ⟨o + 2, text⟩ := by
    cases text with
    | nil => rfl
    | cons c cs => rw [skipSpace, if_pos (by decide), skipSpace, if_neg (by simp [hspace c rfl])]
  obtain ⟨o', hv⟩ := h (o + 2)
  refine ⟨o', ?_⟩
  rw [readMembers, writeString]
  simp only [List.cons_append, List.append_assoc, List.nil_append, hname, bind, Except.bind, hcolon, hblank, hv,
    List.reverse_nil, ofCodePoints_chars]
  rfl

end

theorem fresh_of_nodup {names rest : List String} {name : String} (h : (names ++ name :: rest).Nodup) :
    name ∉ names :=
  fun hmem => (List.nodup_append.1 h).2.2 name hmem name List.mem_cons_self rfl

/-- The items of an array are read back if the values in them are. -/
theorem readItems_pretty {limits : Limits} {depth : Nat} {items : List Json} {v : Json}
    (hfits : ∀ x ∈ v :: items, Fits limits.digits depth x) (h : ∀ x ∈ v :: items, ReadsBack τ limits depth x)
    (level level' above : Nat) (habove : above + depth ≤ limits.depth) (tail : List Char) :
    ∀ fuel offset acc, 2 * ((prettyChars level v).length + (prettyItems level items).length) < fuel →
      ∃ o, readItems limits fuel above acc ⟨offset, prettyChars level v ++ (prettyItems level items ++
          (newline level' ++ ']' :: tail))⟩ =
        .ok (.array (acc.reverse ++ (v :: items).map (retext τ)), ⟨o, tail⟩) := by
  induction items generalizing v with
  | nil =>
    intro fuel offset acc hfuel
    obtain ⟨fuel, rfl⟩ : ∃ f, fuel = f + 1 := ⟨fuel - 1, by omega⟩
    obtain ⟨o, hv⟩ := h v List.mem_cons_self level fuel above offset _ habove (by omega)
      (ends_prettyItems level level' [] (']' :: tail))
    exact readItems_last hv acc
  | cons w items ih =>
    intro fuel offset acc hfuel
    obtain ⟨fuel, rfl⟩ : ∃ f, fuel = f + 1 := ⟨fuel - 1, by omega⟩
    have hlength : (prettyItems level (w :: items)).length =
        (newline level).length + ((prettyChars level w).length + (prettyItems level items).length) + 1 := by
      rw [prettyItems, List.length_cons, List.length_append, List.length_append]
    obtain ⟨o, hv⟩ := h v List.mem_cons_self level fuel above offset _ habove (by omega)
      (ends_prettyItems level level' (w :: items) (']' :: tail))
    obtain ⟨o', hskip⟩ := skipSpace_value (hfits w (by simp)) (o + 1) level
      (prettyItems level items ++ (newline level' ++ ']' :: tail))
    obtain ⟨o'', hrest⟩ := ih (fun x hx => hfits x (List.mem_cons_of_mem _ hx))
      (fun x hx => h x (List.mem_cons_of_mem _ hx)) fuel o' (v.retext τ :: acc) (by omega)
    refine ⟨o'', ?_⟩
    simp only [prettyItems, List.cons_append, List.append_assoc] at hv ⊢
    rw [readItems_next hv, hskip, hrest, List.reverse_cons, List.append_assoc, List.cons_append, List.nil_append]
    rfl

/-- The members of an object are read back if the values in them are. -/
theorem readMembers_pretty {limits : Limits} {depth : Nat} {members : List (String × Json)} {name : String}
    {v : Json} (hfits : ∀ x ∈ (name, v) :: members, Fits limits.digits depth x.2)
    (h : ∀ x ∈ (name, v) :: members, ReadsBack τ limits depth x.2)
    (level level' above : Nat) (habove : above + depth ≤ limits.depth) (tail : List Char) :
    ∀ fuel offset acc, (acc.map (·.1) ++ name :: members.map (·.1)).Nodup →
      2 * ((prettyChars level v).length + (prettyMembers level members).length) < fuel →
      ∃ o, readMembers limits fuel above acc ⟨offset, writeString name ++ ':' :: ' ' :: (prettyChars level v ++
          (prettyMembers level members ++ (newline level' ++ '}' :: tail)))⟩ =
        .ok (.object (acc ++ ((name, v) :: members).map fun m => (m.1, m.2.retext τ)), ⟨o, tail⟩) := by
  induction members generalizing name v with
  | nil =>
    intro fuel offset acc hnodup hfuel
    obtain ⟨fuel, rfl⟩ : ∃ f, fuel = f + 1 := ⟨fuel - 1, by omega⟩
    have hset : Association.set name (v.retext τ) acc = acc ++ [(name, v.retext τ)] :=
      Association.set_of_fresh (fresh_of_nodup hnodup)
    obtain ⟨o, hread⟩ := readMembers_value name
      (head?_prettyChars (hfits _ List.mem_cons_self) level (prettyMembers level [] ++ (newline level' ++ '}' :: tail)))
      (fun o => h _ List.mem_cons_self level fuel above o _ habove (by dsimp only; omega)
        (ends_prettyMembers level level' [] ('}' :: tail))) offset acc
    obtain ⟨o', hskip⟩ := skipSpace_newline (c := '}') (by decide) o level' tail
    refine ⟨o' + 1, ?_⟩
    rw [hread]
    simp only [prettyMembers, List.nil_append, hskip, hset, List.map_cons, List.map_nil]
  | cons m members ih =>
    intro fuel offset acc hnodup hfuel
    obtain ⟨fuel, rfl⟩ : ∃ f, fuel = f + 1 := ⟨fuel - 1, by omega⟩
    have hset : Association.set name (v.retext τ) acc = acc ++ [(name, v.retext τ)] :=
      Association.set_of_fresh (fresh_of_nodup hnodup)
    have hlength : (prettyMembers level (m :: members)).length = (newline level).length + ((writeString m.1).length +
        ((prettyChars level m.2).length + (prettyMembers level members).length + 2)) + 1 := by
      rw [prettyMembers]
      simp only [List.length_cons, List.length_append]
    obtain ⟨o, hread⟩ := readMembers_value name
      (head?_prettyChars (hfits _ List.mem_cons_self) level
        (prettyMembers level (m :: members) ++ (newline level' ++ '}' :: tail)))
      (fun o => h _ List.mem_cons_self level fuel above o _ habove (by dsimp only; omega)
        (ends_prettyMembers level level' (m :: members) ('}' :: tail))) offset acc
    have hcomma := fun rest => skip_of_not_space (c := ',') (by decide) o rest
    obtain ⟨o', hskip⟩ := skipSpace_newline (c := '"') (by decide) (o + 1) level
      (m.1.toList.flatMap escapeChar ++ '"' :: ':' :: ' ' :: (prettyChars level m.2 ++
        (prettyMembers level members ++ (newline level' ++ '}' :: tail))))
    obtain ⟨o'', hrest⟩ := ih (fun x hx => hfits x (List.mem_cons_of_mem _ hx))
      (fun x hx => h x (List.mem_cons_of_mem _ hx)) fuel o' (acc ++ [(name, v.retext τ)]) (by simpa using hnodup)
      (by omega)
    refine ⟨o'', ?_⟩
    rw [hread]
    simp only [prettyMembers, writeString, List.cons_append, List.append_assoc, List.nil_append] at hrest ⊢
    simp only [Cursor.skip] at hcomma
    simp only [hcomma, hset, hskip, hrest, List.map_cons]

theorem readValue_scalar {limits : Limits} {fuel depth offset : Nat} {c : Char} {cs : List Char}
    (h : c ∉ ['"', '[', '{']) :
    (readValue limits (fuel + 1) depth ⟨offset, c :: cs⟩ : Except Stop (Json τ × Cursor)) =
      readScalar limits.digits ⟨offset, c :: cs⟩ := by
  rw [readValue]
  split
  · next heq => cases heq; exact absurd h (by decide)
  · next heq => cases heq; exact absurd h (by decide)
  · next heq => cases heq; exact absurd h (by decide)
  · rfl

theorem readsBack_scalar {limits : Limits} {depth : Nat} {v : Json} {c : Char} {cs : List Char}
    (hwrite : ∀ level, prettyChars level v = c :: cs) (hc : c ∉ ['"', '[', '{'])
    (h : ∀ offset rest, Ends rest →
      ∃ o, readScalar limits.digits ⟨offset, c :: cs ++ rest⟩ = .ok (v.retext τ, ⟨o, rest⟩)) :
    ReadsBack τ limits depth v := by
  intro level fuel above offset rest _ hfuel hends
  rw [hwrite, List.length_cons] at hfuel
  obtain ⟨fuel, rfl⟩ : ∃ f, fuel = f + 1 := ⟨fuel - 1, by omega⟩
  obtain ⟨o, ho⟩ := h offset rest hends
  refine ⟨o, ?_⟩
  rw [hwrite, List.cons_append, readValue_scalar hc]
  exact ho

theorem readsBack_int {limits : Limits} {depth : Nat} {i : Int}
    (digits : ∀ m ∈ limits.digits, (Nat.toDigits 10 i.natAbs).length ≤ m) : ReadsBack τ limits depth (.int i) := by
  obtain ⟨c, cs, hcs, -, hother⟩ := writeInt_eq_cons i
  refine readsBack_scalar (fun level => by rw [prettyChars, hcs]) (fun hmem => hother ?_) fun offset rest hends => ?_
  · have hsubset : ['"', '[', '{'] ⊆ ['"', '[', ']', '{', '\uFEFF'] := by simp
    exact hsubset hmem
  · rw [← hcs]
    exact readScalar_writeInt digits offset hends

theorem readsBack_string {limits : Limits} {depth : Nat} (s : String) : ReadsBack τ limits depth (.string s) := by
  intro level fuel above offset rest _ hfuel _
  obtain ⟨o, ho⟩ := readString_flatMap offset (offset + 1) [] s.toList rest
  rw [prettyChars, writeString, List.length_cons] at hfuel
  obtain ⟨fuel, rfl⟩ : ∃ f, fuel = f + 1 := ⟨fuel - 1, by omega⟩
  refine ⟨o, ?_⟩
  rw [readValue, prettyChars, writeString]
  simp only [List.cons_append, List.append_assoc, List.nil_append, ho, bind, Except.bind, pure, Except.pure,
    List.reverse_nil, retext]

/-- An array is read back if its items are. -/
theorem readsBack_array {limits : Limits} {depth : Nat} {items : List Json}
    (hfits : ∀ v ∈ items, Fits limits.digits depth v) (h : ∀ v ∈ items, ReadsBack τ limits depth v) :
    ReadsBack τ limits (depth + 1) (.array items) := by
  intro level fuel above offset rest habove hfuel _
  cases items with
  | nil =>
    rw [prettyChars] at hfuel
    obtain ⟨fuel, rfl⟩ : ∃ f, fuel = f + 1 := ⟨fuel - 1, by simp at hfuel; omega⟩
    refine ⟨offset + 1 + 1, ?_⟩
    rw [readValue, prettyChars]
    simp only [List.cons_append, List.nil_append]
    rw [if_neg (by omega)]
    rfl
  | cons v items =>
    have hlength : (prettyChars level (.array (v :: items))).length = (newline (level + 1)).length +
        ((prettyChars (level + 1) v).length + (prettyItems (level + 1) items).length) + (newline level).length + 2 := by
      rw [prettyChars]
      simp only [List.length_cons, List.length_append, List.length_nil]
      omega
    obtain ⟨fuel, rfl⟩ : ∃ f, fuel = f + 1 := ⟨fuel - 1, by omega⟩
    obtain ⟨o, hskip⟩ := skipSpace_value (hfits v List.mem_cons_self) (offset + 1) (level + 1)
      (prettyItems (level + 1) items ++ (newline level ++ ']' :: rest))
    obtain ⟨o', hitems⟩ := readItems_pretty hfits h (level + 1) level (above + 1) (by omega) rest fuel o [] (by omega)
    refine ⟨o', ?_⟩
    obtain ⟨c, cs, hv, -, hbracket, -⟩ := prettyChars_eq_cons (hfits v List.mem_cons_self) (level + 1)
    rw [readValue, prettyChars]
    simp only [List.cons_append, List.append_assoc, List.nil_append]
    rw [if_neg (by omega)]
    simp only [hskip]
    split
    · next heq =>
      rw [hv] at heq
      exact absurd (List.cons.inj heq).1 hbracket
    · rw [hitems, retext, retextItems_eq_map]
      rfl

/-- An object is read back if the values of its members are. -/
theorem readsBack_object {limits : Limits} {depth : Nat} {members : List (String × Json)}
    (names : (members.map (·.1)).Nodup) (hfits : ∀ m ∈ members, Fits limits.digits depth m.2)
    (h : ∀ m ∈ members, ReadsBack τ limits depth m.2) : ReadsBack τ limits (depth + 1) (.object members) := by
  intro level fuel above offset rest habove hfuel _
  cases members with
  | nil =>
    rw [prettyChars] at hfuel
    obtain ⟨fuel, rfl⟩ : ∃ f, fuel = f + 1 := ⟨fuel - 1, by simp at hfuel; omega⟩
    refine ⟨offset + 1 + 1, ?_⟩
    rw [readValue, prettyChars]
    simp only [List.cons_append, List.nil_append]
    rw [if_neg (by omega)]
    rfl
  | cons m members =>
    have hlength : (prettyChars level (.object (m :: members))).length = (newline (level + 1)).length +
        ((writeString m.1).length +
          ((prettyChars (level + 1) m.2).length + (prettyMembers (level + 1) members).length + 2)) +
        (newline level).length + 2 := by
      rw [prettyChars]
      simp only [List.length_cons, List.length_append, List.length_nil]
      omega
    obtain ⟨fuel, rfl⟩ : ∃ f, fuel = f + 1 := ⟨fuel - 1, by omega⟩
    obtain ⟨o, hskip⟩ := skipSpace_newline (c := '"') (by decide) (offset + 1) (level + 1)
      (m.1.toList.flatMap escapeChar ++ '"' :: ':' :: ' ' :: (prettyChars (level + 1) m.2 ++
        (prettyMembers (level + 1) members ++ (newline level ++ '}' :: rest))))
    obtain ⟨o', hmembers⟩ := readMembers_pretty hfits h (level + 1) level (above + 1) (by omega) rest fuel o [] names
      (by omega)
    refine ⟨o', ?_⟩
    rw [readValue, prettyChars]
    simp only [writeString, List.cons_append, List.append_assoc, List.nil_append] at hmembers ⊢
    rw [if_neg (by omega)]
    simp only [hskip, hmembers]
    rw [retext, retextMembers_eq_map]
    rfl

theorem readsBack_of_fits {limits : Limits} {depth : Nat} {v : Json} (h : Fits limits.digits depth v) :
    ReadsBack τ limits depth v := by
  induction h with
  | null => exact readsBack_scalar (fun _ => rfl) (by decide) fun offset rest _ => ⟨offset + 4, rfl⟩
  | bool b =>
    cases b with
    | true => exact readsBack_scalar (fun _ => rfl) (by decide) fun offset rest _ => ⟨offset + 4, rfl⟩
    | false => exact readsBack_scalar (fun _ => rfl) (by decide) fun offset rest _ => ⟨offset + 5, rfl⟩
  | int i digits => exact readsBack_int digits
  | string s => exact readsBack_string s
  | array values ih => exact readsBack_array values ih
  | object names values ih => exact readsBack_object names values ih

/-- A value that fits is read back from its text, with texts of any type. -/
theorem read_pretty_retext (τ : Type) [JsonText τ] {limits : Limits} {depth : Nat} {v : Json}
    (h : Fits limits.digits depth v) (hdepth : depth ≤ limits.depth) : read v.pretty limits = .ok (v.retext τ) := by
  have hback : ReadsBack τ limits depth v := readsBack_of_fits h
  obtain ⟨o, hv⟩ := hback 0 (2 * (prettyChars 0 v).length + 2) 0 0 [] (by omega) (by omega)
    (fun c hc => by cases hc)
  obtain ⟨c, cs, hcs, hspace, -, hmark⟩ := prettyChars_eq_cons h 0
  have hskip : skipSpace 0 (prettyChars 0 v) = ⟨0, prettyChars 0 v⟩ := by
    rw [hcs]
    exact skip_of_not_space hspace 0 cs
  have htext : readText limits (prettyChars 0 v) = .ok (v.retext τ) := by
    rw [List.append_nil] at hv
    unfold readText
    split
    · next heq =>
      rw [hcs] at heq
      exact absurd (List.cons.inj heq).1 hmark
    · rw [hskip, hv]
      rfl
  rw [read, pretty, String.toList_ofList, htext]

theorem read_pretty {limits : Limits} {depth : Nat} {v : Json} (h : Fits limits.digits depth v)
    (hdepth : depth ≤ limits.depth) : read v.pretty limits = .ok v := by
  rw [read_pretty_retext String h hdepth, retext_string h]

end SourceAudit.Json
