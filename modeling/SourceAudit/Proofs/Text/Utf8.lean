import Mathlib.Data.List.Basic
import SourceAudit.Text.Utf8

/-!
# Reading malformed UTF-8

Bytes that are no UTF-8 are read all the same, with U+FFFD in place of what is malformed. `Reads` says how, without a
machine. Where the bytes of a character begin, that character is read. Where none do, the reader is at a fault: it
passes over the longest piece that begins a character, or over a single byte if there is no such piece, and reads
U+FFFD. This fixes the text, and it is the text that the byte-wise reader gives.

A newline is never inside a character, nor inside a piece that begins one. So whatever stands in front of it, complete
or broken off, is read as if the bytes ended there.

Results:
* `reads_iff`: the byte-wise reader gives the one text that the bytes are read as.
* `reads_encoding`: the bytes of a text are read as that text.
* `Reads.append_newline`: bytes with a newline between them are read piece by piece.
* `Reads.count_newline`: a text has as many newlines as its bytes.
-/
namespace SourceAudit.Text.Utf8

/-! ## The bytes of a character -/

theorem encodeChar_eq (c : Char) : encodeChar c = String.utf8EncodeChar c := by
  have hlt : c.toNat < 0x110000 := by
    have hvalid : c.toNat.isValidChar := c.valid
    unfold Nat.isValidChar at hvalid
    omega
  have hbyte : ∀ {m n : Nat}, m = n → m.toUInt8 = UInt8.ofNat n := fun h => h ▸ rfl
  unfold encodeChar String.utf8EncodeChar
  simp only [show c.val.toNat = c.toNat from rfl]
  rcases (by omega : c.toNat < 0x80 ∨ 0x80 ≤ c.toNat ∧ c.toNat < 0x800 ∨ 0x800 ≤ c.toNat ∧ c.toNat < 0x10000 ∨
    0x10000 ≤ c.toNat) with h | h | h | h
  · rw [if_pos h, if_pos (by omega : c.toNat ≤ 127)]
  · rw [if_neg (by omega : ¬ c.toNat < 0x80), if_pos h.2, if_neg (by omega : ¬ c.toNat ≤ 127),
      if_pos (by omega : c.toNat ≤ 2047), hbyte (n := c.toNat / 64 % 32 + 192) (by omega),
      hbyte (n := c.toNat % 64 + 128) (by omega)]
  · rw [if_neg (by omega : ¬ c.toNat < 0x80), if_neg (by omega : ¬ c.toNat < 0x800), if_pos h.2,
      if_neg (by omega : ¬ c.toNat ≤ 127), if_neg (by omega : ¬ c.toNat ≤ 2047), if_pos (by omega : c.toNat ≤ 65535),
      hbyte (n := c.toNat / 4096 % 16 + 224) (by omega), hbyte (n := c.toNat / 64 % 64 + 128) (by omega),
      hbyte (n := c.toNat % 64 + 128) (by omega)]
  · rw [if_neg (by omega : ¬ c.toNat < 0x80), if_neg (by omega : ¬ c.toNat < 0x800),
      if_neg (by omega : ¬ c.toNat < 0x10000), if_neg (by omega : ¬ c.toNat ≤ 127),
      if_neg (by omega : ¬ c.toNat ≤ 2047), if_neg (by omega : ¬ c.toNat ≤ 65535),
      hbyte (n := c.toNat / 262144 % 8 + 240) (by omega), hbyte (n := c.toNat / 4096 % 64 + 128) (by omega),
      hbyte (n := c.toNat / 64 % 64 + 128) (by omega), hbyte (n := c.toNat % 64 + 128) (by omega)]

/-- A character has one to four bytes, by the size of its number. -/
theorem bytes_cases (c : Char) :
    (c.toNat < 0x80 ∧ ∃ a, String.utf8EncodeChar c = [a] ∧ a.toNat = c.toNat) ∨
    (0x80 ≤ c.toNat ∧ c.toNat < 0x800 ∧ ∃ a b, String.utf8EncodeChar c = [a, b] ∧
      a.toNat = 0xC0 + c.toNat / 0x40 ∧ b.toNat = 0x80 + c.toNat % 0x40) ∨
    (0x800 ≤ c.toNat ∧ c.toNat < 0x10000 ∧ (c.toNat < 0xD800 ∨ 0xDFFF < c.toNat) ∧
      ∃ a b e, String.utf8EncodeChar c = [a, b, e] ∧ a.toNat = 0xE0 + c.toNat / 0x1000 ∧
        b.toNat = 0x80 + c.toNat / 0x40 % 0x40 ∧ e.toNat = 0x80 + c.toNat % 0x40) ∨
    (0x10000 ≤ c.toNat ∧ c.toNat < 0x110000 ∧
      ∃ a b e f, String.utf8EncodeChar c = [a, b, e, f] ∧ a.toNat = 0xF0 + c.toNat / 0x40000 ∧
        b.toNat = 0x80 + c.toNat / 0x1000 % 0x40 ∧ e.toNat = 0x80 + c.toNat / 0x40 % 0x40 ∧
        f.toNat = 0x80 + c.toNat % 0x40) := by
  have hvalid : c.toNat.isValidChar := c.valid
  unfold Nat.isValidChar at hvalid
  have hbyte : ∀ {n : Nat}, n < 256 → (n.toUInt8).toNat = n := fun h => by
    rw [show ∀ n : Nat, n.toUInt8 = UInt8.ofNat n from fun _ => rfl, UInt8.toNat_ofNat']
    exact Nat.mod_eq_of_lt h
  rw [← encodeChar_eq]
  unfold encodeChar
  simp only
  split
  · exact .inl ⟨by omega, _, rfl, hbyte (by omega)⟩
  · split
    · exact .inr (.inl ⟨by omega, by omega, _, _, rfl, hbyte (by omega), hbyte (by omega)⟩)
    · split
      · exact .inr (.inr (.inl ⟨by omega, by omega, by omega, _, _, _, rfl, hbyte (by omega), hbyte (by omega),
          hbyte (by omega)⟩))
      · exact .inr (.inr (.inr ⟨by omega, by omega, _, _, _, _, rfl, hbyte (by omega), hbyte (by omega),
          hbyte (by omega), hbyte (by omega)⟩))

/-- No character begins with the bytes of another one. -/
theorem eq_of_bytes_append {c c' : Char} {rest rest' : List UInt8}
    (h : String.utf8EncodeChar c ++ rest = String.utf8EncodeChar c' ++ rest') : c = c' := by
  have hc := ByteArray.utf8DecodeChar?_utf8EncodeChar_append (b := rest.toByteArray) (c := c)
  have hc' := ByteArray.utf8DecodeChar?_utf8EncodeChar_append (b := rest'.toByteArray) (c := c')
  rw [← List.toByteArray_append, h, List.toByteArray_append, hc'] at hc
  exact (Option.some.inj hc).symm

theorem eq_newline_of_mem {c : Char} (h : 0x0A ∈ String.utf8EncodeChar c) : c = '\n' := by
  have hbyte : ∀ {a : UInt8}, 0x0A = a → a.toNat = 0x0A := fun h => h ▸ rfl
  have hchar : c.toNat = 0x0A → c = '\n' := fun h => Char.toNat_inj.1 h
  rcases bytes_cases c with ⟨-, a, hbytes, ha⟩ | ⟨hlow, hhigh, a, b, hbytes, ha, hb⟩ |
    ⟨hlow, hhigh, -, a, b, e, hbytes, ha, hb, he⟩ | ⟨hlow, hhigh, a, b, e, f, hbytes, ha, hb, he, hf⟩
  · rw [hbytes, List.mem_singleton] at h
    exact hchar (by have := hbyte h; omega)
  · rw [hbytes] at h
    simp only [List.mem_cons, List.not_mem_nil, or_false] at h
    rcases h with h | h <;> have := hbyte h <;> omega
  · rw [hbytes] at h
    simp only [List.mem_cons, List.not_mem_nil, or_false] at h
    rcases h with h | h | h <;> have := hbyte h <;> omega
  · rw [hbytes] at h
    simp only [List.mem_cons, List.not_mem_nil, or_false] at h
    rcases h with h | h | h | h <;> have := hbyte h <;> omega

theorem bytes_newline : String.utf8EncodeChar '\n' = [0x0A] := rfl

/-! ## How bytes are read -/

/-- What may be passed over as one fault: the beginning of a character, or a single byte. -/
def IsSubpart (piece : List UInt8) : Prop := piece.length = 1 ∨ ∃ c, piece <+: String.utf8EncodeChar c

/-- The longest piece at the beginning of some bytes that may be passed over as one fault. -/
structure IsMaximalSubpart (piece bytes : List UInt8) : Prop where
  nonempty : piece ≠ []
  isPrefix : piece <+: bytes
  isSubpart : IsSubpart piece
  longest : ∀ other, other <+: bytes → IsSubpart other → other.length ≤ piece.length

/-- Bytes are read as a text: a character where its bytes stand, and where no character's bytes stand, U+FFFD for the
longest piece that may be passed over. -/
inductive Reads : List UInt8 → List Char → Prop
  | done : Reads [] []
  | char (c : Char) {rest : List UInt8} {text : List Char} (next : Reads rest text) :
      Reads (String.utf8EncodeChar c ++ rest) (c :: text)
  | fault {piece rest : List UInt8} {text : List Char}
      (malformed : ∀ c, ¬ String.utf8EncodeChar c <+: piece ++ rest)
      (maximal : IsMaximalSubpart piece (piece ++ rest)) (next : Reads rest text) :
      Reads (piece ++ rest) ('�' :: text)

/-- The bytes of a text are read as that text. -/
theorem reads_encoding (cs : List Char) : Reads (cs.flatMap String.utf8EncodeChar) cs := by
  induction cs with
  | nil => exact .done
  | cons c rest ih => exact .char c ih

/-- Bytes are read as one text only. -/
theorem Reads.unique {bytes : List UInt8} {text text' : List Char} (h : Reads bytes text) (h' : Reads bytes text') :
    text = text' := by
  induction h generalizing text' with
  | done =>
    generalize hbytes : ([] : List UInt8) = bytes at h'
    cases h' with
    | done => rfl
    | char c next => exact absurd (List.append_eq_nil_iff.1 hbytes.symm).1 String.utf8EncodeChar_ne_nil
    | fault malformed maximal next => exact absurd (List.append_eq_nil_iff.1 hbytes.symm).1 maximal.nonempty
  | @char c rest text next ih =>
    generalize hbytes : String.utf8EncodeChar c ++ rest = bytes at h'
    cases h' with
    | done => exact absurd (List.append_eq_nil_iff.1 hbytes).1 String.utf8EncodeChar_ne_nil
    | char c' next' =>
      obtain rfl := eq_of_bytes_append hbytes
      rw [ih (List.append_cancel_left hbytes ▸ next')]
    | fault malformed maximal next' => exact absurd (hbytes ▸ List.prefix_append _ _) (malformed c)
  | @fault piece rest text malformed maximal next ih =>
    generalize hbytes : piece ++ rest = bytes at h'
    cases h' with
    | done => exact absurd (List.append_eq_nil_iff.1 hbytes).1 maximal.nonempty
    | char c' next' => exact absurd (hbytes ▸ List.prefix_append _ _) (malformed c')
    | @fault piece' rest' text' malformed' maximal' next' =>
      -- Each of the two pieces is the longest.
      have hle := maximal.longest piece' (hbytes ▸ maximal'.isPrefix) maximal'.isSubpart
      have hge := maximal'.longest piece (hbytes ▸ maximal.isPrefix) maximal.isSubpart
      obtain ⟨rfl, rfl⟩ := List.append_inj hbytes (by omega)
      rw [ih next']

/-- The longest piece at a fault is one that begins a character and that the next byte, if there is one, breaks off. -/
theorem Reads.fault_of_broken {piece rest : List UInt8} {text : List Char} (hne : piece ≠ []) (hsub : IsSubpart piece)
    (hpartial : ∀ c, ¬ String.utf8EncodeChar c <+: piece)
    (hbroken : ∀ b ∈ rest.head?, ∀ c, ¬ piece ++ [b] <+: String.utf8EncodeChar c) (next : Reads rest text) :
    Reads (piece ++ rest) ('�' :: text) := by
  -- What goes beyond the piece has the next byte in it.
  have hwithin : ∀ {other : List UInt8} {c : Char}, other <+: piece ++ rest → other <+: String.utf8EncodeChar c →
      other.length ≤ piece.length := by
    intro other c hother hc
    by_contra hlong
    cases rest with
    | nil =>
      have := hother.length_le
      simp only [List.append_nil] at this
      omega
    | cons b rest =>
      have hstep : piece ++ [b] <+: other :=
        List.prefix_of_prefix_length_le (⟨rest, by simp⟩ : piece ++ [b] <+: piece ++ b :: rest) hother
          (by simp only [List.length_append, List.length_cons, List.length_nil]; omega)
      exact hbroken b rfl c (hstep.trans hc)
  refine .fault (fun c hc => ?_) ⟨hne, List.prefix_append _ _, hsub, fun other hother hsub => ?_⟩ next
  · exact hpartial c
      (List.prefix_of_prefix_length_le hc (List.prefix_append _ _) (hwithin hc List.prefix_rfl))
  · rcases hsub with hone | ⟨c, hc⟩
    · have := List.length_pos_iff.2 hne
      omega
    · exact hwithin hother hc

/-! ## Newlines -/

theorem isPrefix_of_newline {bytes rest other : List UInt8} {c : Char} (hne : bytes ≠ [])
    (hother : other <+: bytes ++ 0x0A :: rest) (hc : other <+: String.utf8EncodeChar c) : other <+: bytes := by
  by_cases hlen : other.length ≤ bytes.length
  · exact List.prefix_of_prefix_length_le hother (List.prefix_append _ _) hlen
  · exfalso
    have hstep : bytes ++ [0x0A] <+: String.utf8EncodeChar c :=
      (List.prefix_of_prefix_length_le (⟨rest, by simp⟩ : bytes ++ [0x0A] <+: bytes ++ 0x0A :: rest) hother
        (by simp only [List.length_append, List.length_cons, List.length_nil]; omega)).trans hc
    have hnewline : c = '\n' := eq_newline_of_mem (hstep.subset (by simp))
    have hshort := hstep.length_le
    rw [hnewline, bytes_newline] at hshort
    have := List.length_pos_iff.2 hne
    simp only [List.length_append, List.length_cons, List.length_nil] at hshort
    omega

/-- Bytes with a newline between them are read piece by piece. -/
theorem Reads.append_newline {x y : List UInt8} {textX textY : List Char} (hx : Reads x textX) (hy : Reads y textY) :
    Reads (x ++ 0x0A :: y) (textX ++ '\n' :: textY) := by
  induction hx with
  | done => exact .char '\n' hy
  | char c next ih =>
    rw [List.append_assoc, List.cons_append]
    exact .char c ih
  | @fault piece rest text malformed maximal next ih =>
    have hne : piece ++ rest ≠ [] := List.append_ne_nil_of_left_ne_nil maximal.nonempty rest
    rw [List.append_assoc, List.cons_append]
    refine .fault (fun c hc => ?_) ⟨maximal.nonempty, List.prefix_append _ _, maximal.isSubpart, ?_⟩ ih
    · rw [← List.append_assoc] at hc
      exact malformed c (isPrefix_of_newline hne hc List.prefix_rfl)
    · intro other hother hsub
      rw [← List.append_assoc] at hother
      rcases hsub with hone | ⟨c, hc⟩
      · have := List.length_pos_iff.2 maximal.nonempty
        omega
      · exact maximal.longest other (isPrefix_of_newline hne hother hc) (.inr ⟨c, hc⟩)

/-- A text has as many newlines as its bytes. -/
theorem Reads.count_newline {bytes : List UInt8} {text : List Char} (h : Reads bytes text) :
    text.count '\n' = bytes.count 0x0A := by
  induction h with
  | done => rfl
  | char c next ih =>
    rw [List.count_append, ← ih, List.count_cons]
    by_cases hc : c = '\n'
    · subst hc
      rw [bytes_newline, Nat.add_comm]
      rfl
    · have hnone : (String.utf8EncodeChar c).count 0x0A = 0 :=
        List.count_eq_zero.2 fun hmem => hc (eq_newline_of_mem hmem)
      simp [hnone, hc]
  | @fault piece rest text malformed maximal next ih =>
    -- A newline in the piece would be the whole piece, and be read as itself.
    have hnone : piece.count 0x0A = 0 := by
      refine List.count_eq_zero.2 fun hmem => malformed '\n' ?_
      obtain ⟨b, pieceRest, hpiece⟩ := List.exists_cons_of_ne_nil maximal.nonempty
      have hb : b = 0x0A := by
        rcases maximal.isSubpart with hone | ⟨c, hc⟩
        · rw [List.length_eq_one_iff] at hone
          obtain ⟨b', rfl⟩ := hone
          rw [(List.cons.inj hpiece).1] at hmem
          exact (List.mem_singleton.1 hmem).symm
        · obtain rfl := eq_newline_of_mem (hc.subset hmem)
          rw [hpiece, bytes_newline, List.cons_prefix_cons] at hc
          exact hc.1
      rw [bytes_newline, hpiece, hb]
      exact ⟨pieceRest ++ rest, rfl⟩
    rw [List.count_append, hnone, ← ih, Nat.zero_add, List.count_cons_of_ne (by decide)]

/-! ## Where the reader stands -/

/-- A byte that may stand inside a character. -/
def IsTail (b : UInt8) : Prop := 0x80 ≤ b.toNat ∧ b.toNat ≤ 0xBF

/-- A byte that may come second, after the first byte of a character of three. -/
def IsSecondOfThree (a b : UInt8) : Prop :=
  (if a.toNat = 0xE0 then 0xA0 else 0x80) ≤ b.toNat ∧ b.toNat ≤ (if a.toNat = 0xED then 0x9F else 0xBF)

/-- A byte that may come second, after the first byte of a character of four. -/
def IsSecondOfFour (a b : UInt8) : Prop :=
  (if a.toNat = 0xF0 then 0x90 else 0x80) ≤ b.toNat ∧ b.toNat ≤ (if a.toNat = 0xF4 then 0x8F else 0xBF)

/-- The reader is inside a character, with these bytes of it read. -/
inductive Reached : State → List UInt8 → Prop
  | oneOfTwo {a : UInt8} (ha : 0xC2 ≤ a.toNat ∧ a.toNat ≤ 0xDF) :
      Reached (.inside (a.toNat - 0xC0) 1 0x80 0xBF) [a]
  | oneOfThree {a : UInt8} (ha : 0xE0 ≤ a.toNat ∧ a.toNat ≤ 0xEF) :
      Reached (.inside (a.toNat - 0xE0) 2 (if a.toNat = 0xE0 then 0xA0 else 0x80)
        (if a.toNat = 0xED then 0x9F else 0xBF)) [a]
  | twoOfThree {a b : UInt8} (ha : 0xE0 ≤ a.toNat ∧ a.toNat ≤ 0xEF) (hb : IsSecondOfThree a b) :
      Reached (.inside ((a.toNat - 0xE0) * 0x40 + (b.toNat - 0x80)) 1 0x80 0xBF) [a, b]
  | oneOfFour {a : UInt8} (ha : 0xF0 ≤ a.toNat ∧ a.toNat ≤ 0xF4) :
      Reached (.inside (a.toNat - 0xF0) 3 (if a.toNat = 0xF0 then 0x90 else 0x80)
        (if a.toNat = 0xF4 then 0x8F else 0xBF)) [a]
  | twoOfFour {a b : UInt8} (ha : 0xF0 ≤ a.toNat ∧ a.toNat ≤ 0xF4) (hb : IsSecondOfFour a b) :
      Reached (.inside ((a.toNat - 0xF0) * 0x40 + (b.toNat - 0x80)) 2 0x80 0xBF) [a, b]
  | threeOfFour {a b e : UInt8} (ha : 0xF0 ≤ a.toNat ∧ a.toNat ≤ 0xF4) (hb : IsSecondOfFour a b) (he : IsTail e) :
      Reached (.inside (((a.toNat - 0xF0) * 0x40 + (b.toNat - 0x80)) * 0x40 + (e.toNat - 0x80)) 1 0x80 0xBF) [a, b, e]

/-! ### Complete characters -/

theorem toNat_ofNat {n : Nat} (h : n < 0xD800 ∨ 0xDFFF < n ∧ n < 0x110000) : (Char.ofNat n).toNat = n := by
  rw [Char.ofNat, dif_pos h]
  rfl

theorem bytes_one {a : UInt8} (ha : a.toNat < 0x80) : String.utf8EncodeChar (Char.ofNat a.toNat) = [a] := by
  have hn := toNat_ofNat (n := a.toNat) (by omega)
  rcases bytes_cases (Char.ofNat a.toNat) with ⟨-, a', hbytes, ha'⟩ | ⟨hlow, -⟩ | ⟨hlow, -⟩ | ⟨hlow, -⟩
  · rw [hbytes, UInt8.toNat_inj.1 (ha'.trans hn)]
  all_goals omega

theorem bytes_two {a b : UInt8} (ha : 0xC2 ≤ a.toNat ∧ a.toNat ≤ 0xDF) (hb : IsTail b) :
    String.utf8EncodeChar (Char.ofNat ((a.toNat - 0xC0) * 0x40 + (b.toNat - 0x80))) = [a, b] := by
  unfold IsTail at hb
  have hn := toNat_ofNat (n := (a.toNat - 0xC0) * 0x40 + (b.toNat - 0x80)) (by omega)
  rcases bytes_cases (Char.ofNat ((a.toNat - 0xC0) * 0x40 + (b.toNat - 0x80))) with
    ⟨hlow, -⟩ | ⟨-, -, a', b', hbytes, ha', hb'⟩ | ⟨hlow, -⟩ | ⟨hlow, -⟩
  case inr.inl =>
    rw [hbytes, UInt8.toNat_inj.1 (by omega : a'.toNat = a.toNat), UInt8.toNat_inj.1 (by omega : b'.toNat = b.toNat)]
  all_goals omega

theorem bytes_three {a b e : UInt8} (ha : 0xE0 ≤ a.toNat ∧ a.toNat ≤ 0xEF) (hb : IsSecondOfThree a b) (he : IsTail e) :
    String.utf8EncodeChar
      (Char.ofNat (((a.toNat - 0xE0) * 0x40 + (b.toNat - 0x80)) * 0x40 + (e.toNat - 0x80))) = [a, b, e] := by
  unfold IsSecondOfThree at hb
  unfold IsTail at he
  have hn := toNat_ofNat (n := ((a.toNat - 0xE0) * 0x40 + (b.toNat - 0x80)) * 0x40 + (e.toNat - 0x80))
    (by split at hb <;> split at hb <;> omega)
  have hlow : 0x800 ≤ ((a.toNat - 0xE0) * 0x40 + (b.toNat - 0x80)) * 0x40 + (e.toNat - 0x80) := by
    split at hb <;> omega
  have hb' : 0x80 ≤ b.toNat ∧ b.toNat ≤ 0xBF := by split at hb <;> split at hb <;> omega
  rcases bytes_cases (Char.ofNat (((a.toNat - 0xE0) * 0x40 + (b.toNat - 0x80)) * 0x40 + (e.toNat - 0x80))) with
    ⟨hhigh, -⟩ | ⟨-, hhigh, -⟩ | ⟨-, -, -, a', b', e', hbytes, ha', hb', he'⟩ | ⟨hhigh, -⟩
  case inr.inr.inl =>
    rw [hbytes, UInt8.toNat_inj.1 (by omega : a'.toNat = a.toNat), UInt8.toNat_inj.1 (by omega : b'.toNat = b.toNat),
      UInt8.toNat_inj.1 (by omega : e'.toNat = e.toNat)]
  all_goals omega

theorem bytes_four {a b e f : UInt8} (ha : 0xF0 ≤ a.toNat ∧ a.toNat ≤ 0xF4) (hb : IsSecondOfFour a b) (he : IsTail e)
    (hf : IsTail f) :
    String.utf8EncodeChar (Char.ofNat ((((a.toNat - 0xF0) * 0x40 + (b.toNat - 0x80)) * 0x40 + (e.toNat - 0x80)) * 0x40 +
      (f.toNat - 0x80))) = [a, b, e, f] := by
  unfold IsSecondOfFour at hb
  unfold IsTail at he hf
  have hhigh : (((a.toNat - 0xF0) * 0x40 + (b.toNat - 0x80)) * 0x40 + (e.toNat - 0x80)) * 0x40 + (f.toNat - 0x80) <
      0x110000 := by split at hb <;> split at hb <;> omega
  have hlow : 0x10000 ≤ (((a.toNat - 0xF0) * 0x40 + (b.toNat - 0x80)) * 0x40 + (e.toNat - 0x80)) * 0x40 +
      (f.toNat - 0x80) := by split at hb <;> omega
  have hb' : 0x80 ≤ b.toNat ∧ b.toNat ≤ 0xBF := by split at hb <;> split at hb <;> omega
  have hn := toNat_ofNat (n := (((a.toNat - 0xF0) * 0x40 + (b.toNat - 0x80)) * 0x40 + (e.toNat - 0x80)) * 0x40 +
    (f.toNat - 0x80)) (by omega)
  rcases bytes_cases (Char.ofNat ((((a.toNat - 0xF0) * 0x40 + (b.toNat - 0x80)) * 0x40 + (e.toNat - 0x80)) * 0x40 +
    (f.toNat - 0x80))) with
    ⟨hless, -⟩ | ⟨-, hless, -⟩ | ⟨-, hless, -⟩ | ⟨-, -, a', b', e', f', hbytes, ha', hb', he', hf'⟩
  case inr.inr.inr =>
    rw [hbytes, UInt8.toNat_inj.1 (by omega : a'.toNat = a.toNat), UInt8.toNat_inj.1 (by omega : b'.toNat = b.toNat),
      UInt8.toNat_inj.1 (by omega : e'.toNat = e.toNat), UInt8.toNat_inj.1 (by omega : f'.toNat = f.toNat)]
  all_goals omega

/-! ### One byte more -/

theorem isTail_of_isPrefix {piece : List UInt8} {b : UInt8} {c : Char} (hne : piece ≠ [])
    (h : piece ++ [b] <+: String.utf8EncodeChar c) : IsTail b := by
  have hmem : b ∈ (String.utf8EncodeChar c).tail := by
    obtain ⟨first, others, rfl⟩ := List.exists_cons_of_ne_nil hne
    obtain ⟨rest, hrest⟩ := h
    rw [← hrest]
    simp
  unfold IsTail
  rcases bytes_cases c with ⟨-, a, hbytes, -⟩ | ⟨-, -, a, b', hbytes, -, hb⟩ | ⟨-, -, -, a, b', e, hbytes, -, hb, he⟩ |
    ⟨-, -, a, b', e, f, hbytes, -, hb, he, hf⟩
  · rw [hbytes] at hmem
    cases hmem
  · rw [hbytes, List.tail_cons, List.mem_singleton] at hmem
    subst hmem
    omega
  · rw [hbytes] at hmem
    simp only [List.tail_cons, List.mem_cons, List.not_mem_nil, or_false] at hmem
    rcases hmem with rfl | rfl <;> omega
  · rw [hbytes] at hmem
    simp only [List.tail_cons, List.mem_cons, List.not_mem_nil, or_false] at hmem
    rcases hmem with rfl | rfl | rfl <;> omega

theorem isSecondOfThree_of_isPrefix {a b : UInt8} {c : Char} (ha : 0xE0 ≤ a.toNat ∧ a.toNat ≤ 0xEF)
    (h : [a, b] <+: String.utf8EncodeChar c) : IsSecondOfThree a b := by
  unfold IsSecondOfThree
  rcases bytes_cases c with ⟨hn, a', hbytes, ha'⟩ | ⟨-, hn, a', b', hbytes, ha', -⟩ |
    ⟨hlow, hhigh, hsurrogate, a', b', e, hbytes, ha', hb', -⟩ | ⟨hn, -, a', b', e, f, hbytes, ha', -⟩ <;>
  rw [hbytes, List.cons_prefix_cons] at h <;> obtain ⟨rfl, h⟩ := h
  case inr.inr.inl =>
    rw [List.cons_prefix_cons] at h
    obtain ⟨rfl, -⟩ := h
    split <;> split <;> omega
  all_goals omega

theorem isSecondOfFour_of_isPrefix {a b : UInt8} {c : Char} (ha : 0xF0 ≤ a.toNat ∧ a.toNat ≤ 0xF4)
    (h : [a, b] <+: String.utf8EncodeChar c) : IsSecondOfFour a b := by
  unfold IsSecondOfFour
  rcases bytes_cases c with ⟨hn, a', hbytes, ha'⟩ | ⟨-, hn, a', b', hbytes, ha', -⟩ |
    ⟨-, hn, -, a', b', e, hbytes, ha', -⟩ | ⟨hlow, hhigh, a', b', e, f, hbytes, ha', hb', -⟩ <;>
  rw [hbytes, List.cons_prefix_cons] at h <;> obtain ⟨rfl, h⟩ := h
  case inr.inr.inr =>
    rw [List.cons_prefix_cons] at h
    obtain ⟨rfl, -⟩ := h
    split <;> split <;> omega
  all_goals omega

theorem start_cases (b : UInt8) :
    (∃ c, start b = (.ready, [some c]) ∧ String.utf8EncodeChar c = [b]) ∨
    (∃ s, start b = (s, []) ∧ Reached s [b]) ∨
    (start b = (.ready, [none]) ∧ ∀ c, ¬ [b] <+: String.utf8EncodeChar c) := by
  unfold start
  simp only [Bool.and_eq_true, decide_eq_true_eq]
  split
  · next h => exact .inl ⟨_, rfl, bytes_one h⟩
  · split
    · next h => exact .inr (.inl ⟨_, rfl, .oneOfTwo h⟩)
    · split
      · next h => exact .inr (.inl ⟨_, rfl, .oneOfThree h⟩)
      · split
        · next h => exact .inr (.inl ⟨_, rfl, .oneOfFour h⟩)
        · refine .inr (.inr ⟨rfl, fun c hc => ?_⟩)
          rcases bytes_cases c with ⟨hlow, a, hbytes, ha⟩ | ⟨hlow, hhigh, a, b', hbytes, ha, -⟩ |
            ⟨hlow, hhigh, -, a, b', e, hbytes, ha, -⟩ | ⟨hlow, hhigh, a, b', e, f, hbytes, ha, -⟩ <;>
          · rw [hbytes, List.cons_prefix_cons] at hc
            rw [← hc.1] at ha
            omega

section

variable {value more lo hi : Nat} {b : UInt8}

theorem step_last (hb : lo ≤ b.toNat ∧ b.toNat ≤ hi) :
    step (.inside value 1 lo hi) b = (.ready, [some (Char.ofNat (value * 0x40 + (b.toNat - 0x80)))]) := by
  simp [step, hb]

theorem step_more (hb : lo ≤ b.toNat ∧ b.toNat ≤ hi) :
    step (.inside value (more + 2) lo hi) b = (.inside (value * 0x40 + (b.toNat - 0x80)) (more + 1) 0x80 0xBF, []) := by
  simp [step, hb]

theorem step_broken (hb : ¬ (lo ≤ b.toNat ∧ b.toNat ≤ hi)) :
    step (.inside value more lo hi) b = ((start b).1, none :: (start b).2) := by
  simp [step, hb]

end

/-- Inside a character, the next byte completes it, is taken in, or breaks it off: then no character has these bytes. -/
theorem Reached.step_cases {s : State} {piece : List UInt8} (h : Reached s piece) (b : UInt8) :
    (∃ c, step s b = (.ready, [some c]) ∧ String.utf8EncodeChar c = piece ++ [b]) ∨
    (∃ s', step s b = (s', []) ∧ Reached s' (piece ++ [b])) ∨
    (step s b = ((start b).1, none :: (start b).2) ∧ ∀ c, ¬ piece ++ [b] <+: String.utf8EncodeChar c) := by
  cases h with
  | oneOfTwo ha =>
    by_cases hb : IsTail b
    · exact .inl ⟨_, step_last hb, bytes_two ha hb⟩
    · exact .inr (.inr ⟨step_broken hb, fun c hc => hb (isTail_of_isPrefix (by simp) hc)⟩)
  | @oneOfThree a ha =>
    by_cases hb : IsSecondOfThree a b
    · exact .inr (.inl ⟨_, step_more hb, .twoOfThree ha hb⟩)
    · exact .inr (.inr ⟨step_broken hb, fun c hc => hb (isSecondOfThree_of_isPrefix ha hc)⟩)
  | twoOfThree ha hb =>
    by_cases he : IsTail b
    · exact .inl ⟨_, step_last he, bytes_three ha hb he⟩
    · exact .inr (.inr ⟨step_broken he, fun c hc => he (isTail_of_isPrefix (by simp) hc)⟩)
  | @oneOfFour a ha =>
    by_cases hb : IsSecondOfFour a b
    · exact .inr (.inl ⟨_, step_more hb, .twoOfFour ha hb⟩)
    · exact .inr (.inr ⟨step_broken hb, fun c hc => hb (isSecondOfFour_of_isPrefix ha hc)⟩)
  | twoOfFour ha hb =>
    by_cases he : IsTail b
    · exact .inr (.inl ⟨_, step_more he, .threeOfFour ha hb he⟩)
    · exact .inr (.inr ⟨step_broken he, fun c hc => he (isTail_of_isPrefix (by simp) hc)⟩)
  | threeOfFour ha hb he =>
    by_cases hf : IsTail b
    · exact .inl ⟨_, step_last hf, bytes_four ha hb he hf⟩
    · exact .inr (.inr ⟨step_broken hf, fun c hc => hf (isTail_of_isPrefix (by simp) hc)⟩)

theorem Reached.exists_char {s : State} {piece : List UInt8} (h : Reached s piece) :
    ∃ c more, more ≠ [] ∧ String.utf8EncodeChar c = piece ++ more := by
  have htail : IsTail 0x80 := by unfold IsTail; decide
  cases h with
  | oneOfTwo ha => exact ⟨_, [0x80], by simp, bytes_two ha htail⟩
  | @oneOfThree a ha =>
    have hb : IsSecondOfThree a (if a.toNat = 0xE0 then 0xA0 else 0x80) := by
      unfold IsSecondOfThree
      by_cases h : a.toNat = 0xE0
      · simp [h]
      · rw [if_neg h, if_neg h]
        split <;> simp
    exact ⟨_, [_, 0x80], by simp, bytes_three ha hb htail⟩
  | twoOfThree ha hb => exact ⟨_, [0x80], by simp, bytes_three ha hb htail⟩
  | @oneOfFour a ha =>
    have hb : IsSecondOfFour a (if a.toNat = 0xF0 then 0x90 else 0x80) := by
      unfold IsSecondOfFour
      by_cases h : a.toNat = 0xF0
      · simp [h]
      · rw [if_neg h, if_neg h]
        split <;> simp
    exact ⟨_, [_, 0x80, 0x80], by simp, bytes_four ha hb htail htail⟩
  | twoOfFour ha hb => exact ⟨_, [0x80, 0x80], by simp, bytes_four ha hb htail htail⟩
  | threeOfFour ha hb he => exact ⟨_, [0x80], by simp, bytes_four ha hb he htail⟩

/-- The bytes read of a character hold no whole one. -/
theorem Reached.partial {s : State} {piece : List UInt8} (h : Reached s piece) (c : Char) :
    ¬ String.utf8EncodeChar c <+: piece := by
  rintro ⟨t, rfl⟩
  obtain ⟨c', more, hne, hbytes⟩ := h.exists_char
  rw [List.append_assoc] at hbytes
  obtain rfl := eq_of_bytes_append ((List.append_nil _).trans hbytes)
  have hnil := List.append_cancel_left ((List.append_nil _).trans hbytes)
  exact hne (List.append_eq_nil_iff.1 hnil.symm).2

theorem Reached.ne_nil {s : State} {piece : List UInt8} (h : Reached s piece) : piece ≠ [] := by
  cases h <;> simp

theorem Reached.reads_fault {s : State} {piece rest : List UInt8} {text : List Char} (h : Reached s piece)
    (hbroken : ∀ b ∈ rest.head?, ∀ c, ¬ piece ++ [b] <+: String.utf8EncodeChar c) (next : Reads rest text) :
    Reads (piece ++ rest) ('�' :: text) := by
  obtain ⟨c, more, -, hbytes⟩ := h.exists_char
  exact .fault_of_broken h.ne_nil (.inr ⟨c, more, hbytes.symm⟩) h.partial hbroken next

/-! ## The byte-wise reader -/

/-- The text that the reader gives from a state on. -/
def decodeFrom (s : State) (bytes : List UInt8) : List Char := (readFrom s [] bytes).map (·.getD '�')

theorem readFrom_eq (s : State) (out : List (Option Char)) (bytes : List UInt8) :
    readFrom s out bytes = out.reverse ++ readFrom s [] bytes := by
  induction bytes generalizing s out with
  | nil => simp [readFrom]
  | cons b rest ih =>
    simp only [readFrom]
    rw [ih, ih (step s b).1 ((step s b).2.reverse ++ [])]
    simp

theorem decodeFrom_cons (s : State) (b : UInt8) (rest : List UInt8) :
    decodeFrom s (b :: rest) = (step s b).2.map (·.getD '�') ++ decodeFrom (step s b).1 rest := by
  unfold decodeFrom
  rw [← List.map_append]
  simp only [readFrom]
  rw [readFrom_eq]
  simp

/-- The reader gives a text that the bytes are read as, also from inside a character. -/
theorem reads_decodeFrom (bytes : List UInt8) :
    Reads bytes (decodeFrom .ready bytes) ∧
      ∀ s piece, Reached s piece → Reads (piece ++ bytes) (decodeFrom s bytes) := by
  induction bytes with
  | nil =>
    refine ⟨.done, fun s piece h => ?_⟩
    have hfault : decodeFrom s [] = ['�'] := by cases h <;> rfl
    rw [hfault]
    exact h.reads_fault (by simp) .done
  | cons b rest ih =>
    have hready : Reads (b :: rest) (decodeFrom .ready (b :: rest)) := by
      rw [decodeFrom_cons, step]
      rcases start_cases b with ⟨c, hstart, hbytes⟩ | ⟨s, hstart, hreached⟩ | ⟨hstart, hnone⟩
      · rw [hstart, ← List.singleton_append, ← hbytes]
        exact .char c ih.1
      · rw [hstart]
        exact ih.2 s [b] hreached
      · rw [hstart, ← List.singleton_append]
        -- No character begins with the byte, so none is the byte or goes on from it.
        refine .fault_of_broken (by simp) (.inl rfl) (fun c hc => ?_) (fun b' _ c hc => ?_) ih.1
        · obtain ⟨t, ht⟩ := hc
          rcases List.append_eq_singleton_iff.1 ht with ⟨hnil, -⟩ | ⟨hwhole, -⟩
          · exact String.utf8EncodeChar_ne_nil hnil
          · exact hnone c (hwhole ▸ List.prefix_rfl)
        · exact hnone c ((List.prefix_append _ _).trans hc)
    refine ⟨hready, fun s piece h => ?_⟩
    rw [decodeFrom_cons]
    rcases h.step_cases b with ⟨c, hstep, hbytes⟩ | ⟨s', hstep, hreached⟩ | ⟨hstep, hbroken⟩
    · rw [hstep, ← List.singleton_append, ← List.append_assoc, ← hbytes]
      exact .char c ih.1
    · rw [hstep, ← List.singleton_append, ← List.append_assoc]
      exact ih.2 s' _ hreached
    · -- The byte is read again from scratch.
      have hagain : (step s b).2.map (·.getD '�') ++ decodeFrom (step s b).1 rest =
          '�' :: decodeFrom .ready (b :: rest) := by
        rw [hstep, decodeFrom_cons, step]
        rfl
      rw [hagain]
      refine h.reads_fault (fun b' hb' => ?_) hready
      cases hb'
      exact hbroken

/-- The byte-wise reader gives the one text that the bytes are read as. -/
theorem reads_iff {bytes : List UInt8} {text : List Char} : Reads bytes text ↔ decodeLossy bytes = text := by
  have h : Reads bytes (decodeLossy bytes) := (reads_decodeFrom bytes).1
  exact ⟨fun h' => h.unique h', fun heq => heq ▸ h⟩

end SourceAudit.Text.Utf8
