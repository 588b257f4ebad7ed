import SourceAudit.Catalogue.Sanitization
import SourceAudit.Proofs.Disk.Resolve
import SourceAudit.Proofs.Pattern.Lines
import SourceAudit.Proofs.Rule.Emission
import SourceAudit.Proofs.Text.Utf8

/-!
# Line numbers and bytes

A finding names a line of the text that a file was read as, while whoever looks for it counts the newlines of the file.
The two agree, however malformed the bytes are: reading neither loses nor adds a newline, and what stands in front of
one has no bearing on what stands behind it. So the verdicts on a file are those on the part before a newline and then
those on the part behind it, further down by the number of newlines in between.

Results:
* `LineCheck.evaluate_append_newline`: a check judges two texts with a newline between them one after the other.
* `SourceText.read_of_reads`: a file that is looked at is read as the text of its bytes.
* `SourceText.lines_true_to_bytes`: line numbers count the newlines of a file.
-/
namespace SourceAudit

open Fallible

/-! ## Verdicts further down -/

/-- An outcome some lines further down. -/
def Outcome.moved (o : Outcome) (lines : Nat) : Outcome where
  findings := o.findings.map fun f => { f with line := f.line + lines }
  passedChecks := o.passedChecks.map fun k => { k with line := k.line.map (· + lines) }

theorem Outcome.moved_combine (outcomes : List Outcome) (lines : Nat) :
    (combine outcomes).moved lines = combine (outcomes.map (·.moved lines)) := by
  simp [moved, combine, List.map_flatMap, List.flatMap_map]

theorem Outcome.combine_append (first second : List Outcome) :
    combine (first ++ second) = combine first ++ combine second := by
  simp only [combine, List.flatMap_append]
  rfl

namespace LineCheck

theorem verdict_moved (c : LineCheck) (file : String) (number lines : Nat) (line : List Char) :
    c.verdict file (number + lines) line = (c.verdict file number line).moved lines := by
  unfold verdict
  split
  · rfl
  · split <;> rfl

/-- The verdict on a line further down is the same verdict further down. If the file has no name, it fails alike. -/
theorem judge_moved (c : LineCheck) (file : String) {number : Nat} (hn : 1 ≤ number) (lines : Nat) (line : List Char) :
    c.judge file (number + lines) line = (c.judge file number line).map (·.moved lines) := by
  by_cases hf : file = ""
  · subst hf
    unfold judge
    cases c.trigger.find? line with
    | none => rfl
    | some start => cases c.violates line <;> rfl
  · rw [c.judge_eq_ok line hf (by omega), c.judge_eq_ok line hf hn, verdict_moved]
    rfl

theorem mapM_judge_moved (c : LineCheck) (file : String) {number : Nat} (hn : 1 ≤ number) (lines : Nat)
    (texts : List (List Char)) :
    (texts.zipIdx (number + lines)).mapM (fun x => c.judge file x.2 x.1) =
      ((texts.zipIdx number).mapM fun x => c.judge file x.2 x.1).map (List.map (·.moved lines)) := by
  induction texts generalizing number with
  | nil => rfl
  | cons line rest ih =>
    have hnext := @ih (number + 1) (by omega)
    rw [show number + 1 + lines = number + lines + 1 by omega] at hnext
    rw [List.zipIdx_cons, List.zipIdx_cons, List.mapM_cons, List.mapM_cons, judge_moved c file hn, hnext]
    cases c.judge file number line with
    | error fault => rfl
    | ok o => cases (rest.zipIdx (number + 1)).mapM fun x => c.judge file x.2 x.1 <;> rfl

/-- A check judges two texts with a newline between them one after the other, the second further down by the lines of
the first. -/
theorem evaluate_append_newline (c : LineCheck) (file : String) (x y : List Char) :
    c.evaluate file (x ++ '\n' :: y) = (do
      let before ← c.evaluate file x
      let behind ← c.evaluate file y
      return before ++ behind.moved (1 + x.count '\n')) := by
  have hmoved := c.mapM_judge_moved file (Nat.le_refl 1) (1 + x.count '\n') (Text.lines y)
  have hcount : 1 + (Text.lines x).length = 1 + (1 + x.count '\n') := by
    rw [Text.length_lines, Nat.add_comm 1 (x.count _)]
  simp only [evaluate]
  rw [Text.lines_append_newline, List.zipIdx_append, List.mapM_append, hcount, hmoved]
  cases ((Text.lines x).zipIdx 1).mapM fun x => c.judge file x.2 x.1 with
  | error fault => rfl
  | ok before =>
    cases ((Text.lines y).zipIdx 1).mapM fun x => c.judge file x.2 x.1 with
    | error fault => rfl
    | ok behind =>
      show Except.ok (Outcome.combine (before ++ behind.map _)) = Except.ok (_ ++ _)
      rw [Outcome.combine_append, Outcome.moved_combine]

end LineCheck

/-! ## Files -/

namespace SourceText

open Text (Utf8.Reads)

/-- A file that is looked at is read as the text of its bytes. -/
theorem read_of_reads {d : Disk} {p : Path} {bytes : List UInt8} {text : List Char} (h : d.find? p = some (.file bytes))
    (hsize : bytes.length ≤ 1000000) (hzero : 0 ∉ bytes) (htext : Utf8.Reads bytes text) : read d p = .text text := by
  have hlarge : ¬ bytes.length > maxFileSize := Nat.not_lt.2 hsize
  have hbinary : bytes.contains 0 = false := by simpa using hzero
  simp only [read_of_find? h, ofNode, ofBytes, hlarge, hbinary, if_false, Bool.false_eq_true,
    Text.Utf8.reads_iff.1 htext]

/-- **Line numbers count the newlines of a file.** Let two byte strings without zero bytes and a newline between them be
no larger than a file that is looked at, however malformed they are. A file of all these bytes is read as the text of
the first, a newline and the text of the second, where U+FFFD stands for each maximal piece that is malformed. Every
line check judges it as it judges the first text and then the second, further down by one line and one more for each
newline byte of the first, in the same columns. And a file that holds the bytes of some text is read as that text. -/
theorem lines_true_to_bytes (d : Disk) (x y : List UInt8) (hx : 0 ∉ x) (hy : 0 ∉ y)
    (hsize : x.length + 1 + y.length ≤ 1000000) :
    (∃ textX textY : List Char, Utf8.Reads x textX ∧ Utf8.Reads y textY ∧
      (∀ p, d.find? p = some (.file x) → read d p = .text textX) ∧
      (∀ p, d.find? p = some (.file y) → read d p = .text textY) ∧
      (∀ p, d.find? p = some (.file (x ++ 0x0A :: y)) → read d p = .text (textX ++ '\n' :: textY)) ∧
      ∀ (c : LineCheck) (file : String), c.evaluate file (textX ++ '\n' :: textY) = (do
        let before ← c.evaluate file textX
        let behind ← c.evaluate file textY
        return before ++ behind.moved (1 + x.count 0x0A))) ∧
    ∀ s : String, 0 ∉ s.toUTF8.data.toList → s.toUTF8.data.toList.length ≤ 1000000 →
      ∀ p, d.find? p = some (.file s.toUTF8.data.toList) → read d p = .text s.toList := by
  refine ⟨?_, fun s hzero hlength p hfile => ?_⟩
  · have hreadsX : Utf8.Reads x (Text.Utf8.decodeLossy x) := Text.Utf8.reads_iff.2 rfl
    have hreadsY : Utf8.Reads y (Text.Utf8.decodeLossy y) := Text.Utf8.reads_iff.2 rfl
    refine ⟨_, _, hreadsX, hreadsY, fun p hfile => ?_, fun p hfile => ?_, fun p hfile => ?_, fun c file => ?_⟩
    · exact read_of_reads hfile (by omega) hx hreadsX
    · exact read_of_reads hfile (by omega) hy hreadsY
    · apply read_of_reads hfile _ _ (hreadsX.append_newline hreadsY)
      · rw [List.length_append, List.length_cons]
        omega
      · simp [hx, hy]
    · rw [← hreadsX.count_newline]
      exact c.evaluate_append_newline file _ _
  · have hbytes : s.toUTF8.data.toList = s.toList.flatMap String.utf8EncodeChar := by
      rw [String.toUTF8_eq_toByteArray, ← String.utf8Encode_toList]
      exact List.toList_data_toByteArray
    apply read_of_reads hfile hlength hzero
    rw [hbytes]
    exact Text.Utf8.reads_encoding s.toList

/-- A line, and what is left of a euro sign whose last byte went to `cutBelow`. -/
def cutAbove : List UInt8 := Text.Utf8.encode "db.raw(f'a')\n".toList ++ [0xE2, 0x82]

def cutBelow : List UInt8 := 0xAC :: Text.Utf8.encode "db.raw(f'b')".toList

def cutLines : Disk where
  root := .dir [("above", .file cutAbove), ("below", .file cutBelow), ("whole", .file (cutAbove ++ 0x0A :: cutBelow))]

/-- A euro sign that is cut in two by a newline is two faults, and the call behind it is on the third line. -/
theorem lines_true_to_bytes_cutLines :
    read cutLines ⟨"/", ["whole"]⟩ = .text "db.raw(f'a')\n�\n�db.raw(f'b')".toList ∧
    (Catalogue.Sanitization.pythonSql.evaluate "whole" "db.raw(f'a')\n�\n�db.raw(f'b')".toList).map
      (·.findings.map fun f => (f.line, f.column)) = .ok [(1, some 3), (3, some 4)] := by
  obtain ⟨textX, textY, hreadsX, hreadsY, -, -, hwhole, hevaluate⟩ :=
    (lines_true_to_bytes cutLines cutAbove cutBelow (by decide +kernel) (by decide +kernel) (by decide +kernel)).1
  obtain rfl : "db.raw(f'a')\n�".toList = textX := Text.Utf8.reads_iff.1 hreadsX
  obtain rfl : "�db.raw(f'b')".toList = textY := Text.Utf8.reads_iff.1 hreadsY
  have htext : "db.raw(f'a')\n�\n�db.raw(f'b')".toList =
      "db.raw(f'a')\n�".toList ++ '\n' :: "�db.raw(f'b')".toList := by decide +kernel
  rw [htext, hevaluate]
  exact ⟨hwhole _ rfl, by decide +kernel⟩

end SourceText
end SourceAudit
