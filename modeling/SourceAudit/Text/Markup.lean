/-!
# Text inside markup

The five characters that could end a text inside an element or a quoted attribute are written as entities. A script has
no entities; there a backslash keeps a text from ending the element.
-/
namespace SourceAudit.Text

/-- One character of a text inside markup. -/
def markupChar (c : Char) : List Char :=
  match c with
  | '&' => "&amp;".toList
  | '<' => "&lt;".toList
  | '>' => "&gt;".toList
  | '"' => "&quot;".toList
  | '\'' => "&#x27;".toList
  | c => [c]

/-- A text as it is written inside markup. -/
def markup (s : String) : String := String.ofList (s.toList.flatMap markupChar)

def scriptChars : List Char → List Char
  | '<' :: '/' :: rest => '<' :: '\\' :: '/' :: scriptChars rest
  | c :: rest => c :: scriptChars rest
  | [] => []

/-- A text as it is written inside a script. -/
def script (s : String) : String := String.ofList (scriptChars s.toList)
end SourceAudit.Text
