import SourceAudit.Catalogue.Authorization
import SourceAudit.Catalogue.Cors
import SourceAudit.Catalogue.Sanitization
import SourceAudit.FileFilter
import SourceAudit.Linter.Basic

/-!
# Profiles

The profile of a concern says which files it looks at, which rules judge them and what tells that a file has to
do with the concern at all. A registry holds the profiles of the concerns that can be judged.
-/
namespace SourceAudit

structure Profile where
  concern : Concern
  filter : FileFilter
  rules : List Rule
  /-- What tells that a file has to do with the concern. Without it, any rule's trigger does. -/
  subject : Option Pattern := none
  /-- What judges files in place of the rules. -/
  linter : Option Linter := none

namespace Profile

/-- The rules that look at files of a language. -/
def rulesFor (p : Profile) (language : Option Language) : List Rule := p.rules.filter (·.appliesTo language)

/-- Whether files of a language are left to the linter. -/
def delegates (p : Profile) (language : Option Language) : Bool := p.linter.any (·.handles language)

/-- Whether a text has to do with the concern, seen by some of its rules. -/
def observes (p : Profile) (rules : List Rule) (text : List Char) : Bool :=
  match p.subject with
  | some subject => subject.occursIn text
  | none => rules.any (·.triggersOn text)

end Profile

/-- The profiles of some concerns. -/
abbrev Registry := List Profile

namespace Registry

def sourceExtensions : List String := [".js", ".ts", ".py", ".php", ".java"]

/-- Extensions of source files that take input. -/
def sanitizationExtensions : List String := [".js", ".mjs", ".cjs", ".py", ".php", ".java"]

def profileOf (linter : Option Linter) : Concern → Profile
  | .sanitization => {
      concern := .sanitization
      filter := { extensions := sanitizationExtensions }
      rules := Catalogue.Sanitization.rules
      linter }
  | .cors => {
      concern := .cors
      filter := { extensions := sourceExtensions, keywords := ["config", "server"] }
      rules := Catalogue.Cors.rules
      subject := some Catalogue.Cors.subject }
  | .authentication => {
      concern := .authentication
      filter := { extensions := sourceExtensions, keywords := ["auth", "login", "user"] }
      rules := Catalogue.Authentication.rules
      subject := some Catalogue.Authentication.subject }
  | .authorization => {
      concern := .authorization
      filter := { extensions := sourceExtensions, keywords := ["auth", "middleware", "permission"] }
      rules := Catalogue.Authorization.rules
      subject := some Catalogue.Authorization.subject }

/-- The registry of all concerns. -/
def standard (linter : Option Linter := none) : Registry := Concern.all.map (profileOf linter)

def find? (r : Registry) (concern : Concern) : Option Profile := List.find? (·.concern = concern) r

end Registry
end SourceAudit
