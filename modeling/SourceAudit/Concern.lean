/-!
# Concerns and severities

The security concerns that an audit can judge, in the order in which they are listed, and how urgent a finding
is, most urgent first.
-/
namespace SourceAudit

inductive Concern where
  | sanitization
  | cors
  | authentication
  | authorization
  deriving DecidableEq, Repr, Inhabited

namespace Concern

def all : List Concern := [sanitization, cors, authentication, authorization]

/-- The name shown in reports. -/
def name : Concern → String
  | sanitization => "Sanitization"
  | cors => "CORS"
  | authentication => "Authentication"
  | authorization => "Authorization"

/-- The word that selects the concern on the command line. -/
def selector : Concern → String
  | sanitization => "string"
  | cors => "cors"
  | authentication => "auth"
  | authorization => "authz"

def ofName? (s : String) : Option Concern := all.find? (·.name == s)

end Concern

/-- How urgently a finding should be looked at. -/
inductive Severity where
  | high
  | medium
  | low
  | info
  deriving DecidableEq, Repr, Inhabited

namespace Severity

/-- Severities, most severe first. -/
def all : List Severity := [high, medium, low, info]

/-- The place in the order of severities, zero for the most severe. -/
def rank : Severity → Nat
  | high => 0
  | medium => 1
  | low => 2
  | info => 3

/-- The name shown in reports. -/
def name : Severity → String
  | high => "HIGH"
  | medium => "MEDIUM"
  | low => "LOW"
  | info => "INFO"

def ofName? (s : String) : Option Severity := all.find? (·.name == s)

end Severity
end SourceAudit
