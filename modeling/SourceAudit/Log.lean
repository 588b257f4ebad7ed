/-!
# Log lines

What a run notes about its progress. A line names the part of the program it comes from. Warnings are always
shown, everything else only on request.
-/
namespace SourceAudit

/-- How important a log line is. -/
inductive LogLevel where
  | debug
  | info
  | warning
  deriving DecidableEq, Repr

/-- The name shown in front of a line. -/
def LogLevel.name : LogLevel → String
  | .debug => "DEBUG"
  | .info => "INFO"
  | .warning => "WARNING"

/-- The part of the program that a line comes from. -/
inductive LogSource where
  | audit
  | linter
  | files
  | commandLine
  deriving DecidableEq, Repr

/-- The name shown for a part. -/
def LogSource.name : LogSource → String
  | .audit => "reposcan.orchestrator"
  | .linter => "reposcan.linter"
  | .files => "reposcan.utils.fileio"
  | .commandLine => "reposcan.cli"

structure LogLine where
  level : LogLevel
  source : LogSource
  text : String
  deriving DecidableEq, Repr

namespace LogLine

def render (l : LogLine) : String := l.level.name ++ " " ++ l.source.name ++ ": " ++ l.text

def isShown (verbose : Bool) (l : LogLine) : Bool := verbose || l.level = .warning

end LogLine
end SourceAudit
