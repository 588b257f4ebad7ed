import SourceAudit.CommandLine.Option
import SourceAudit.Text.Quoted

/-!
# Texts of the command line

The usage, the help, the version and the wording of a refusal.
-/
namespace SourceAudit.CommandLine

def usageLines : List String := [
  "usage: reposcan [-h] [--all] [--string] [--cors] [--auth] [--authz]",
  "                [--config CONFIG] [--report-dir REPORT_DIR] [--jobs JOBS]",
  "                [--open] [--verbose] [--version]",
  "                path"]

/-- The lines of the help behind the usage. -/
def helpLines : List String := [
  "",
  "Heuristic security scanner for source repositories",
  "",
  "positional arguments:",
  "  path                  Path to the repository you want to scan.",
  "",
  "options:",
  "  -h, --help            show this help message and exit",
  "  --all, -a             Run all scans.",
  "  --string, -s          Run the string input sanitization scan.",
  "  --cors, -c            Run the CORS configuration scan.",
  "  --auth, -u            Run the authentication scan.",
  "  --authz, -z           Run the authorization scan.",
  "  --config CONFIG       YAML file with scanner settings (ignore dirs, jobs,",
  "                        eslint command).",
  "  --report-dir REPORT_DIR",
  "                        Directory, relative to the repository, for report.html",
  "                        and report.json.",
  "  --jobs JOBS, -j JOBS  Number of files evaluated in parallel.",
  "  --open                Open the HTML report in the default browser when done.",
  "  --verbose, -v         Log progress to stderr.",
  "  --version             show program's version number and exit"]

/-- Lines, each closed by a newline. -/
def unlines (lines : List String) : String := String.join (lines.map (· ++ "\n"))

def usage : String := unlines usageLines

def help : String := unlines (usageLines ++ helpLines)

def version : String := "reposcan 0.1.0\n"

/-- An option as it is named in a refusal. -/
def Flag.label (flag : Flag) : String := "argument " ++ "/".intercalate flag.names

def Refusal.message : Refusal → String
  | ambiguous word names => "ambiguous option: " ++ word ++ " could match " ++ ", ".intercalate names
  | missingValue flag => flag.label ++ ": expected one argument"
  | unusedValue flag value => flag.label ++ ": ignored explicit argument " ++ Text.quoted value
  | noInteger flag value => flag.label ++ ": invalid int value: " ++ Text.quoted value
  | missingPath => "the following arguments are required: path"
  | unrecognized words => "unrecognized arguments: " ++ " ".intercalate words

/-- What is said about a command line that is refused. -/
def refusalText (reason : Refusal) : String := usage ++ "reposcan: error: " ++ reason.message ++ "\n"

end SourceAudit.CommandLine
