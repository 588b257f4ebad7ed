import SourceAudit.Audit.Run
import SourceAudit.CommandLine.Parse
import SourceAudit.CommandLine.Text
import SourceAudit.Config
import SourceAudit.Linter.EsLint
import SourceAudit.Report.Files
import SourceAudit.Text.Percent

/-!
# A run of the command line

From the words of a command line and the disk to what is printed, the exit status, the pages that are opened, the
processes that are started and the disk afterwards. The world outside is given: how processes end, what a
configuration file holds, and whether a browser opens a page.
-/
namespace SourceAudit.CommandLine

/-- What a run depends on beside its words and the disk. -/
structure World where
  processes : Processes
  readConfig : Config.Reader
  opensPages : Bool

/-- Why a run fails. -/
inductive Failure where
  | config (fault : ConfigFault)
  | audit (fault : AuditFault)
  | output (error : DiskError)
  | page (fault : Disk.ResolveFault)
  deriving Repr

def Failure.message : Failure → String
  | .config fault => fault.message
  | .audit fault => fault.message
  | .output error => error.message
  | .page fault => fault.message

/-- What a run has done so far. -/
structure Session where
  disk : Disk
  exit : Nat := 0
  stdout : String := ""
  stderr : String := ""
  opened : List String := []
  calls : List (List String) := []
  written : Option Report.Files := none

namespace Session

def print (s : Session) (text : String) : Session := { s with stdout := s.stdout ++ text }

def log (s : Session) (verbose : Bool) (lines : List LogLine) : Session :=
  { s with stderr := s.stderr ++ unlines ((lines.filter (·.isShown verbose)).map (·.render)) }

/-- Ends a run with a failure. -/
def fail (s : Session) (failure : Failure) : Session :=
  { s with
    exit := 1
    stderr := s.stderr ++ "An error occurred during the scan: " ++ failure.message ++ "\n" }

end Session

/-- The configuration that a command line asks for. -/
def configOf (w : World) (d : Disk) (o : Options) : Except Failure Config :=
  match Config.load w.readConfig d (o.config.map .ofString) with
  | .error fault => .error (.config fault)
  | .ok c => (c.merged [("report_dir", .ofString? o.reportDir), ("jobs", .ofInt? o.jobs)]).mapError .config

def openPage (w : World) (s : Session) (page : Path) : Session :=
  match s.disk.resolve page with
  | .error fault => s.fail (.page fault)
  | .ok resolved =>
    let s := { s with opened := s.opened ++ ["file://" ++ Text.percentEncoded resolved.toString] }
    if w.opensPages then s
    else
      s.print ("Could not open a browser. You can manually open the report at: " ++ page.toString ++ "\n")

/-- Prints a report and writes its files. -/
def output (w : World) (o : Options) (c : Config) (report : Report) (s : Session) : Session :=
  let s := s.print (report.terminal ++ "\n")
  match report.write s.disk (.ofString o.path) c.reportDirText with
  | (disk, .error e) => { s with disk }.fail (.output e)
  | (disk, .ok files) =>
    let s := { s with disk, written := some files }.print
      ("\nHTML report saved as " ++ files.page.toString ++ "\nJSON report saved as " ++ files.document.toString ++ "\n")
    if o.openReport then openPage w s files.page else s

/-- The audit that a configuration asks for. -/
def auditOf (w : World) (d : Disk) (c : Config) (ignoredDirs : List String) : Audit :=
  let eslint : EsLint := { command := c.command, timeout := c.timeout }
  { registry := .standard (some { backend := eslint.backend w.processes }), disk := d, ignoredDirs }

/-- Scans a tree for the concerns that are selected. -/
def scanSelected (w : World) (o : Options) (s : Session) : Session :=
  match configOf w s.disk o with
  | .error failure => s.fail failure
  | .ok c =>
    let root := Path.ofString o.path
    let s := s.log o.verbose [⟨.info, .commandLine,
      "Scanning " ++ root.toString ++ " for " ++ ", ".intercalate (o.concerns.map (·.name))⟩]
    match c.ignoredDirs with
    | .error fault => s.fail (.config fault)
    | .ok ignoredDirs =>
      let languages := s.disk.languageNames ignoredDirs root
      let s := s.print
        ("Languages detected: " ++ (if languages.isEmpty then "none" else ", ".intercalate languages) ++ "\n\n")
      let run := (auditOf w s.disk c ignoredDirs).scan root o.concerns
      let s := { s.log o.verbose run.log with calls := run.calls }
      match run.outcome with
      | .error fault => s.fail (.audit fault)
      | .ok report => output w o c report s

def run (w : World) (d : Disk) (words : List String) : Session :=
  let s : Session := { disk := d }
  match parse words with
  | .error .help => s.print help
  | .error .version => s.print version
  | .error (.refused reason) => { s with exit := 2, stderr := refusalText reason }
  | .ok o =>
    if o.concerns.isEmpty then
      s.print "No scans were performed. Please specify at least one scan type or use --all.\n"
    else scanSelected w o s

end SourceAudit.CommandLine
