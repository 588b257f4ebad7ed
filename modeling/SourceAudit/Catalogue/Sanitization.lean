import SourceAudit.Rule.Basic

/-!
# Sanitization rules

Dangerous sinks of input that lack a mitigation on the same line, for Python, PHP and Java. Files of other
languages are left to an external linter.
-/
namespace SourceAudit.Catalogue.Sanitization

open Pattern

/-- An opening parenthesis, after blanks. -/
def opening : Pattern := .seq blanks (word "(")

/-- A single or a double quote. -/
def quoteMark : Pattern := .one (charOf "'\"")

/-- Whether a character is a word character or one of some others. -/
def wordCharOr (s : String) : CharClass := let others := charOf s; fun c => Text.isWordChar c || others c

/-! ## Python -/

/-- A call that runs a statement. -/
def executeCall : Pattern := sequence [word ".", wordOf ["execute", "executemany", "raw"], opening, blanks]

def pythonEval : LineCheck where
  name := "python_dynamic_eval"
  concern := .sanitization
  trigger := sequence [.notAfter (wordCharOr "."), wordOf ["eval", "exec"], opening]
  findingMessage := "Dynamic code evaluation (eval/exec) on potentially untrusted input."
  severity := .high
  quickFix := "Parse literals with ast.literal_eval() or dispatch through an explicit allow-list."
  languages := some [.python]

def pythonSql : LineCheck where
  name := "python_sql_string_building"
  concern := .sanitization
  trigger := .seq executeCall
    (.alt (.seq (word "f") quoteMark)
      (sequence [quoteMark, restOfLine, quoteMark, blanks, wordOf ["%", "+", ".format("]]))
  requires := some (
    let letterMark := Pattern.optional (.one (charOf "rRbBuUfF"))
    sequence [
      executeCall, letterMark, letterMark, .alt (quotedBy '"') (quotedBy '\''), blanks, word ",", blanks,
      .one (wordCharOr "[(\x7b")])
  findingMessage := "SQL query built with string formatting and executed without bound parameters."
  passMessage := some "SQL query passes bound parameters alongside the statement."
  severity := .high
  quickFix := "Use placeholders and pass values as the second argument to execute()."
  languages := some [.python]

def pythonYaml : LineCheck where
  name := "python_unsafe_yaml_load"
  concern := .sanitization
  trigger := sequence [.wordEdge, word "yaml.", wordOf ["load", "load_all"], opening]
  requires := some (sequence [
    word "Loader", blanks, word "=", blanks, optional (word "yaml."), optional (word "C"), word "SafeLoader"])
  findingMessage := "yaml.load() without SafeLoader can construct arbitrary objects."
  passMessage := some "yaml.load() is restricted to SafeLoader."
  severity := .high
  quickFix := "Use yaml.safe_load() or pass Loader=yaml.SafeLoader."
  languages := some [.python]

def pythonPickle : LineCheck where
  name := "python_pickle_load"
  concern := .sanitization
  trigger := sequence [
    .wordEdge, wordOf ["pickle", "cPickle", "dill", "marshal"], word ".load", optional (word "s"), opening]
  findingMessage := "Deserializing with pickle/marshal executes attacker-controlled payloads."
  severity := .high
  quickFix := "Exchange data as JSON or another data-only format."
  languages := some [.python]

def pythonMarkup : LineCheck where
  name := "python_unescaped_markup"
  concern := .sanitization
  trigger := sequence [.wordEdge, wordOf ["mark_safe", "Markup", "render_template_string"], opening]
  requires := some (.alt
    (sequence [.wordEdge, word "escape", opening]) (sequence [.wordEdge, word "bleach.clean", opening]))
  findingMessage := "Markup is rendered without escaping its input."
  passMessage := some "Markup input is escaped before rendering."
  quickFix := "Escape values with markupsafe.escape() or sanitize with bleach.clean()."
  languages := some [.python]

def pythonShell : LineCheck where
  name := "python_shell_injection"
  concern := .sanitization
  trigger := .seq .wordEdge
    (anyOf [
      word "os.system", word "os.popen",
      sequence [
        word "subprocess.", atLeastOne Text.isWordChar, opening, restOfLine, word "shell", blanks, word "=", blanks,
        word "True"]])
  requires := some (sequence [.wordEdge, word "shlex.quote", opening])
  findingMessage := "Shell command is built from strings without quoting."
  passMessage := some "Shell command arguments are quoted with shlex.quote()."
  severity := .high
  quickFix := "Pass an argument list to subprocess without shell=True."
  languages := some [.python]

/-! ## PHP -/

def phpEval : LineCheck where
  name := "php_eval"
  concern := .sanitization
  trigger := sequence [.notAfter (wordCharOr ">$"), wordOf ["eval", "assert", "create_function"], opening]
  findingMessage := "Dynamic code evaluation in PHP."
  severity := .high
  quickFix := "Remove eval() and dispatch through explicit code paths."
  languages := some [.php]

def phpQuery : LineCheck where
  name := "php_raw_query"
  concern := .sanitization
  trigger := .alt
    (sequence [.wordEdge, wordOf ["mysqli_query", "mysql_query", "pg_query"], opening])
    (sequence [word "->", wordOf ["query", "exec"], opening])
  requires := some (sequence [
    .wordEdge, wordOf ["prepare", "real_escape_string", "bind_param", "bindValue", "bindParam", "quote"],
    .wordEdge])
  findingMessage := "Database query executed without prepared statements or escaping."
  passMessage := some "Database query uses prepared statements or escaping."
  severity := .high
  quickFix := "Use PDO/mysqli prepared statements with bound parameters."
  languages := some [.php]

def phpOutput : LineCheck where
  name := "php_unescaped_output"
  concern := .sanitization
  trigger := sequence [
    .wordEdge, wordOf ["echo", "print"], .wordEdge, restOfLine, word "$_",
    wordOf ["GET", "POST", "REQUEST", "COOKIE"]]
  requires := some (sequence [.wordEdge, wordOf ["htmlspecialchars", "htmlentities", "strip_tags"], opening])
  findingMessage := "Request input is echoed without HTML escaping."
  passMessage := some "Request input is escaped before output."
  severity := .high
  quickFix := "Wrap output in htmlspecialchars($value, ENT_QUOTES, 'UTF-8')."
  languages := some [.php]

def phpUnserialize : LineCheck where
  name := "php_unserialize"
  concern := .sanitization
  trigger := sequence [.wordEdge, word "unserialize", opening]
  requires := some (word "allowed_classes")
  findingMessage := "unserialize() without an allowed_classes restriction."
  passMessage := some "unserialize() restricts allowed classes."
  severity := .high
  quickFix := "Prefer json_decode(), or pass ['allowed_classes' => false]."
  languages := some [.php]

def phpInclude : LineCheck where
  name := "php_dynamic_include"
  concern := .sanitization
  trigger := sequence [
    .wordEdge, wordOf ["include", "require"], optional (word "_once"), blanks, optional (word "("), blanks,
    word "$"]
  requires := some (sequence [.wordEdge, word "basename", opening])
  findingMessage := "File inclusion path is built from a variable."
  passMessage := some "Included path is reduced with basename()."
  severity := .high
  quickFix := "Map user input to a fixed allow-list of include targets."
  languages := some [.php]

/-! ## Java -/

def javaStatement : LineCheck where
  name := "java_statement_concat"
  concern := .sanitization
  trigger := sequence [
    word ".", wordOf ["executeQuery", "executeUpdate", "execute", "addBatch"], opening, blanks, quotedBy '"', blanks,
    word "+"]
  requires := some (.alt
    (sequence [.wordEdge, word "PreparedStatement", .wordEdge])
    (sequence [.wordEdge, word "prepareStatement", opening]))
  findingMessage := "SQL statement concatenates values into the query text."
  passMessage := some "SQL statement is executed through a PreparedStatement."
  severity := .high
  quickFix := "Use connection.prepareStatement() with ? placeholders."
  languages := some [.java]

def javaExec : LineCheck where
  name := "java_runtime_exec"
  concern := .sanitization
  trigger := .alt
    (sequence [.wordEdge, word "Runtime.getRuntime().exec", opening])
    (sequence [.wordEdge, word "new", atLeastOne Text.isBlank, word "ProcessBuilder", opening])
  findingMessage := "Operating system command executed from application code."
  severity := .high
  quickFix := "Avoid shelling out; if unavoidable, validate every argument against an allow-list."
  languages := some [.java]

def javaDeserialization : LineCheck where
  name := "java_object_deserialization"
  concern := .sanitization
  trigger := sequence [.wordEdge, word "new", atLeastOne Text.isBlank, word "ObjectInputStream", opening]
  requires := some (wordOf ["ObjectInputFilter", "setObjectInputFilter", "ValidatingObjectInputStream"])
  findingMessage := "Java deserialization without an input filter."
  passMessage := some "Java deserialization is guarded by an input filter."
  severity := .high
  quickFix := "Install an ObjectInputFilter that allow-lists expected classes."
  languages := some [.java]

def javaOutput : LineCheck where
  name := "java_unescaped_output"
  concern := .sanitization
  trigger := sequence [
    word "getWriter().", wordOf ["print", "println", "write"], opening, restOfLine, word "getParameter", opening]
  requires := some (sequence [
    .wordEdge,
    anyOf [
      .seq (word "escapeHtml") (optional (word "4")), .seq (word "Encode.forHtml") (.many Text.isWordChar),
      word "HtmlUtils.htmlEscape"],
    opening])
  findingMessage := "Request parameter written to the response without HTML encoding."
  passMessage := some "Request parameter is HTML-encoded before output."
  severity := .high
  quickFix := "Encode output with OWASP Encoder (Encode.forHtml) or StringEscapeUtils.escapeHtml4."
  languages := some [.java]

def javaScriptEngine : LineCheck where
  name := "java_script_engine_eval"
  concern := .sanitization
  trigger := sequence [.wordEdge, .many Text.isWordChar, .one (charOf "Ee"), word "ngine.eval", opening]
  findingMessage := "ScriptEngine.eval() evaluates dynamic code."
  severity := .high
  quickFix := "Do not evaluate scripts built from request data."
  languages := some [.java]

def pythonRules : List LineCheck := [pythonEval, pythonSql, pythonYaml, pythonPickle, pythonMarkup, pythonShell]
def phpRules : List LineCheck := [phpEval, phpQuery, phpOutput, phpUnserialize, phpInclude]
def javaRules : List LineCheck := [javaStatement, javaExec, javaDeserialization, javaOutput, javaScriptEngine]

/-- The rules of the concern, in order. -/
def rules : List Rule := (pythonRules ++ phpRules ++ javaRules).map .line

end SourceAudit.Catalogue.Sanitization
