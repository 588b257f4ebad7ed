import SourceAudit.Rule.Basic

/-!
# Cross-origin rules

Settings of cross-origin resource sharing that are open to every origin, method or header, or that allow
credentials.
-/
namespace SourceAudit.Catalogue.Cors

open Pattern

/-- The subject matter of the concern. -/
def subject : Pattern := wordAnyCase "cors"

/-- A name in any case, assigned or given as a member. -/
def assigned (name : Pattern) : Pattern := sequence [.wordEdge, name, blanks, .one (charOf ":=")]

/-- An asterisk between quotes. -/
def quotedWildcard : Pattern := sequence [.one (charOf "'\""), word "*", .one (charOf "'\"")]

/-- A call of `cors` without arguments. -/
def bareCall : Pattern := sequence [.wordEdge, word "cors(", blanks, word ")"]

def wildcardOrigin : LineCheck where
  name := "cors_wildcard_origin"
  concern := .cors
  trigger := anyOf [
    wordAnyCase "cors", assigned (.seq (wordAnyCase "origin") (optional (wordAnyCase "s"))),
    wordAnyCase "allow_origins", wordAnyCase "Access-Control-Allow-Origin"]
  forbids := some (.alt quotedWildcard bareCall)
  findingMessage := "CORS allows all origins (*). This is potentially insecure."
  passMessage := some "CORS origin is properly configured."
  severity := .high
  quickFix := "Specify allowed origins explicitly instead of using \"*\"."

def wildcardMethods : LineCheck where
  name := "cors_wildcard_methods"
  concern := .cors
  trigger := anyOf [
    assigned (wordAnyCase "methods"), wordAnyCase "allow_methods", wordAnyCase "Access-Control-Allow-Methods"]
  forbids := some (word "*")
  findingMessage := "CORS allows all methods (*). This is potentially insecure."
  passMessage := some "CORS methods are properly configured."
  quickFix := "Specify allowed methods explicitly instead of using \"*\"."

def wildcardHeaders : LineCheck where
  name := "cors_wildcard_headers"
  concern := .cors
  trigger := anyOf [
    assigned (wordAnyCase "allowedHeaders"), wordAnyCase "allow_headers",
    wordAnyCase "Access-Control-Allow-Headers"]
  forbids := some (word "*")
  findingMessage := "CORS allows all headers (*). This is potentially insecure."
  passMessage := some "CORS headers are properly configured."
  quickFix := "Specify allowed headers explicitly instead of using \"*\"."

def credentials : LineCheck where
  name := "cors_credentials"
  concern := .cors
  trigger := anyOf [
    assigned (wordAnyCase "credentials"), wordAnyCase "allow_credentials", wordAnyCase "supports_credentials",
    wordAnyCase "Access-Control-Allow-Credentials"]
  forbids := some (sequence [.wordEdge, wordAnyCase "true", .wordEdge])
  findingMessage := "CORS allows credentials. Ensure this is necessary and origins are strictly limited."
  passMessage := some "CORS credentials are properly configured."
  severity := .low
  quickFix := "Only enable credentials when required, and then restrict origins strictly."

/-- The rules of the concern, in order. -/
def rules : List Rule := [.line wildcardOrigin, .line wildcardMethods, .line wildcardHeaders, .line credentials]

end SourceAudit.Catalogue.Cors
