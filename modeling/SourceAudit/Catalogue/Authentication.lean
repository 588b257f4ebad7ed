import SourceAudit.Rule.Basic

/-!
# Authentication rules

Tokens that never expire, secrets in the source, login flows without a state parameter and routes without
authentication.
-/
namespace SourceAudit.Catalogue.Authentication

open Pattern

/-- The subject matter of the concern. -/
def subject : Pattern := wordOf ["authenticate", "login", "passport"]

/-- An opening parenthesis, after blanks. -/
def opening : Pattern := .seq blanks (word "(")

/-- The registration of a route on an application or router, as a call or as a decorator. -/
def routeRegistration : Pattern :=
  .alt
    (sequence [
      .wordEdge, wordOf ["app", "router"], word ".", wordOf ["get", "post", "put", "patch", "delete", "all"],
      opening])
    (sequence [
      word "@", wordOf ["app", "router", "bp", "blueprint"], word ".",
      wordOf ["route", "get", "post", "put", "patch", "delete"], opening])

/-- Something that authenticates the caller of a route. -/
def middleware : Pattern :=
  .seq .wordEdge
    (anyOf [
      wordOf ["isAuthenticated", "requireAuth", "verifyToken", "ensureAuthenticated", "authenticateToken",
        "login_required", "jwt_required"],
      .seq (word "Depends") opening])

def tokenExpiration : LineCheck where
  name := "jwt_token_expiration"
  concern := .authentication
  trigger := sequence [.wordEdge, word "jwt.", wordOf ["sign", "verify", "encode"], opening]
  requires := some (anyOf [
    word "expiresIn", word "expires_in", sequence [.wordEdge, word "exp", blanks, word ":"],
    sequence [.one (charOf "'\""), word "exp", .one (charOf "'\"")]])
  findingMessage := "JWT tokens should have an expiration time."
  passMessage := some "JWT token expiration is properly set."
  severity := .high
  quickFix := "Set expiresIn (or an 'exp' claim) to a short lifetime when issuing tokens."

def sessionSecret : LineCheck where
  name := "session_secret_strength"
  concern := .authentication
  trigger := sequence [
    .wordEdge, wordOf ["secret", "SECRET_KEY", "secret_key"], blanks,
    .alt (word ":") (.seq (word "=") (.notBefore (· == '=')))]
  requires := some (anyOf [
    word "process.env", word "os.environ", word "getenv", sequence [.wordEdge, word "config", .wordEdge],
    .seq .wordEdge (word "settings."), sequence [word "secrets.token_", atLeastOne Text.isWordChar, word "("]])
  findingMessage := "Session secret should be a long, random value loaded from the environment."
  passMessage := some "Session secret is properly configured."
  severity := .high
  quickFix := "Generate a random secret and load it from an environment variable or secret store."

def oauthState : LineCheck where
  name := "oauth_state_parameter"
  concern := .authentication
  trigger := wordOf ["oauth", "OAuth"]
  requires := some (sequence [.wordEdge, word "state", blanks, .one (charOf ":=")])
  findingMessage := "OAuth implementation should use state parameter to prevent CSRF."
  passMessage := some "OAuth state parameter is properly used."
  quickFix := "Generate a per-request state value and verify it on the callback."

def routeMiddleware : LineCheck where
  name := "route_authentication_middleware"
  concern := .authentication
  trigger := routeRegistration
  requires := some middleware
  findingMessage := "Route may not be properly protected with authentication middleware."
  passMessage := some "Route is properly protected with authentication middleware."
  quickFix := "Add authentication middleware (e.g. requireAuth) to the route definition."

/-- The rules of the concern, in order. -/
def rules : List Rule := [.line tokenExpiration, .line sessionSecret, .line oauthState, .line routeMiddleware]

end SourceAudit.Catalogue.Authentication
