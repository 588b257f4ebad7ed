import SourceAudit.Catalogue.Authentication

/-!
# Authorization rules

Role checks written by hand, sensitive routes without a permission check, and authentication mixed with
authorization.
-/
namespace SourceAudit.Catalogue.Authorization

open Pattern

/-- The subject matter of the concern. -/
def subject : Pattern := wordOf ["authorize", "permission", "role"]

/-- What makes a route sensitive. -/
def sensitiveWord : Pattern := wordOf ["admin", "settings", "config"]

/-- The registration of a route with a sensitive word later on the line. -/
def sensitiveRoute : Pattern := sequence [Authentication.routeRegistration, restOfLine, sensitiveWord]

def roleCheck : LineCheck where
  name := "role_permission_check"
  concern := .authorization
  trigger := wordOf ["role", "permission"]
  requires := some (.alt
    (.seq (wordAnyCase "check") (wordOfAnyCase ["Role", "Permission"]))
    (.seq (wordAnyCase "check_") (wordOfAnyCase ["role", "permission"])))
  findingMessage := "Role/Permission checks may not be properly implemented."
  passMessage := some "Role/Permission checks are properly implemented."
  quickFix := "Implement proper role/permission checking functions."

def hardcodedRole : LineCheck where
  name := "hardcoded_role_comparison"
  concern := .authorization
  trigger := sequence [
    word "role", blanks, .one (charOf "!="), word "=", optional (word "="), blanks, .one (charOf "'\""),
    atLeastOne fun c => Text.isWordChar c || c == '-', .one (charOf "'\"")]
  findingMessage := "Hardcoded role checks found. Consider using a more flexible RBAC system."
  severity := .low
  quickFix := "Use a dynamic role checking system instead of hardcoding roles."

def sensitiveRouteCheck : LineCheck where
  name := "sensitive_route_authorization"
  concern := .authorization
  trigger := sensitiveRoute
  requires := some (markers
    ["isAuthorized", "checkPermission", "hasRole", "permission_required", "roles_required"] false)
  findingMessage := "Sensitive route may not be properly protected with authorization checks."
  passMessage := some "Sensitive route is properly protected with authorization checks."
  severity := .high
  quickFix := "Add authorization middleware to protect sensitive routes."

def separation : AdjacentMarkers where
  name := "authentication_authorization_separation"
  concern := .authorization
  first := word "authenticate"
  second := word "authorize"
  findingMessage := "Authentication and authorization should be separate concerns."
  passMessage := "Authentication and authorization are properly separated."
  quickFix := "Separate authentication and authorization logic into different modules or middleware."

/-- The rules of the concern, in order. -/
def rules : List Rule := [.line roleCheck, .line hardcodedRole, .line sensitiveRouteCheck, .adjacent separation]

end SourceAudit.Catalogue.Authorization
