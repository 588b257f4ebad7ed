import SourceAudit.Catalogue.Authorization
import SourceAudit.Proofs.Pattern.Pieces

/-!
# Sensitive routes are routes

Two rules look at the registration of routes. One asks for authentication wherever a route is registered, the other for
authorization wherever a sensitive word follows on the same line. The second should speak about no line on which the
first does not, and at no other column.

A line may hold several registrations, and one inside another: a decorator holds the call that follows its `@`. The
leftmost of them need not be the one whose sensitive word was seen first. But a registration ends at the first
parenthesis behind its start. So of two registrations the one that starts first also ends first, and a sensitive word
that follows the later one follows the earlier one too.

Results:
* `Authentication.spans_routeRegistration`: a registration ends at the first parenthesis behind its start.
* `Authentication.stop_le_stop`: of two registrations the one that starts first ends first.
* `Authorization.spans_sensitiveRoute`: a sensitive route is a registration with a sensitive word behind it.
* `Authorization.sensitiveRoute_refines`: the two rules see the same leftmost place.
-/
namespace SourceAudit.Catalogue

open Pattern

/-! ## Registrations -/

namespace Authentication

/-- Patterns that take no parenthesis, and then an opening, take a text with a parenthesis at its end only. -/
theorem takes_of_opening {ps : List Pattern} (hlast : ps.getLast? = some opening)
    (hps : (sequence ps.dropLast).avoids '(' = true) {before : Option Char} {piece rest : List Char}
    (h : (sequence ps).Takes before piece rest) : ∃ head, piece = head ++ ['('] ∧ '(' ∉ head := by
  rw [← List.dropLast_append_getLast? opening hlast, takes_sequence_append] at h
  obtain ⟨front, back, hpiece, hfront, spaces, close, hback, hspaces, hclose⟩ := h
  have hclose : close = ['('] := takes_word.1 hclose
  have hblank : blanks.avoids '(' = true := by decide
  refine ⟨front ++ spaces, by rw [hpiece, hback, hclose, List.append_assoc], ?_⟩
  rw [List.mem_append, not_or]
  exact ⟨not_mem_of_takes hps hfront, not_mem_of_takes hblank hspaces⟩

theorem takes_routeRegistration {before : Option Char} {piece rest : List Char}
    (h : routeRegistration.Takes before piece rest) : ∃ head, piece = head ++ ['('] ∧ '(' ∉ head := by
  rcases h with hcall | hdecorator
  · exact takes_of_opening rfl rfl hcall
  · exact takes_of_opening rfl rfl hdecorator

/-- A registration ends at the first parenthesis behind its start. -/
theorem spans_routeRegistration {text : List Char} {start stop : Nat} (h : routeRegistration.Spans text start stop) :
    start < stop ∧ text[stop - 1]? = some '(' ∧ ∀ i, start ≤ i → i < stop - 1 → text[i]? ≠ some '(' := by
  obtain ⟨pre, piece, rest, rfl, rfl, rfl, htakes⟩ := h
  obtain ⟨head, rfl, hhead⟩ := takes_routeRegistration htakes
  simp only [List.length_append, List.length_singleton, List.append_assoc]
  refine ⟨by omega, ?_, fun i hi hlt hparen => hhead ?_⟩
  · rw [List.getElem?_append_right (by omega), List.getElem?_append_right (by omega),
      show pre.length + (head.length + 1) - 1 - pre.length - head.length = 0 by omega]
    rfl
  · rw [List.getElem?_append_right hi, List.getElem?_append_left (by omega)] at hparen
    exact List.mem_of_getElem? hparen

/-- Of two registrations the one that starts first ends first, also if one holds the other. -/
theorem stop_le_stop {text : List Char} {start stop start' stop' : Nat} (h : routeRegistration.Spans text start stop)
    (h' : routeRegistration.Spans text start' stop') (hle : start ≤ start') : stop ≤ stop' := by
  obtain ⟨-, -, hinside⟩ := spans_routeRegistration h
  obtain ⟨hlt', hparen', -⟩ := spans_routeRegistration h'
  by_contra hlt
  exact hinside (stop' - 1) (by omega) (by omega) hparen'

end Authentication

/-! ## Sensitive words -/

namespace Authorization

open Authentication

/-- A sensitive word starts at a place of a line. -/
def SensitiveAt (line : List Char) (place : Nat) : Prop :=
  ∃ word ∈ ["admin", "settings", "config"], word.toList <+: line.drop place

/-- A sensitive route is a registration with a sensitive word behind it. -/
theorem spans_sensitiveRoute {line : List Char} (hline : '\n' ∉ line) {start : Nat} :
    (∃ stop, sensitiveRoute.Spans line start stop) ↔
      ∃ stop place, routeRegistration.Spans line start stop ∧ stop ≤ place ∧ SensitiveAt line place := by
  constructor
  · intro h
    obtain ⟨_, pre, _, rest, hsplit, hstart, _, route, _, hpiece, hroute, gap, last, hlast, _, htakes⟩ := h
    subst hlast hpiece
    obtain ⟨word, hword, rfl⟩ := takes_wordOf.1 htakes
    refine ⟨_, pre.length + route.length + gap.length, ⟨pre, route, _, ?_, hstart, rfl, hroute⟩, by omega, word, hword,
      ?_⟩
    · simp only [hsplit, List.append_assoc]
    · have hdrop : line = (pre ++ route ++ gap) ++ (word.toList ++ rest) := by simp only [hsplit, List.append_assoc]
      rw [hdrop, ← List.length_append, ← List.length_append, List.drop_left]
      exact List.prefix_append _ _
  · intro h
    obtain ⟨stop, place, ⟨pre, route, rest, hsplit, hstart, hstop, hroute⟩, hle, word, hword, tail, htail⟩ := h
    obtain ⟨n, rfl⟩ := Nat.exists_eq_add_of_le hle
    have hrest : rest = rest.take n ++ (word.toList ++ tail) := by
      rw [htail, hsplit, ← hstop, ← List.length_append, ← List.drop_drop, List.drop_left, List.take_append_drop]
    -- The gap in front of the word has no newline, for the line has none.
    have hgap : ∀ c ∈ rest.take n, (c != '\n') = true := by
      intro c hc
      rw [bne_iff_ne]
      rintro rfl
      exact hline (hsplit ▸ List.mem_append_right _ (List.mem_of_mem_take hc))
    refine ⟨_, pre, route ++ (rest.take n ++ word.toList), tail, ?_, hstart, rfl, route, _, rfl, ?_, _, _, rfl, hgap,
      takes_wordOf.2 ⟨word, hword, rfl⟩⟩
    · simp only [List.append_assoc, ← hrest, hsplit]
    · rwa [List.append_assoc, ← hrest]

/-- **A sensitive route is a route, seen at the same place.** On every line the rule on sensitive routes is triggered
exactly if some registration of a route, as a call or as a decorator, ends at a place at or behind which one of the
words `admin`, `settings` and `config` starts. Then the rule that asks routes for authentication is triggered too, and
the leftmost matches of both start at the same column. -/
theorem sensitiveRoute_refines {line : List Char} (hline : '\n' ∉ line) :
    (sensitiveRouteCheck.trigger.occursIn line = true ↔
      ∃ start stop place, routeMiddleware.trigger.Spans line start stop ∧ stop ≤ place ∧ SensitiveAt line place) ∧
    ∀ column, sensitiveRouteCheck.trigger.find? line = some column →
      routeMiddleware.trigger.find? line = some column := by
  constructor
  · rw [occursIn_iff_spans]
    exact exists_congr fun start => spans_sensitiveRoute hline
  · intro column hfind
    obtain ⟨hspan, hleftmost⟩ := find?_eq_some_iff_spans.1 hfind
    obtain ⟨stop, place, hroute, hle, hword⟩ := (spans_sensitiveRoute hline).1 hspan
    refine find?_eq_some_iff_spans.2 ⟨⟨stop, hroute⟩, fun start' stop' hroute' => ?_⟩
    by_contra hlt
    -- An earlier registration would end before the word too, and make a sensitive route that starts earlier.
    have hends : stop' ≤ stop := stop_le_stop hroute' hroute (by omega)
    obtain ⟨_, hspan'⟩ := (spans_sensitiveRoute hline).2 ⟨stop', place, hroute', by omega, hword⟩
    exact hlt (hleftmost start' _ hspan')

/-- A decorator holds the call that follows its `@`. The word follows both, and the column is that of the decorator. -/
theorem sensitiveRoute_refines_decorator :
    let line := "  @app.get ('/admin')".toList
    '\n' ∉ line ∧
      (∃ start stop place, routeMiddleware.trigger.Spans line start stop ∧ stop ≤ place ∧ SensitiveAt line place) ∧
      routeMiddleware.trigger.find? line = some 2 := by
  intro line
  have hline : '\n' ∉ line := by decide
  have hfind : sensitiveRouteCheck.trigger.find? line = some 2 := rfl
  obtain ⟨htrigger, hcolumn⟩ := sensitiveRoute_refines hline
  exact ⟨hline, htrigger.1 rfl, hcolumn 2 hfind⟩

end Authorization
end SourceAudit.Catalogue
