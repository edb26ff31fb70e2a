import TraceSearch.Decimal.Integer
import TraceSearch.Trace.View

/-!
# Positions in a corpus

Traces are named by their position in the corpus and spans by their position in the trace, counted
across its resources and scopes. Main facts: a lookup answers exactly for positions within the
bounds, and a failed one names the position and the bound.

Source: `App::trace`, `App::span` and `Corpus::span`.
-/

namespace TraceSearch

/-- Why a position names nothing. -/
inductive LookupError where
  | traceOutOfRange (index count : Nat)
  | spanOutOfRange (trace index count : Nat)
deriving DecidableEq

def LookupError.message : LookupError → String
  | traceOutOfRange index count =>
    "trace index " ++ Decimal.integer index ++ " out of range (corpus has " ++
      Decimal.integer count ++ " traces)"
  | spanOutOfRange trace index count =>
    "span index " ++ Decimal.integer index ++ " out of range (trace " ++ Decimal.integer trace ++
      " has " ++ Decimal.integer count ++ " spans)"

namespace Corpus

def trace (corpus : List Trace) (index : Nat) : Except LookupError Trace :=
  match corpus[index]? with
  | some t => .ok t
  | none => .error (.traceOutOfRange index corpus.length)

/-- The span at a position of the trace at a position. -/
def span (corpus : List Trace) (traceIndex index : Nat) : Except LookupError PlacedSpan :=
  match trace corpus traceIndex with
  | .error e => .error e
  | .ok t =>
    match t.spans[index]? with
    | some s => .ok s
    | none => .error (.spanOutOfRange traceIndex index t.spanCount)

theorem trace_eq_ok_iff {corpus : List Trace} {index : Nat} {t : Trace} :
    trace corpus index = .ok t ↔ corpus[index]? = some t := by
  unfold trace
  split <;> simp_all

theorem trace_of_length_le {corpus : List Trace} {index : Nat} (h : corpus.length ≤ index) :
    trace corpus index = .error (.traceOutOfRange index corpus.length) := by
  simp [trace, List.getElem?_eq_none h]

theorem span_of_length_le {corpus : List Trace} {traceIndex index : Nat} {t : Trace}
    (ht : trace corpus traceIndex = .ok t) (h : t.spanCount ≤ index) :
    span corpus traceIndex index = .error (.spanOutOfRange traceIndex index t.spanCount) := by
  rw [← Trace.length_spans] at h
  simp [span, ht, List.getElem?_eq_none h]

end Corpus

end TraceSearch
