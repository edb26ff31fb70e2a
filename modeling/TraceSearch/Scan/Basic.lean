import TraceSearch.Query.Predicate

/-!
# Scans

A scan goes through a corpus once and yields the traces a query accepts, one for each pull. Before
it takes an entry, and before it notices the end, it checks whether it has been cancelled; the check
before the entry of index `j` is check `j`, so a schedule of cancellation is a predicate on these
numbers. A scan that reached its limit, its end or a cancellation stays there. Main facts: a pull
leaves a scan that is no longer running as it is, and counts one evaluation for every entry taken.

Source: `InMemoryTraceReader::scan` and `TraceScan::next`.
-/

namespace TraceSearch

/-- What check number `j` of a scan observes: whether the scan has been cancelled by then. -/
abbrev Schedule := Nat → Bool

/-- Why a scan ends before its corpus does. -/
inductive QueryError where
  | cancelled
deriving DecidableEq

def QueryError.message : QueryError → String
  | cancelled => "query cancelled"

namespace Scan

/-- How far a scan has come. -/
inductive Phase where
  | running | exhausted | cancelled
deriving DecidableEq

end Scan

/-- A scan under way: the entries it has not taken, its query, and what it has counted. Entries
carry their position in the corpus. -/
structure Scan where
  pending : List (Nat × Trace)
  query : Query
  evaluated : Nat
  matched : Nat
  phase : Scan.Phase

namespace Scan

def start (corpus : List Trace) (query : Query) : Scan :=
  ⟨corpus.mapIdx fun index t => (index, t), query, 0, 0, .running⟩

/-- The answer to a pull. -/
inductive Item where
  | found (index : Nat) (trace : Trace)
  | failed (error : QueryError)
  | finished

def isCancelled (s : Scan) : Bool := s.phase == .cancelled

/-- Whether a scan has yielded as many traces as its query asks for. -/
def atLimit (s : Scan) : Bool := s.query.limit != 0 && decide (s.query.limit ≤ s.matched)

/-- Takes entries up to the first that the query accepts. -/
def seek (schedule : Schedule) (query : Query) (matched : Nat) :
    Nat → List (Nat × Trace) → Item × Scan
  | evaluated, pending =>
    if schedule evaluated then
      (.failed .cancelled, ⟨pending, query, evaluated, matched, .cancelled⟩)
    else
      match pending with
      | [] => (.finished, ⟨[], query, evaluated, matched, .exhausted⟩)
      | (index, t) :: rest =>
        if query.accepts t then
          (.found index t, ⟨rest, query, evaluated + 1, matched + 1, .running⟩)
        else seek schedule query matched (evaluated + 1) rest
termination_by structural _ pending => pending

def next (schedule : Schedule) (s : Scan) : Item × Scan :=
  match s.phase with
  | .running =>
    if s.atLimit then (.finished, { s with phase := .exhausted })
    else seek schedule s.query s.matched s.evaluated s.pending
  | _ => (.finished, s)

/-- The traces that repeated pulls yield until the scan ends or fails; the number bounds the pulls.
-/
def drain (schedule : Schedule) : Nat → Scan → Except QueryError (List Trace)
  | 0, _ => .ok []
  | pulls + 1, s =>
    match next schedule s with
    | (.found _ t, s) => (drain schedule pulls s).map (t :: ·)
    | (.failed e, _) => .error e
    | (.finished, _) => .ok []

/-- All traces of a corpus that a query accepts, up to its limit, unless the scan is cancelled. -/
def collect (schedule : Schedule) (corpus : List Trace) (query : Query) :
    Except QueryError (List Trace) :=
  drain schedule (corpus.length + 1) (start corpus query)

theorem next_of_not_running {s : Scan} (schedule : Schedule) (h : s.phase ≠ .running) :
    next schedule s = (.finished, s) := by
  unfold next
  split
  · contradiction
  · rfl

end Scan

end TraceSearch
