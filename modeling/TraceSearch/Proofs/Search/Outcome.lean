import TraceSearch.Corpus.Synthetic
import TraceSearch.Proofs.Intent.Meaning
import TraceSearch.Proofs.Scan.Drain
import TraceSearch.Search.Service

/-!
# Outcomes of searches

What a search returns is a function of the assistant's answer and of the schedule of cancellation.
Main facts: a search that is never cancelled returns the first traces of the corpus that satisfy the
intent, as many as were asked for; a cancellation either fails the search or changes nothing.
-/

namespace TraceSearch.Service

section Plan

variable {i : Intent} {limit : ℕ}

theorem plan_of_invalid {e : Intent.ValidationError} (h : i.validate = .error e) :
    Search.plan limit i = .error (.validation e) := by
  rw [Search.plan, h]

/-- A search never fails in mapping, whatever its assistant states. -/
theorem plan_of_valid (h : i.validate = .ok ()) :
    Search.plan limit i = .ok { i.query with limit } := by
  rw [Search.plan, h, Intent.ofIntent_of_validated (Intent.validated h)]

/-- The limit has no part in what a query accepts. -/
theorem accepts_plan (h : i.validate = .ok ()) :
    Query.accepts { i.query with limit } = fun t => decide (i.SatisfiedBy t) := by
  funext t
  have hquery : Query.accepts { i.query with limit } t = i.query.accepts t := rfl
  have hmeaning := Intent.accepts_query_iff (Intent.validated h) t
  rw [hquery, Bool.eq_iff_iff, decide_eq_true_iff]
  exact hmeaning

end Plan

variable {m : Type → Type} {s : Service m} {schedule : Schedule} {i : Intent}

/-- The result of a search once its assistant has answered. -/
def outcome (s : Service m) (schedule : Schedule) :
    Except ExtractionError Intent → Except SearchError (List Trace)
  | .error e => .error (.extraction e)
  | .ok i =>
    match Search.plan s.maxResults i with
    | .error e => .error e
    | .ok q => (Scan.collect schedule s.corpus q).mapError .query

theorem search_eq_map [Monad m] [LawfulMonad m] (s : Service m) (schedule : Schedule)
    (text : String) : s.search schedule text = s.outcome schedule <$> s.assistant.extract text := by
  rw [search, Search.run, map_eq_pure_bind]
  congr 1
  funext answer
  cases answer with
  | error e => rfl
  | ok i =>
    simp only [outcome]
    cases Search.plan s.maxResults i with
    | error e => rfl
    | ok q => simp only [pure_bind]

theorem outcome_of_valid (h : i.validate = .ok ()) :
    s.outcome schedule (.ok i) =
      (Scan.collect schedule s.corpus { i.query with limit := s.maxResults }).mapError .query := by
  simp only [outcome, plan_of_valid h]

/-- The traces that a search without a cancellation finds. -/
noncomputable def found (s : Service m) (i : Intent) : List Trace :=
  firstOf (bound s.maxResults) (s.corpus.filter fun t => decide (i.SatisfiedBy t))

theorem outcome_never (h : i.validate = .ok ()) :
    s.outcome Schedule.never (.ok i) = .ok (s.found i) := by
  rw [outcome_of_valid h, Scan.collect_never, accepts_plan h]
  rfl

/-- Whether a search sees its cancellation: not if it has enough traces by then, and not if its
corpus ends before. -/
def Interrupted (s : Service m) (schedule : Schedule) (i : Intent) : Prop :=
  (((firstOf schedule.firstSeen s.corpus).filter fun t => decide (i.SatisfiedBy t)).length : ℕ∞) <
      bound s.maxResults ∧
    schedule.firstSeen ≤ s.corpus.length

theorem interrupted_iff (h : i.validate = .ok ()) :
    s.Interrupted schedule i ↔
      Scan.Interrupted schedule { i.query with limit := s.maxResults } (bound s.maxResults)
        (Scan.entries s.corpus) := by
  rw [Scan.interrupted_entries, accepts_plan h, Interrupted]

theorem outcome_of_interrupted (h : i.validate = .ok ()) (hcut : s.Interrupted schedule i) :
    s.outcome schedule (.ok i) = .error (.query .cancelled) := by
  have hscan := (interrupted_iff h).1 hcut
  rw [outcome_of_valid h, Scan.collect_of_interrupted hscan]
  rfl

theorem outcome_of_not_interrupted (h : i.validate = .ok ())
    (hcut : ¬ s.Interrupted schedule i) : s.outcome schedule (.ok i) = .ok (s.found i) := by
  have hscan := mt (interrupted_iff h).2 hcut
  rw [outcome_of_valid h, Scan.collect_of_not_interrupted hscan, accepts_plan h]
  rfl

theorem interrupted_of_seen_first (h : schedule 0 = true) : s.Interrupted schedule i := by
  have hfirst : schedule.firstSeen = 0 := nonpos_iff_eq_zero.1 (Schedule.firstSeen_le h)
  rw [Interrupted, hfirst, firstOf_zero]
  refine ⟨?_, zero_le⟩
  have hroom : ¬ bound s.maxResults ≤ (0 : ℕ) := fun hle => by
    have := bound_le_iff.1 hle
    omega
  exact not_le.1 hroom

theorem not_interrupted_of_limit (hlimit : 0 < s.maxResults)
    (henough : s.maxResults ≤
      ((firstOf schedule.firstSeen s.corpus).filter fun t => decide (i.SatisfiedBy t)).length) :
    ¬ s.Interrupted schedule i := by
  intro hcut
  have hroom := bound_le_iff.2 ⟨Nat.ne_of_gt hlimit, henough⟩
  exact absurd hcut.1 (not_lt_of_ge hroom)

/-- A search that is never cancelled is sound and complete: it returns, in the order of the corpus,
the first traces that satisfy the intent, all of them if there is no limit. -/
theorem search_never_cancelled [Monad m] [LawfulMonad m] (s : Service m) (text : String) :
    s.search Schedule.never text = do
      match ← s.assistant.extract text with
      | .error e => return .error (.extraction e)
      | .ok i =>
        match i.validate with
        | .error e => return .error (.validation e)
        | .ok () =>
          return .ok (firstOf (bound s.maxResults)
            (s.corpus.filter fun t => decide (i.SatisfiedBy t))) := by
  rw [search_eq_map, map_eq_pure_bind]
  congr 1
  funext answer
  cases answer with
  | error e => rfl
  | ok i =>
    cases h : i.validate with
    | error e => simp only [outcome, plan_of_invalid h, h]
    | ok u => simp only [outcome_never h, found, h]

/-- The payments that failed in a trace with a span of at least 200 milliseconds. -/
def failedPayment : Intent :=
  { Intent.empty with
    service := some "payment-svc"
    minDuration := some "200ms"
    tags := ⟨[("error", "true")], List.pairwise_singleton _ _⟩ }

/-- A search of four synthetic traces with an assistant that always states the same intent. -/
def demonstration (limit : ℕ) : Service Id where
  corpus := Corpus.Synthetic.generate 4
  assistant := ⟨fun _ => .ok failedPayment, fun _ => .error .emptyResponse,
    fun _ => .error .emptyResponse⟩
  maxResults := limit

theorem validate_failedPayment : failedPayment.validate = .ok () := by decide +kernel

theorem filter_failedPayment :
    ((List.range 4).filter fun index =>
      decide (failedPayment.SatisfiedBy (Corpus.Synthetic.trace index))) = [0, 3] := by
  decide +kernel

theorem search_never_cancelled_failedPayment :
    (demonstration 1).search Schedule.never "failed payments" =
      .ok [Corpus.Synthetic.trace 0] := by
  have hanswer : (demonstration 1).assistant.extract "failed payments" =
      pure (.ok failedPayment) := rfl
  have hfound : ((demonstration 1).corpus.filter fun t => decide (failedPayment.SatisfiedBy t)) =
      [Corpus.Synthetic.trace 0, Corpus.Synthetic.trace 3] := by
    show ((List.range 4).map Corpus.Synthetic.trace).filter _ = _
    rw [List.filter_map]
    exact congrArg (List.map Corpus.Synthetic.trace) filter_failedPayment
  have hbound : bound (demonstration 1).maxResults = (1 : ℕ) := rfl
  rw [search_never_cancelled, hanswer, pure_bind]
  simp only [validate_failedPayment, hfound, hbound, firstOf_coe]
  rfl

/-- Cancellation is all or nothing: a search of a validated intent fails with it, or returns what it
would return without it. -/
theorem search_all_or_nothing [Monad m] [LawfulMonad m] (s : Service m) :
    (∀ schedule text,
      s.search schedule text = s.outcome schedule <$> s.assistant.extract text) ∧
    ∀ i, i.validate = .ok () → ∃ traces, s.outcome Schedule.never (.ok i) = .ok traces ∧
      ∀ schedule : Schedule,
        (s.outcome schedule (.ok i) = .error (.query .cancelled) ∨
          s.outcome schedule (.ok i) = .ok traces) ∧
        (schedule 0 = true → s.outcome schedule (.ok i) = .error (.query .cancelled)) ∧
        (0 < s.maxResults →
          s.maxResults ≤ ((firstOf schedule.firstSeen s.corpus).filter fun t =>
            decide (i.SatisfiedBy t)).length →
          s.outcome schedule (.ok i) = .ok traces) := by
  refine ⟨search_eq_map s, fun i h => ⟨s.found i, outcome_never h, fun schedule => ?_⟩⟩
  refine ⟨?_, ?_, ?_⟩
  · by_cases hcut : s.Interrupted schedule i
    · exact Or.inl (outcome_of_interrupted h hcut)
    · exact Or.inr (outcome_of_not_interrupted h hcut)
  · intro hseen
    exact outcome_of_interrupted h (interrupted_of_seen_first hseen)
  · intro hlimit henough
    exact outcome_of_not_interrupted h (not_interrupted_of_limit hlimit henough)

theorem search_all_or_nothing_failedPayment :
    ∃ traces, (demonstration 1).search Schedule.never "failed payments" = .ok traces ∧
      (demonstration 1).search (fun j => decide (1 ≤ j)) "failed payments" = .ok traces ∧
      (demonstration 1).search (fun _ => true) "failed payments" =
        .error (.query .cancelled) := by
  obtain ⟨hsearch, hanswers⟩ := search_all_or_nothing (demonstration 1)
  obtain ⟨traces, hnever, hcut⟩ := hanswers failedPayment validate_failedPayment
  have hseen : Schedule.firstSeen (fun j => decide (1 ≤ j)) = (1 : ℕ) :=
    le_antisymm (Schedule.firstSeen_le rfl)
      (Schedule.le_firstSeen_iff.2 fun j hj => Nat.cast_le.2 (of_decide_eq_true hj))
  refine ⟨traces, ?_, ?_, ?_⟩
  · rw [hsearch]
    exact hnever
  · rw [hsearch]
    refine (hcut _).2.2 Nat.one_pos ?_
    rw [hseen, firstOf_coe]
    decide +kernel
  · rw [hsearch]
    exact (hcut _).2.1 rfl

end TraceSearch.Service
