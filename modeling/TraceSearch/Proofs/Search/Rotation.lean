import TraceSearch.Proofs.Corpus.Synthetic
import TraceSearch.Proofs.Query.Delay
import TraceSearch.Proofs.Search.NumericTag

/-!
# Searching the synthetic corpus

Of the index of a synthetic trace its story keeps only the remainder by three; the rest goes into
ids and into the start. So a trace is the one three places before it, three seconds later. Main
fact: `rotates_with_time`, what a query without a window finds comes back every three traces, and
with a window it does if the window moves along; so the slow requests of the frontend, and the
failures, are the traces at the multiples of three.
-/

namespace TraceSearch.Corpus.Synthetic

theorem story_add_three (index : ℕ) : story (index + 3) = story index := by
  unfold story
  rw [Nat.add_mod_right]

/-- Every story is told again after three seconds. -/
theorem delayed_placed {index position : ℕ} (hindex : index < 2 ^ 32) {scene : Scene}
    (hscene : scene.offset + scene.length ≤ 300) :
    (placed index position scene).Delayed ⟨3000000000⟩ (placed (index + 3) position scene) := by
  obtain ⟨hstart, hstop⟩ := toNat_times (Nat.lt_add_right 3 hindex) hscene position
  obtain ⟨hstart', hstop'⟩ := toNat_times (Nat.add_lt_add_right hindex 3) hscene position
  constructor
  case resource => rfl
  case name => rfl
  case attributes => rfl
  case code => rfl
  all_goals
    simp only [Span.startNanos, Duration.greatest64, hstart, hstop, hstart', hstop', storyNanos]
    omega

theorem delayed_trace {index : ℕ} (hindex : index < 2 ^ 32) :
    (trace index).Delayed ⟨3000000000⟩ (trace (index + 3)) := by
  rw [Trace.Delayed, spans_trace, spans_trace, story_add_three, List.forall₂_iff_get]
  refine ⟨by simp only [List.length_mapIdx], fun position hposition _ => ?_⟩
  simp only [List.get_eq_getElem, List.getElem_mapIdx]
  exact delayed_placed hindex ((sound_story index).brief _ (List.getElem_mem _))

section Verdicts

variable {q : Query} {index n : ℕ}

theorem accepts_trace_add_three (hindex : index < 2 ^ 32) (hleast : q.startMin = none)
    (hgreatest : q.startMax = none) : q.accepts (trace (index + 3)) = q.accepts (trace index) := by
  have h := Query.accepts_delayed (q := q) (by rw [hleast]; nofun) (by rw [hgreatest]; nofun)
    (delayed_trace hindex)
  rwa [Query.delayed_of_no_window hleast hgreatest] at h

/-- Without a window the verdicts on the three stories are all verdicts. -/
theorem accepts_trace_mod (hindex : index < 2 ^ 32) (hleast : q.startMin = none)
    (hgreatest : q.startMax = none) : q.accepts (trace index) = q.accepts (trace (index % 3)) := by
  induction index using Nat.strongRecOn with
  | ind index ih =>
    rcases Nat.lt_or_ge index 3 with hlt | hge
    · rw [Nat.mod_eq_of_lt hlt]
    · obtain ⟨earlier, rfl⟩ := Nat.exists_eq_add_of_le' hge
      have hearlier : earlier < 2 ^ 32 := Nat.lt_of_add_right_lt hindex
      rw [accepts_trace_add_three hearlier hleast hgreatest, Nat.add_mod_right]
      exact ih earlier (Nat.lt_add_of_pos_right (Nat.zero_lt_succ 2)) hearlier

/-- The traces at the multiples of three, in their order. -/
def everyThird (n : ℕ) : List Trace := ((List.range n).filter (3 ∣ ·)).map trace

/-- A query that of the three stories accepts the first finds it wherever it is told. -/
theorem collect_everyThird (hn : n ≤ 2 ^ 32) (hleast : q.startMin = none)
    (hgreatest : q.startMax = none) (hlimit : q.limit = 0)
    (hstories : ∀ index < 3, q.accepts (trace index) = decide (index = 0)) :
    Scan.collect Schedule.never (generate n) q = .ok (everyThird n) := by
  have hverdict : ∀ index ∈ List.range n, q.accepts (trace index) = decide (3 ∣ index) := by
    intro index hindex
    have hlt := Nat.lt_of_lt_of_le (List.mem_range.1 hindex) hn
    rw [accepts_trace_mod hlt hleast hgreatest, hstories _ (Nat.mod_lt index (Nat.zero_lt_succ 2))]
    exact decide_eq_decide.2 (Nat.dvd_iff_mod_eq_zero).symm
  have hfound : (List.range n).filter (q.accepts ∘ trace) = (List.range n).filter (3 ∣ ·) :=
    List.filter_congr hverdict
  rw [Scan.collect_never, hlimit, bound, if_pos rfl, firstOf_top, generate, List.filter_map, hfound,
    everyThird]

end Verdicts

section Searches

/-- Requests to the frontend of at least 250 milliseconds, as an intent and as a query. -/
def slowFrontend : Intent :=
  { Intent.empty with service := some "frontend", minDuration := some "250ms" }

def slowFrontendQuery : Query :=
  { Query.unconstrained with service := "frontend", durationMin := ⟨250000000⟩ }

/-- Requests with a failure, as an intent and as a query. -/
def failures : Intent := .tagged "error" "true"

def failuresQuery : Query := Query.unconstrained.withAttribute "error" "true"

theorem plan_slowFrontend : Search.plan 0 slowFrontend = .ok slowFrontendQuery := rfl

theorem plan_failures : Search.plan 0 failures = .ok failuresQuery := rfl

theorem collect_slowFrontendQuery {n : ℕ} (hn : n ≤ 2 ^ 32) :
    Scan.collect Schedule.never (generate n) slowFrontendQuery = .ok (everyThird n) :=
  collect_everyThird hn rfl rfl rfl (by decide +kernel)

theorem collect_failuresQuery {n : ℕ} (hn : n ≤ 2 ^ 32) :
    Scan.collect Schedule.never (generate n) failuresQuery = .ok (everyThird n) :=
  collect_everyThird hn rfl rfl rfl (by decide +kernel)

/-- Where the assistant states the intent of a query, the search returns what a scan collects. -/
theorem search_everyThird {m : Type → Type} [Monad m] [LawfulMonad m] {s : Service m} {n : ℕ}
    {text : String} {i : Intent} {q : Query} (hcorpus : s.corpus = generate n)
    (hlimit : s.maxResults = 0) (hanswer : s.assistant.extract text = pure (.ok i))
    (hplan : Search.plan 0 i = .ok q)
    (hcollect : Scan.collect Schedule.never (generate n) q = .ok (everyThird n)) :
    s.search Schedule.never text = pure (.ok (everyThird n)) := by
  have houtcome : s.outcome Schedule.never (.ok i) = .ok (everyThird n) := by
    simp only [Service.outcome, hlimit, hplan, hcorpus, hcollect]
    rfl
  rw [Service.search_eq_map, hanswer, map_pure, houtcome]

end Searches

/-- A synthetic trace is accepted by the queries that accept the one three places before it, a
window moved by three seconds. So of any number of traces a search without a limit for the slow
requests of the frontend, or for failures, returns those at the multiples of three. -/
theorem rotates_with_time :
    (∀ (q : Query) (index : ℕ), index < 2 ^ 32 → q.startMin = none → q.startMax = none →
      q.accepts (trace (index + 3)) = q.accepts (trace index)) ∧
    (∀ (q : Query) (index : ℕ), index < 2 ^ 32 → (∀ m ∈ q.startMin, m.Regular) →
      (∀ m ∈ q.startMax, m.Regular) →
      (q.delayed ⟨3 * 10 ^ 9⟩).accepts (trace (index + 3)) = q.accepts (trace index)) ∧
    ∀ n ≤ 2 ^ 32,
      (∀ q ∈ [slowFrontendQuery, failuresQuery],
        Scan.collect Schedule.never (generate n) q = .ok (everyThird n)) ∧
      ∀ i ∈ [slowFrontend, failures], ∀ (m : Type → Type) [Monad m] [LawfulMonad m]
        (s : Service m) (text : String), s.corpus = generate n → s.maxResults = 0 →
        s.assistant.extract text = pure (.ok i) →
        s.search Schedule.never text = pure (.ok (everyThird n)) := by
  refine ⟨fun q index => accepts_trace_add_three, fun q index hindex hleast hgreatest =>
    Query.accepts_delayed hleast hgreatest (delayed_trace hindex), fun n hn => ⟨?_, ?_⟩⟩
  · rw [List.forall_mem_cons, List.forall_mem_singleton]
    exact ⟨collect_slowFrontendQuery hn, collect_failuresQuery hn⟩
  · rw [List.forall_mem_cons, List.forall_mem_singleton]
    constructor
    · intro m _ _ s text hcorpus hlimit hanswer
      exact search_everyThird hcorpus hlimit hanswer plan_slowFrontend
        (collect_slowFrontendQuery hn)
    · intro m _ _ s text hcorpus hlimit hanswer
      exact search_everyThird hcorpus hlimit hanswer plan_failures (collect_failuresQuery hn)

/-- Slow requests to the frontend that start in the first second. -/
def slowFirstSecond : Query :=
  { slowFrontendQuery with
    startMin := some (Instant.ofUnixNanos 1704110400000000000)
    startMax := some (Instant.ofUnixNanos 1704110401000000000) }

/-- Seven synthetic traces and an assistant that takes every text for the slow requests. -/
def sevenTraces : Service Id where
  corpus := generate 7
  assistant := ⟨fun _ => .ok slowFrontend, fun _ => .error .emptyResponse,
    fun _ => .error .emptyResponse⟩
  maxResults := 0

/-- The window has to move along: where it stays, the later trace is not found. -/
theorem rotates_with_time_slowFirstSecond :
    (slowFirstSecond.delayed ⟨3 * 10 ^ 9⟩).accepts (trace 3) = true ∧
      slowFirstSecond.accepts (trace 3) = false ∧
      slowFrontendQuery.accepts (trace (2 ^ 32 - 1 + 3)) =
        slowFrontendQuery.accepts (trace (2 ^ 32 - 1)) ∧
      sevenTraces.search Schedule.never "frontend calls slower than 250ms" =
        .ok [trace 0, trace 3, trace 6] := by
  obtain ⟨hrotates, hmoves, hsearch⟩ := rotates_with_time
  have hleast : ∀ m ∈ slowFirstSecond.startMin, m.Regular := by
    rintro m ⟨⟩
    exact Instant.regular_ofUnixNanos _
  have hgreatest : ∀ m ∈ slowFirstSecond.startMax, m.Regular := by
    rintro m ⟨⟩
    exact Instant.regular_ofUnixNanos _
  have hfirst : slowFirstSecond.accepts (trace 0) = true := by decide +kernel
  have hfound := (hsearch 7 (by decide)).2 slowFrontend List.mem_cons_self Id sevenTraces
    "frontend calls slower than 250ms" rfl rfl rfl
  exact ⟨(hmoves slowFirstSecond 0 (by decide) hleast hgreatest).trans hfirst, by decide +kernel,
    hrotates slowFrontendQuery (2 ^ 32 - 1) (by decide) rfl rfl, hfound⟩

end TraceSearch.Corpus.Synthetic
