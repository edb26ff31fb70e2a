import TraceSearch.Proofs.Scan.Answers

/-!
# Draining a scan

A drain pulls a scan until it ends and keeps the traces, which a failure loses. Main facts: a drain
with enough pulls gathers all answers of the scan, so the number that bounds the pulls has no
influence; it fails exactly if the cancellation is seen, and else it has the traces that a drain
without any cancellation has.
-/

namespace TraceSearch.Scan

/-- The traces that answers yield up to the end, unless there is a failure. -/
def gather : List Item → Except QueryError (List Trace)
  | [] => .ok []
  | .found _ t :: rest => (gather rest).map (t :: ·)
  | .failed e :: _ => .error e
  | .finished :: _ => .ok []

theorem drain_eq_gather (schedule : Schedule) (pulls : ℕ) (s : Scan) :
    drain schedule pulls s = gather ((List.range pulls).map (answer schedule s)) := by
  induction pulls generalizing s with
  | zero => rfl
  | succ pulls ih =>
    have hanswer : (answer schedule s ∘ Nat.succ) = answer schedule (next schedule s).2 := rfl
    have hfirst : answer schedule s 0 = (next schedule s).1 := rfl
    rw [List.range_succ_eq_map, List.map_cons, List.map_map, hanswer, hfirst, drain]
    rcases next schedule s with ⟨item, s'⟩
    cases item with
    | found index t => simp only [gather, ih]
    | failed e => rfl
    | finished => rfl

theorem gather_range {items : List Item} {pulls : ℕ} (h : items.length ≤ pulls) :
    gather ((List.range pulls).map fun i => items[i]?.getD .finished) = gather items := by
  induction items generalizing pulls with
  | nil =>
    cases pulls with
    | zero => rfl
    | succ pulls => rw [List.range_succ_eq_map, List.map_cons]; rfl
  | cons item rest ih =>
    have hpos : 0 < pulls := Nat.lt_of_lt_of_le (Nat.zero_lt_succ _) h
    obtain ⟨pulls, rfl⟩ := Nat.exists_eq_add_one.2 hpos
    have hrest := ih (Nat.le_of_succ_le_succ h)
    rw [List.range_succ_eq_map, List.map_cons, List.map_map]
    cases item with
    | found index t => exact congrArg (Except.map (t :: ·)) hrest
    | failed e => rfl
    | finished => rfl

@[simp] theorem gather_ofEntry_append (found : List (ℕ × Trace)) (rest : List Item) :
    gather (found.map Item.ofEntry ++ rest) = (gather rest).map (found.map Prod.snd ++ ·) := by
  induction found with
  | nil =>
    rw [List.map_nil, List.nil_append]
    cases gather rest <;> rfl
  | cons entry found ih =>
    have hcons : gather ((entry :: found).map Item.ofEntry ++ rest) =
        (gather (found.map Item.ofEntry ++ rest)).map (entry.2 :: ·) := rfl
    rw [hcons, ih]
    cases gather rest <;> rfl

variable {schedule : Schedule} {query : Query} {room : ℕ∞} {pending : List (ℕ × Trace)}

theorem gather_outputs :
    gather (outputs schedule query room pending) =
      if Interrupted schedule query room pending then .error .cancelled
      else .ok ((firstOf room (hits schedule query pending)).map Prod.snd) := by
  rw [outputs, gather_ofEntry_append]
  split
  · rfl
  · simp [gather, Except.map]

theorem length_outputs_le : (outputs schedule query room pending).length ≤ pending.length + 1 := by
  have hroom := length_firstOf room (hits schedule query pending)
  have hseen := length_firstOf schedule.firstSeen pending
  have hyields : (firstOf room (hits schedule query pending)).length ≤
      (hits schedule query pending).length := Nat.cast_le.1 (hroom.trans_le (min_le_right _ _))
  have htaken : (firstOf schedule.firstSeen pending).length ≤ pending.length :=
    Nat.cast_le.1 (hseen.trans_le (min_le_right _ _))
  have hhits : (hits schedule query pending).length ≤
      (firstOf schedule.firstSeen pending).length := List.length_filter_le _ _
  rw [outputs, List.length_append, List.length_map]
  split
  · rw [List.length_singleton]
    omega
  · rw [List.length_nil]
    omega

@[simp] theorem map_snd_entries (corpus : List Trace) : (entries corpus).map Prod.snd = corpus := by
  simp [entries, List.mapIdx_eq_zipIdx_map, Function.comp_def]

@[simp] theorem map_snd_hits (schedule : Schedule) (query : Query) (corpus : List Trace) :
    (hits schedule query (entries corpus)).map Prod.snd =
      (firstOf schedule.firstSeen corpus).filter query.accepts := by
  have htaken := map_firstOf Prod.snd schedule.firstSeen (entries corpus)
  rw [map_snd_entries] at htaken
  rw [← htaken, List.filter_map]
  rfl

/-- A drain of a corpus, whatever bounds its pulls, as long as the bound exceeds the corpus. -/
theorem drain_start (schedule : Schedule) (corpus : List Trace) (query : Query) {pulls : ℕ}
    (h : corpus.length < pulls) :
    drain schedule pulls (start corpus query) =
      if Interrupted schedule query (bound query.limit) (entries corpus) then .error .cancelled
      else .ok (firstOf (bound query.limit)
        ((firstOf schedule.firstSeen corpus).filter query.accepts)) := by
  have henough : (outputs schedule query (bound query.limit) (entries corpus)).length ≤ pulls := by
    have hle : (outputs schedule query (bound query.limit) (entries corpus)).length ≤
        (entries corpus).length + 1 := length_outputs_le
    rw [length_entries] at hle
    omega
  have hanswers : answer schedule (start corpus query) =
      fun i => (outputs schedule query (bound query.limit) (entries corpus))[i]?.getD .finished :=
    funext (answer_start schedule corpus query)
  rw [drain_eq_gather, hanswers, gather_range henough, gather_outputs, map_firstOf, map_snd_hits]

theorem interrupted_entries {corpus : List Trace} :
    Interrupted schedule query room (entries corpus) ↔
      (((firstOf schedule.firstSeen corpus).filter query.accepts).length : ℕ∞) < room ∧
        schedule.firstSeen ≤ corpus.length := by
  rw [Interrupted, length_entries, ← map_snd_hits, List.length_map]

theorem collect_of_interrupted {corpus : List Trace}
    (h : Interrupted schedule query (bound query.limit) (entries corpus)) :
    collect schedule corpus query = .error .cancelled := by
  rw [collect, drain_start schedule corpus query (Nat.lt_succ_self _), if_pos h]

/-- A scan whose cancellation is not seen collects what it would collect without one: either no
check before the end observes it, or the limit is reached first. -/
theorem collect_of_not_interrupted {corpus : List Trace}
    (h : ¬ Interrupted schedule query (bound query.limit) (entries corpus)) :
    collect schedule corpus query =
      .ok (firstOf (bound query.limit) (corpus.filter query.accepts)) := by
  rw [collect, drain_start schedule corpus query (Nat.lt_succ_self _), if_neg h]
  rw [interrupted_entries, not_and_or, not_lt, not_le] at h
  rcases h with hlimit | hend
  · rw [firstOf_filter_firstOf hlimit]
  · rw [firstOf_of_length_le hend.le]

theorem not_interrupted_never {corpus : List Trace} :
    ¬ Interrupted Schedule.never query room (entries corpus) := by
  intro h
  have hend := h.2
  rw [Schedule.firstSeen_never] at hend
  exact absurd (ENat.natCast_lt_top _) (not_lt_of_ge hend)

theorem collect_never (corpus : List Trace) (query : Query) :
    collect Schedule.never corpus query =
      .ok (firstOf (bound query.limit) (corpus.filter query.accepts)) :=
  collect_of_not_interrupted not_interrupted_never

end TraceSearch.Scan
