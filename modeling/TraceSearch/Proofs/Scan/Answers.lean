import TraceSearch.Proofs.Scan.Cutoff

/-!
# What repeated pulls bring

A scan is pulled again and again under a schedule of cancellation. The answers are the accepted
entries before the first check that observes the cancellation, cut at the limit of the query, then
at most one failure, and then nothing more. Main facts: `answer_underWay` gives every answer of a
scan under way in closed form, and the answers of a whole scan are those of one with nothing taken.
-/

namespace TraceSearch.Scan

/-- The entries of a corpus with their positions. -/
def entries (corpus : List Trace) : List (ℕ × Trace) := corpus.mapIdx fun index t => (index, t)

/-- The answer that yields an entry. -/
def Item.ofEntry (entry : ℕ × Trace) : Item := .found entry.1 entry.2

/-- A scan that has taken `evaluated` entries and yielded `matched` of them. -/
abbrev underWay (query : Query) (evaluated matched : ℕ) (pending : List (ℕ × Trace)) : Scan :=
  ⟨pending, query, evaluated, matched, .running⟩

/-- The scan after a number of pulls. -/
def after (schedule : Schedule) (s : Scan) : ℕ → Scan
  | 0 => s
  | pulls + 1 => after schedule (next schedule s).2 pulls

/-- The answer to a pull that comes after a number of pulls. -/
def answer (schedule : Schedule) (s : Scan) (pulls : ℕ) : Item :=
  (next schedule (after schedule s pulls)).1

variable {schedule : Schedule} {query : Query} {evaluated matched : ℕ}
  {pending rest : List (ℕ × Trace)}

/-! ### One pull -/

theorem atLimit_underWay :
    (underWay query evaluated matched pending).atLimit = true ↔ bound query.limit ≤ matched := by
  simp [atLimit, bound_le_iff]

theorem next_of_bound_le (h : bound query.limit ≤ matched) :
    next schedule (underWay query evaluated matched pending) =
      (.finished, ⟨pending, query, evaluated, matched, .exhausted⟩) := by
  simp only [next, if_pos (atLimit_underWay.2 h)]

theorem next_of_lt_bound (h : matched < bound query.limit) :
    next schedule (underWay query evaluated matched pending) =
      seek schedule query matched evaluated pending := by
  have hlimit : (underWay query evaluated matched pending).atLimit ≠ true :=
    fun hl => not_le_of_gt h (atLimit_underWay.1 hl)
  simp only [next, if_neg hlimit]

theorem seek_of_seen (h : schedule evaluated = true) :
    seek schedule query matched evaluated pending =
      (.failed .cancelled, ⟨pending, query, evaluated, matched, .cancelled⟩) := by
  unfold seek
  exact if_pos h

theorem seek_nil (h : schedule evaluated = false) :
    seek schedule query matched evaluated [] =
      (.finished, ⟨[], query, evaluated, matched, .exhausted⟩) := by
  unfold seek
  rw [h]
  rfl

theorem seek_of_accepts {entry : ℕ × Trace} (h : schedule evaluated = false)
    (ha : query.accepts entry.2 = true) :
    seek schedule query matched evaluated (entry :: rest) =
      (Item.ofEntry entry, underWay query (evaluated + 1) (matched + 1) rest) := by
  rw [seek, h]
  simp only [Bool.false_eq_true, if_false, if_pos ha, Item.ofEntry]

theorem seek_of_rejects {entry : ℕ × Trace} (h : schedule evaluated = false)
    (ha : query.accepts entry.2 = false) :
    seek schedule query matched evaluated (entry :: rest) =
      seek schedule query matched (evaluated + 1) rest := by
  rw [seek, h]
  simp only [Bool.false_eq_true, if_false, ha]

/-! ### All pulls -/

theorem answer_succ (schedule : Schedule) (s : Scan) (pulls : ℕ) :
    answer schedule s (pulls + 1) = answer schedule (next schedule s).2 pulls := rfl

theorem answer_of_not_running {s : Scan} (h : s.phase ≠ .running) (pulls : ℕ) :
    answer schedule s pulls = .finished := by
  have hnext := next_of_not_running schedule h
  induction pulls with
  | zero => exact congrArg Prod.fst hnext
  | succ pulls ih => rw [answer_succ, hnext, ih]

theorem answer_congr {s t : Scan} (h : next schedule s = next schedule t) (pulls : ℕ) :
    answer schedule s pulls = answer schedule t pulls := by
  cases pulls with
  | zero => exact congrArg Prod.fst h
  | succ pulls => rw [answer_succ, answer_succ, h]

/-- A scan whose pull answers `item` and leaves it at rest answers `item` once. -/
theorem answer_of_next_stops {s stopped : Scan} {item : Item}
    (h : next schedule s = (item, stopped)) (hs : stopped.phase ≠ .running) (pulls : ℕ) :
    answer schedule s pulls = [item][pulls]?.getD .finished := by
  cases pulls with
  | zero => exact congrArg Prod.fst h
  | succ pulls => rw [answer_succ, h, answer_of_not_running hs]; rfl

/-! ### The answers in closed form -/

/-- The accepted entries that are taken before the cancellation is seen. -/
noncomputable def hits (schedule : Schedule) (query : Query) (pending : List (ℕ × Trace)) :
    List (ℕ × Trace) :=
  (firstOf schedule.firstSeen pending).filter fun entry => query.accepts entry.2

/-- The cancellation is seen when it comes before the limit, which leaves `room`, is reached and no
later than the end. -/
def Interrupted (schedule : Schedule) (query : Query) (room : ℕ∞) (pending : List (ℕ × Trace)) :
    Prop :=
  ((hits schedule query pending).length : ℕ∞) < room ∧ schedule.firstSeen ≤ pending.length

noncomputable instance (room : ℕ∞) : Decidable (Interrupted schedule query room pending) :=
  inferInstanceAs (Decidable (((hits schedule query pending).length : ℕ∞) < room ∧
    schedule.firstSeen ≤ pending.length))

/-- The answers before the scan has nothing more to say. -/
noncomputable def outputs (schedule : Schedule) (query : Query) (room : ℕ∞)
    (pending : List (ℕ × Trace)) : List Item :=
  (firstOf room (hits schedule query pending)).map Item.ofEntry ++
    if Interrupted schedule query room pending then [.failed .cancelled] else []

@[simp] theorem outputs_zero : outputs schedule query 0 pending = [] := by
  have hi : ¬ Interrupted schedule query 0 pending := fun h => not_lt_zero h.1
  simp [outputs, hi]

theorem outputs_of_seen {room : ℕ∞} (hroom : room ≠ 0) (h : schedule.firstSeen = 0) :
    outputs schedule query room pending = [.failed .cancelled] := by
  have hhits : hits schedule query pending = [] := by simp [hits, h]
  have hi : Interrupted schedule query room pending := by
    refine ⟨?_, by simp [h]⟩
    rw [hhits]
    exact pos_iff_ne_zero.2 hroom
  simp [outputs, hhits, hi]

theorem outputs_nil {room : ℕ∞} (h : schedule.firstSeen ≠ 0) :
    outputs schedule query room [] = [] := by
  have hi : ¬ Interrupted schedule query room [] := fun hi => h (by simpa using hi.2)
  simp [outputs, hits, hi]

section Cons

variable {next : Schedule} {entry : ℕ × Trace} (h : schedule.firstSeen = next.firstSeen + 1)
include h

theorem hits_cons :
    hits schedule query (entry :: rest) =
      if query.accepts entry.2 then entry :: hits next query rest else hits next query rest := by
  rw [hits, h, firstOf_add_one_cons, List.filter_cons]
  rfl

theorem firstSeen_le_length_cons :
    schedule.firstSeen ≤ (entry :: rest).length ↔ next.firstSeen ≤ rest.length := by
  rw [h, List.length_cons, Nat.cast_add_one]
  exact ENat.add_le_add_iff_right ENat.one_ne_top

theorem outputs_of_rejects {room : ℕ∞} (ha : query.accepts entry.2 = false) :
    outputs schedule query room (entry :: rest) = outputs next query room rest := by
  have hhits : hits schedule query (entry :: rest) = hits next query rest := by
    rw [hits_cons h, ha]
    rfl
  have hi : Interrupted schedule query room (entry :: rest) ↔ Interrupted next query room rest := by
    rw [Interrupted, Interrupted, hhits, firstSeen_le_length_cons h]
  rw [outputs, outputs, hhits, if_congr hi rfl rfl]

theorem outputs_of_accepts {room : ℕ∞} (hroom : matched < room)
    (ha : query.accepts entry.2 = true) :
    outputs schedule query (room - matched) (entry :: rest) =
      Item.ofEntry entry :: outputs next query (room - (matched + 1 : ℕ)) rest := by
  have hhits : hits schedule query (entry :: rest) = entry :: hits next query rest := by
    rw [hits_cons h, ha]
    rfl
  have hlength (n : ℕ) :
      ((n + 1 : ℕ) : ℕ∞) < room - matched ↔ (n : ℕ∞) < room - (matched + 1 : ℕ) := by
    cases room with
    | top =>
      rw [ENat.top_sub_natCast, ENat.top_sub_natCast]
      exact iff_of_true (ENat.natCast_lt_top _) (ENat.natCast_lt_top _)
    | coe k =>
      rw [← ENat.natCast_sub, ← ENat.natCast_sub, Nat.cast_lt, Nat.cast_lt]
      omega
  have hi : Interrupted schedule query (room - matched) (entry :: rest) ↔
      Interrupted next query (room - (matched + 1 : ℕ)) rest := by
    rw [Interrupted, Interrupted, hhits, List.length_cons, hlength, firstSeen_le_length_cons h]
  rw [outputs, outputs, hhits, firstOf_sub_cons hroom, if_congr hi rfl rfl]
  rfl

end Cons

theorem answer_of_bound_le (hfull : bound query.limit ≤ matched) (pulls : ℕ) :
    answer schedule (underWay query evaluated matched pending) pulls =
      (outputs (schedule.drop evaluated) query (bound query.limit - matched)
        pending)[pulls]?.getD .finished := by
  rw [answer_of_next_stops (next_of_bound_le hfull) (by simp), tsub_eq_zero_of_le hfull,
    outputs_zero]
  cases pulls <;> rfl

theorem answer_of_seen (hroom : matched < bound query.limit) (hs : schedule evaluated = true)
    (pulls : ℕ) :
    answer schedule (underWay query evaluated matched pending) pulls =
      (outputs (schedule.drop evaluated) query (bound query.limit - matched)
        pending)[pulls]?.getD .finished := by
  have hnext : next schedule (underWay query evaluated matched pending) =
      (.failed .cancelled, ⟨pending, query, evaluated, matched, .cancelled⟩) :=
    (next_of_lt_bound hroom).trans (seek_of_seen hs)
  have hne : bound query.limit - matched ≠ 0 := (tsub_pos_of_lt hroom).ne'
  rw [answer_of_next_stops hnext (by simp),
    outputs_of_seen hne (Schedule.firstSeen_drop_of_seen hs)]

/-- Every answer of a scan under way. The induction is on the entries not taken yet; the schedule
moves along with them, and the room that the limit leaves shrinks with each yield. -/
theorem answer_underWay (pulls : ℕ) :
    answer schedule (underWay query evaluated matched pending) pulls =
      (outputs (schedule.drop evaluated) query (bound query.limit - matched)
        pending)[pulls]?.getD .finished := by
  induction pending generalizing evaluated matched pulls with
  | nil =>
    rcases le_or_gt (bound query.limit) (matched : ℕ∞) with hfull | hroom
    · exact answer_of_bound_le hfull pulls
    cases hs : schedule evaluated with
    | true => exact answer_of_seen hroom hs pulls
    | false =>
      have hpassed := Schedule.firstSeen_drop_of_passed hs
      have hnext := (next_of_lt_bound hroom).trans (seek_nil hs)
      rw [answer_of_next_stops hnext (by simp), outputs_nil (by rw [hpassed]; simp)]
      cases pulls <;> rfl
  | cons entry rest ih =>
    rcases le_or_gt (bound query.limit) (matched : ℕ∞) with hfull | hroom
    · exact answer_of_bound_le hfull pulls
    cases hs : schedule evaluated with
    | true => exact answer_of_seen hroom hs pulls
    | false =>
      have hpassed := Schedule.firstSeen_drop_of_passed hs
      cases ha : query.accepts entry.2 with
      | true =>
        have hnext : next schedule (underWay query evaluated matched (entry :: rest)) =
            (Item.ofEntry entry, underWay query (evaluated + 1) (matched + 1) rest) :=
          (next_of_lt_bound hroom).trans (seek_of_accepts hs ha)
        rw [outputs_of_accepts hpassed hroom ha]
        cases pulls with
        | zero => exact congrArg Prod.fst hnext
        | succ pulls => rw [answer_succ, hnext, ih, List.getElem?_cons_succ]
      | false =>
        -- A rejected entry is skipped within the pull, so the pull is that of the rest.
        have hskip : next schedule (underWay query evaluated matched (entry :: rest)) =
            next schedule (underWay query (evaluated + 1) matched rest) := by
          rw [next_of_lt_bound hroom, next_of_lt_bound hroom, seek_of_rejects hs ha]
        rw [answer_congr hskip, ih, outputs_of_rejects hpassed ha]

/-! ### Yields, failure and end -/

section Outputs

variable {room : ℕ∞} {pulls : ℕ}

theorem outputs_found (h : pulls < (firstOf room (hits schedule query pending)).length) :
    ∃ index t, (outputs schedule query room pending)[pulls]?.getD .finished = .found index t := by
  have hlt : pulls < ((firstOf room (hits schedule query pending)).map Item.ofEntry).length := by
    rwa [List.length_map]
  rw [outputs, List.getElem?_append_left hlt, List.getElem?_eq_getElem hlt, List.getElem_map]
  exact ⟨_, _, rfl⟩

theorem outputs_not_found (h : (firstOf room (hits schedule query pending)).length ≤ pulls) :
    (outputs schedule query room pending)[pulls]?.getD .finished =
      if pulls = (firstOf room (hits schedule query pending)).length ∧
          Interrupted schedule query room pending
      then .failed .cancelled else .finished := by
  rw [outputs, List.getElem?_append_right (by rwa [List.length_map]), List.length_map]
  generalize (firstOf room (hits schedule query pending)).length = yields at h ⊢
  by_cases hi : Interrupted schedule query room pending
  · rcases Nat.eq_or_lt_of_le h with heq | hlt
    · simp [hi, heq]
    · have hpos : pulls - yields ≠ 0 := Nat.sub_ne_zero_of_lt hlt
      have hne : pulls ≠ yields := hlt.ne'
      simp [hi, hpos, hne]
  · simp [hi]

theorem lt_of_outputs_found {index : ℕ} {t : Trace}
    (h : (outputs schedule query room pending)[pulls]?.getD .finished = .found index t) :
    pulls < (firstOf room (hits schedule query pending)).length := by
  by_contra hn
  rw [outputs_not_found (not_lt.1 hn)] at h
  split at h <;> contradiction

theorem outputs_failed {e : QueryError}
    (h : (outputs schedule query room pending)[pulls]?.getD .finished = .failed e) :
    pulls = (firstOf room (hits schedule query pending)).length ∧
      Interrupted schedule query room pending := by
  rcases Nat.lt_or_ge pulls (firstOf room (hits schedule query pending)).length with hlt | hge
  · obtain ⟨index, t, hfound⟩ := outputs_found hlt
    rw [hfound] at h
    contradiction
  · rw [outputs_not_found hge] at h
    split at h
    · assumption
    · contradiction

end Outputs

@[simp] theorem length_entries (corpus : List Trace) : (entries corpus).length = corpus.length :=
  List.length_mapIdx

theorem answer_start (schedule : Schedule) (corpus : List Trace) (query : Query) (pulls : ℕ) :
    answer schedule (start corpus query) pulls =
      (outputs schedule query (bound query.limit) (entries corpus))[pulls]?.getD .finished := by
  have h : answer schedule (underWay query 0 0 (entries corpus)) pulls = _ := answer_underWay pulls
  rwa [Schedule.drop_zero, Nat.cast_zero, tsub_zero] at h

/-- The answers to repeated pulls of a scan, whenever its cancellation comes: the accepted entries
before the first check that observes it, cut at the limit; a failure if that check comes before the
limit is reached and no later than the end; and nothing more from then on. A failure follows the
yields and is followed by nothing, and there is none after as many yields as the limit allows. The
schedule need not be monotone, since no check is made after the first that observes the
cancellation. -/
theorem answers_of_repeated_pulls (schedule : Schedule) (corpus : List Trace) (query : Query) :
    let answerTo := answer schedule (start corpus query)
    let accepted :=
      (firstOf schedule.firstSeen (entries corpus)).filter fun entry => query.accepts entry.2
    (∀ pulls, answerTo pulls =
      ((firstOf (bound query.limit) accepted).map Item.ofEntry ++
        if (accepted.length : ℕ∞) < bound query.limit ∧ schedule.firstSeen ≤ corpus.length
        then [.failed .cancelled] else [])[pulls]?.getD .finished) ∧
    (∀ i j e, answerTo i = .failed e →
      (j < i → ∃ index t, answerTo j = .found index t) ∧ (i < j → answerTo j = .finished)) ∧
    (query.limit ≠ 0 → (∀ k < query.limit, ∃ index t, answerTo k = .found index t) →
      ∀ i e, answerTo i ≠ .failed e) := by
  intro answerTo accepted
  have hanswer (pulls : ℕ) : answerTo pulls =
      (outputs schedule query (bound query.limit) (entries corpus))[pulls]?.getD .finished :=
    answer_start schedule corpus query pulls
  refine ⟨fun pulls => ?_, fun i j e hi => ?_, fun hlimit hall i e hi => ?_⟩
  · have hinterrupted : Interrupted schedule query (bound query.limit) (entries corpus) ↔
        (accepted.length : ℕ∞) < bound query.limit ∧ schedule.firstSeen ≤ corpus.length := by
      rw [Interrupted, length_entries]
      rfl
    rw [hanswer, outputs, if_congr hinterrupted rfl rfl]
    rfl
  · rw [hanswer] at hi
    obtain ⟨hat, hinterrupted⟩ := outputs_failed hi
    constructor
    · intro hj
      rw [hanswer]
      exact outputs_found (hat ▸ hj)
    · intro hj
      rw [hanswer, outputs_not_found (hat ▸ hj.le), if_neg]
      intro h
      omega
  · rw [hanswer] at hi
    obtain ⟨-, hroom, -⟩ := outputs_failed hi
    -- The last yield that the limit allows is an accepted entry, so they are as many as the limit.
    obtain ⟨index, t, hlast⟩ := hall (query.limit - 1) (by omega)
    rw [hanswer] at hlast
    have hyields := lt_of_outputs_found hlast
    have hlength := length_firstOf (bound query.limit) (hits schedule query (entries corpus))
    rw [min_eq_right hroom.le, Nat.cast_inj] at hlength
    refine not_le_of_gt hroom (bound_le_iff.2 ⟨hlimit, ?_⟩)
    omega

end TraceSearch.Scan
