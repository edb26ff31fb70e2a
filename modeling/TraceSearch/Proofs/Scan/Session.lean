import TraceSearch.Proofs.Scan.Answers

/-!
# Sessions with a scan

A session is a scan together with the token it watches and the answers it has given. What happens
to it is a list of actions: the token is cancelled between two pulls, or the scan is pulled and the
token may be cancelled while the pull is under way. Main facts: `next_cases` says all that a pull
can do, and `Accounts` is what any sequence of actions leaves true of the counters and the answers.
-/

namespace TraceSearch.Scan

variable {schedule : Schedule} {query : Query} {corpus : List Trace} {answers : List Item}

/-! ### What a pull can do -/

/-- The entries before the end of a pull are taken and rejected. -/
structure Skips (query : Query) (pending skipped rest : List (ℕ × Trace)) : Prop where
  split : pending = skipped ++ rest
  rejects : ∀ entry ∈ skipped, query.accepts entry.2 = false

/-- All that a pull of a scan can do, with the answer and the scan that it leaves: nothing, as the
scan is at rest; notice the limit, a cancellation or the end; or yield an entry. -/
inductive Pull (schedule : Schedule) : Scan → Item → Scan → Prop where
  | atRest {s : Scan} (rest : s.phase ≠ .running) : Pull schedule s .finished s
  | full {query : Query} {evaluated matched : ℕ} {pending : List (ℕ × Trace)}
      (reached : bound query.limit ≤ matched) :
      Pull schedule (underWay query evaluated matched pending) .finished
        ⟨pending, query, evaluated, matched, .exhausted⟩
  | interrupted {query : Query} {evaluated matched : ℕ} {pending skipped rest : List (ℕ × Trace)}
      (skips : Skips query pending skipped rest)
      (seen : schedule (evaluated + skipped.length) = true) :
      Pull schedule (underWay query evaluated matched pending) (.failed .cancelled)
        ⟨rest, query, evaluated + skipped.length, matched, .cancelled⟩
  | ended {query : Query} {evaluated matched : ℕ} {pending skipped : List (ℕ × Trace)}
      (skips : Skips query pending skipped []) :
      Pull schedule (underWay query evaluated matched pending) .finished
        ⟨[], query, evaluated + skipped.length, matched, .exhausted⟩
  | yields {query : Query} {evaluated matched : ℕ} {pending skipped rest : List (ℕ × Trace)}
      {entry : ℕ × Trace} (skips : Skips query pending skipped (entry :: rest))
      (accepts : query.accepts entry.2 = true) (room : matched < bound query.limit) :
      Pull schedule (underWay query evaluated matched pending) (Item.ofEntry entry)
        (underWay query (evaluated + skipped.length + 1) (matched + 1) rest)

/-- The ways in which a search for the next entry can end, after the entries it skips. -/
theorem seek_cases (schedule : Schedule) (query : Query) (matched evaluated : ℕ)
    (pending : List (ℕ × Trace)) :
    ∃ skipped rest, Skips query pending skipped rest ∧
      ((schedule (evaluated + skipped.length) = true ∧
          seek schedule query matched evaluated pending =
            (.failed .cancelled,
              ⟨rest, query, evaluated + skipped.length, matched, .cancelled⟩)) ∨
        (rest = [] ∧ seek schedule query matched evaluated pending =
          (.finished, ⟨[], query, evaluated + skipped.length, matched, .exhausted⟩)) ∨
        ∃ entry tail, rest = entry :: tail ∧ query.accepts entry.2 = true ∧
          seek schedule query matched evaluated pending =
            (Item.ofEntry entry,
              underWay query (evaluated + skipped.length + 1) (matched + 1) tail)) := by
  induction pending generalizing evaluated with
  | nil =>
    cases hs : schedule evaluated with
    | true => exact ⟨[], [], ⟨rfl, by simp⟩, .inl ⟨hs, seek_of_seen hs⟩⟩
    | false => exact ⟨[], [], ⟨rfl, by simp⟩, .inr (.inl ⟨rfl, seek_nil hs⟩)⟩
  | cons entry pending ih =>
    cases hs : schedule evaluated with
    | true => exact ⟨[], entry :: pending, ⟨rfl, by simp⟩, .inl ⟨hs, seek_of_seen hs⟩⟩
    | false =>
      cases ha : query.accepts entry.2 with
      | true =>
        refine ⟨[], entry :: pending, ⟨rfl, by simp⟩, .inr (.inr ⟨entry, pending, rfl, ha, ?_⟩)⟩
        exact seek_of_accepts hs ha
      | false =>
        obtain ⟨skipped, rest, hskips, hcases⟩ := ih (evaluated + 1)
        have hcount : evaluated + 1 + skipped.length = evaluated + (entry :: skipped).length := by
          rw [List.length_cons]
          omega
        rw [← seek_of_rejects hs ha, hcount] at hcases
        refine ⟨entry :: skipped, rest, ⟨by rw [hskips.split, List.cons_append], ?_⟩, hcases⟩
        intro other hother
        rcases List.mem_cons.1 hother with rfl | hother
        · exact ha
        · exact hskips.rejects other hother

theorem next_cases (schedule : Schedule) (s : Scan) :
    Pull schedule s (next schedule s).1 (next schedule s).2 := by
  by_cases hrun : s.phase = .running
  · obtain ⟨pending, query, evaluated, matched, phase⟩ := s
    cases hrun
    rcases le_or_gt (bound query.limit) (matched : ℕ∞) with hfull | hroom
    · rw [next_of_bound_le hfull]
      exact .full hfull
    · rw [next_of_lt_bound hroom]
      obtain ⟨skipped, rest, hskips, hcases⟩ := seek_cases schedule query matched evaluated pending
      rcases hcases with ⟨hs, heq⟩ | ⟨rfl, heq⟩ | ⟨entry, tail, rfl, ha, heq⟩
      · rw [heq]
        exact .interrupted hskips hs
      · rw [heq]
        exact .ended hskips
      · rw [heq]
        exact .yields hskips ha hroom
  · rw [next_of_not_running schedule hrun]
    exact .atRest hrun

/-! ### What a pull preserves -/

/-- The entry that an answer yields. -/
def Item.entry? : Item → Option (ℕ × Trace)
  | .found index t => some (index, t)
  | .failed _ | .finished => none

/-- The entries that a scan has taken. -/
def taken (corpus : List Trace) (s : Scan) : List (ℕ × Trace) := (entries corpus).take s.evaluated

/-- The books of a scan: what its counters and its answers so far say about the corpus. -/
structure Accounts (corpus : List Trace) (query : Query) (s : Scan) (answers : List Item) :
    Prop where
  query_eq : s.query = query
  evaluated_le : s.evaluated ≤ corpus.length
  pending_eq : (entries corpus).drop s.evaluated = s.pending
  yields_eq : answers.filterMap Item.entry? =
    (taken corpus s).filter fun entry => query.accepts entry.2
  matched_eq : s.matched = (answers.filterMap Item.entry?).length
  matched_le : s.matched ≤ bound query.limit
  last_taken : ∀ entry, answers.getLast? = some (Item.ofEntry entry) →
    (taken corpus s).getLast? = some entry
  running_iff : s.phase = .running ↔ ∀ item ∈ answers, item.entry? ≠ none
  cancelled_iff : s.phase = .cancelled ↔ .failed .cancelled ∈ answers

theorem accounts_start (corpus : List Trace) (query : Query) :
    Accounts corpus query (start corpus query) [] where
  query_eq := rfl
  evaluated_le := Nat.zero_le _
  pending_eq := rfl
  yields_eq := rfl
  matched_eq := rfl
  matched_le := zero_le
  last_taken := by simp
  running_iff := by simp [start]
  cancelled_iff := by simp [start]

theorem take_of_drop_eq_append {α : Type} {xs front rest : List α} {n : ℕ}
    (hn : n ≤ xs.length) (h : xs.drop n = front ++ rest) :
    xs.take (n + front.length) = xs.take n ++ front ∧ xs.drop (n + front.length) = rest ∧
      n + front.length ≤ xs.length := by
  have hlength := congrArg List.length h
  rw [List.length_drop, List.length_append] at hlength
  refine ⟨?_, ?_, by omega⟩
  · rw [List.take_add, h, List.take_left]
  · rw [← List.drop_drop, h, List.drop_left]

/-- An answer that yields nothing, after entries that were all rejected, keeps the books and puts
the scan to rest. -/
theorem Accounts.stop {s s' : Scan} (h : Accounts corpus query s answers) (item : Item)
    (hitem : item.entry? = none) (hquery : s'.query = s.query) (hmatched : s'.matched = s.matched)
    (hle : s'.evaluated ≤ corpus.length)
    (hpending : (entries corpus).drop s'.evaluated = s'.pending)
    (htaken : ((taken corpus s').filter fun entry => query.accepts entry.2) =
      (taken corpus s).filter fun entry => query.accepts entry.2)
    (hrest : s'.phase ≠ .running)
    (hcancelled : s'.phase = .cancelled ↔ .failed .cancelled ∈ answers ++ [item]) :
    Accounts corpus query s' (answers ++ [item]) := by
  have hyields : (answers ++ [item]).filterMap Item.entry? = answers.filterMap Item.entry? := by
    simp [hitem]
  refine ⟨hquery.trans h.query_eq, hle, hpending, ?_, ?_, ?_, ?_, ?_, hcancelled⟩
  · rw [hyields, htaken, h.yields_eq]
  · rw [hyields, hmatched, h.matched_eq]
  · rw [hmatched]
    exact h.matched_le
  · intro entry hlast
    rw [List.getLast?_concat, Option.some.injEq] at hlast
    rw [hlast] at hitem
    exact absurd hitem (by simp [Item.ofEntry, Item.entry?])
  · refine iff_of_false hrest fun hall => ?_
    exact hall item (List.mem_append_right _ (List.mem_singleton_self item)) hitem

theorem Accounts.filter_skips {s : Scan} {skipped rest : List (ℕ × Trace)}
    (h : Accounts corpus query s answers) (hskips : Skips s.query s.pending skipped rest) :
    (entries corpus).take (s.evaluated + skipped.length) = taken corpus s ++ skipped ∧
      (entries corpus).drop (s.evaluated + skipped.length) = rest ∧
      s.evaluated + skipped.length ≤ corpus.length ∧
      skipped.filter (fun entry => query.accepts entry.2) = [] := by
  have hle : s.evaluated ≤ (entries corpus).length := by
    rw [length_entries]
    exact h.evaluated_le
  obtain ⟨htake, hdrop, hcount⟩ := take_of_drop_eq_append hle (h.pending_eq.trans hskips.split)
  rw [length_entries] at hcount
  refine ⟨htake, hdrop, hcount, List.filter_eq_nil_iff.2 fun entry hentry => ?_⟩
  rw [← h.query_eq, hskips.rejects entry hentry]
  exact Bool.false_ne_true

/-- The answer of a pull that yields an entry, entered into the books. -/
theorem Accounts.yield {s : Scan} {skipped rest : List (ℕ × Trace)} {entry : ℕ × Trace}
    (h : Accounts corpus query s answers) (hrun : s.phase = .running)
    (hskips : Skips s.query s.pending skipped (entry :: rest))
    (ha : query.accepts entry.2 = true) (hroom : s.matched < bound query.limit) :
    Accounts corpus query
      (underWay query (s.evaluated + skipped.length + 1) (s.matched + 1) rest)
      (answers ++ [Item.ofEntry entry]) := by
  obtain ⟨htake, hdrop, hcount, hfilter⟩ := h.filter_skips hskips
  have hle : s.evaluated + skipped.length ≤ (entries corpus).length := by
    rw [length_entries]
    exact hcount
  obtain ⟨htake', hdrop', hcount'⟩ :=
    take_of_drop_eq_append hle (hdrop.trans (List.singleton_append).symm)
  rw [length_entries] at hcount'
  have htaken : taken corpus
      (underWay query (s.evaluated + skipped.length + 1) (s.matched + 1) rest) =
        taken corpus s ++ skipped ++ [entry] := htake'.trans (by rw [htake])
  have hyields : (answers ++ [Item.ofEntry entry]).filterMap Item.entry? =
      answers.filterMap Item.entry? ++ [entry] := by
    simp [Item.ofEntry, Item.entry?]
  refine ⟨rfl, hcount', hdrop', ?_, ?_, ?_, ?_, ?_, ?_⟩
  · rw [hyields, htaken, List.filter_append, List.filter_append, hfilter, h.yields_eq]
    simp [ha]
  · rw [hyields, List.length_append, ← h.matched_eq]
    rfl
  · rw [Nat.cast_add_one]
    exact Order.add_one_le_of_lt hroom
  · intro last hlast
    rw [List.getLast?_concat, Option.some.injEq] at hlast
    rw [htaken, List.getLast?_concat]
    exact congrArg Item.entry? hlast
  · refine iff_of_true rfl fun item hitem => ?_
    rcases List.mem_append.1 hitem with hitem | hitem
    · exact h.running_iff.1 hrun item hitem
    · rw [List.mem_singleton.1 hitem]
      simp [Item.ofEntry, Item.entry?]
  · have hnot : Item.failed .cancelled ∉ answers := by
      rw [← h.cancelled_iff, hrun]
      simp
    simp [hnot, Item.ofEntry]

/-- A pull keeps the books, whatever its checks observe. -/
theorem Accounts.next {s : Scan} (h : Accounts corpus query s answers) (schedule : Schedule) :
    Accounts corpus query (Scan.next schedule s).2 (answers ++ [(Scan.next schedule s).1]) := by
  have hnotFinished : Item.failed .cancelled ∈ answers ++ [Item.finished] ↔
      Item.failed .cancelled ∈ answers := by simp
  have hcases := next_cases schedule s
  generalize (Scan.next schedule s).1 = item, (Scan.next schedule s).2 = s' at hcases ⊢
  cases hcases with
  | atRest hrest =>
    exact h.stop .finished rfl rfl rfl h.evaluated_le h.pending_eq rfl hrest
      (h.cancelled_iff.trans hnotFinished.symm)
  | full hreached =>
    have hnot := h.cancelled_iff
    exact h.stop .finished rfl rfl rfl h.evaluated_le h.pending_eq rfl (by simp)
      (by simpa using hnot)
  | interrupted hskips hseen =>
    obtain ⟨htake, hdrop, hcount, hfilter⟩ := h.filter_skips hskips
    refine h.stop (.failed .cancelled) rfl rfl rfl hcount hdrop ?_ (by simp) (by simp)
    rw [taken, htake, List.filter_append, hfilter, List.append_nil]
  | ended hskips =>
    obtain ⟨htake, hdrop, hcount, hfilter⟩ := h.filter_skips hskips
    have hnot := h.cancelled_iff
    refine h.stop .finished rfl rfl rfl hcount hdrop ?_ (by simp) (by simpa using hnot)
    rw [taken, htake, List.filter_append, hfilter, List.append_nil]
  | yields hskips haccepts hroom =>
    cases h.query_eq
    exact h.yield rfl hskips haccepts hroom

/-! ### Sessions -/

/-- What may happen to a session: its token is cancelled between pulls, or the scan is pulled and
the token is cancelled after `delay` further checks, if at all. -/
inductive Action where
  | cancel
  | pull (delay : Option ℕ)

/-- A scan with the state of its token and the answers it has given. -/
structure Session where
  cancelled : Bool
  scan : Scan
  answers : List Item

namespace Session

def start (corpus : List Trace) (query : Query) : Session := ⟨false, Scan.start corpus query, []⟩

/-- What the checks of a pull observe: a token that is cancelled stays so. -/
def observed (s : Session) (delay : Option ℕ) : Schedule :=
  fun j => s.cancelled || delay.any fun d => decide (s.scan.evaluated + d ≤ j)

def act (s : Session) : Action → Session
  | .cancel => { s with cancelled := true }
  | .pull delay =>
    let (item, scan) := next (s.observed delay) s.scan
    ⟨s.cancelled || delay.isSome, scan, s.answers ++ [item]⟩

def run (s : Session) (actions : List Action) : Session := actions.foldl act s

theorem accounts_run {s : Session} (h : Accounts corpus query s.scan s.answers)
    (actions : List Action) :
    Accounts corpus query (s.run actions).scan (s.run actions).answers := by
  induction actions generalizing s with
  | nil => exact h
  | cons action rest ih =>
    cases action with
    | cancel => exact ih h
    | pull delay => exact ih (h.next (s.observed delay))

theorem scan_run_of_not_running {s : Session} (h : s.scan.phase ≠ .running)
    (actions : List Action) : (s.run actions).scan = s.scan := by
  induction actions generalizing s with
  | nil => rfl
  | cons action rest ih =>
    have hact : (s.act action).scan = s.scan := by
      cases action with
      | cancel => rfl
      | pull delay => exact congrArg Prod.snd (next_of_not_running _ h)
    have hrest : ((s.act action).run rest).scan = (s.act action).scan := ih (by rwa [hact])
    exact hrest.trans hact

/-- The accounts of a scan after any pulls and cancellations. The entries taken are a front part of
the corpus, as long as `evaluated` says; the yields are its accepted entries, as many as `matched`
says; the counters keep within the corpus and the limit; the last answer, if it is a yield, is of
the last entry taken; after an answer that is no yield the counters never change; and the scan is
cancelled exactly if it has answered so. -/
theorem accounts_of_session (corpus : List Trace) (query : Query) (actions : List Action) :
    let s := (start corpus query).run actions
    let front := (entries corpus).take s.scan.evaluated
    (front ++ s.scan.pending = entries corpus ∧ front.length = s.scan.evaluated) ∧
    s.scan.matched = (front.filter fun entry => query.accepts entry.2).length ∧
    (s.answers.filterMap Item.entry? = front.filter fun entry => query.accepts entry.2) ∧
    s.scan.matched = (s.answers.filterMap Item.entry?).length ∧
    s.scan.matched ≤ s.scan.evaluated ∧ s.scan.evaluated ≤ corpus.length ∧
    (query.limit ≠ 0 → s.scan.matched ≤ query.limit) ∧
    (∀ entry, s.answers.getLast? = some (Item.ofEntry entry) → front.getLast? = some entry) ∧
    ((∃ item ∈ s.answers, item.entry? = none) → ∀ more,
      (s.run more).scan.evaluated = s.scan.evaluated ∧
        (s.run more).scan.matched = s.scan.matched) ∧
    (s.scan.isCancelled = true ↔ .failed .cancelled ∈ s.answers) := by
  intro s front
  have h : Accounts corpus query s.scan s.answers :=
    accounts_run (accounts_start corpus query) actions
  have hlength : front.length = s.scan.evaluated := by
    have hle := h.evaluated_le
    rw [← length_entries] at hle
    exact List.length_take_of_le hle
  have hyields : s.answers.filterMap Item.entry? =
      front.filter fun entry => query.accepts entry.2 := h.yields_eq
  have hmatched : s.scan.matched = (front.filter fun entry => query.accepts entry.2).length := by
    rw [h.matched_eq, hyields]
  refine ⟨⟨?_, hlength⟩, hmatched, hyields, h.matched_eq, ?_, h.evaluated_le, ?_, h.last_taken, ?_,
    ?_⟩
  · rw [← h.pending_eq]
    exact List.take_append_drop _ _
  · rw [hmatched, ← hlength]
    exact List.length_filter_le _ _
  · intro hlimit
    have hle := h.matched_le
    rwa [bound, if_neg hlimit, Nat.cast_le] at hle
  · rintro ⟨item, hitem, hnone⟩ more
    have hrest : s.scan.phase ≠ .running := fun hrun => h.running_iff.1 hrun item hitem hnone
    rw [scan_run_of_not_running hrest]
    exact ⟨rfl, rfl⟩
  · rw [isCancelled, beq_iff_eq]
    exact h.cancelled_iff

end Session

end TraceSearch.Scan
