import TraceSearch.Proofs.Search.Outcome
import TraceSearch.Proofs.Text.Order

/-!
# What a search asks of its source

A source of traces can be watched by keeping the queries it is asked. Main fact: a search asks once
if its assistant states a valid intent and never otherwise, and the query it asks keeps the bounds,
the tags and the limit that validation and the caller stand for.
-/

namespace TraceSearch

namespace Search

variable {m : Type → Type} [Monad m]

/-- An assistant in a computation that also carries a state, which the assistant leaves alone. -/
def carrying (σ : Type) (a : Assistant m) : Assistant (StateT σ m) where
  extract text := StateT.lift (a.extract text)
  explainTrace context := StateT.lift (a.explainTrace context)
  explainSpan context := StateT.lift (a.explainSpan context)

/-- A source that also keeps the queries it is asked, in their order. -/
def watched (source : Query → m (Except QueryError (List Trace))) (q : Query) :
    StateT (List Query) m (Except QueryError (List Trace)) :=
  fun asked => source q >>= fun traces => pure (traces, asked ++ [q])

/-- The queries of a search once its assistant has answered. -/
def asked (limit : ℕ) : Except ExtractionError Intent → List Query
  | .error _ => []
  | .ok i =>
    match plan limit i with
    | .error _ => []
    | .ok q => [q]

theorem run_watched [LawfulMonad m] (a : Assistant m)
    (source : Query → m (Except QueryError (List Trace))) (limit : ℕ) (text : String)
    (before : List Query) :
    (run (carrying (List Query) a) (watched source) limit text).run before = do
      match ← a.extract text with
      | .error e => return (.error (.extraction e), before)
      | .ok i =>
        match plan limit i with
        | .error e => return (.error e, before)
        | .ok q => return ((← source q).mapError .query, before ++ [q]) := by
  rw [run, StateT.run_bind]
  show (a.extract text >>= fun answer => pure (answer, before)) >>= _ = _
  rw [bind_assoc]
  congr 1
  funext answer
  rw [pure_bind]
  cases answer with
  | error e => rfl
  | ok i =>
    dsimp only
    cases plan limit i with
    | error e => rfl
    | ok q =>
      show (source q >>= fun traces => pure (traces, before ++ [q])) >>= _ = _
      rw [bind_assoc]
      congr 1
      funext traces
      rw [pure_bind]
      rfl

end Search

namespace Intent

theorem tags_of_checkTags {tags : List (String × String)} (h : checkTags tags = .ok ()) :
    ∀ tag ∈ tags, tag.1 ≠ "" ∧ tag.2 ≠ "" := by
  induction tags with
  | nil => exact List.forall_mem_nil _
  | cons tag rest ih =>
    obtain ⟨key, value⟩ := tag
    unfold checkTags at h
    split at h
    · contradiction
    · rename_i hfilled
      intro tag htag
      rcases List.mem_cons.1 htag with rfl | htag
      · exact not_or.1 hfilled
      · exact ih h tag htag

theorem not_negative_of_checkDuration {part : Part} {literal : Option String} {d : Option Duration}
    (h : checkDuration part literal = .ok d) : Duration.zero ≤ d.getD Duration.zero := by
  cases literal with
  | none =>
    cases h
    exact Int.le_refl _
  | some text =>
    unfold checkDuration at h
    cases hd : Duration.ofLiteral text with
    | error e => simp [hd] at h
    | ok parsed =>
      simp only [hd] at h
      split at h
      · contradiction
      · rename_i hsign
        cases h
        exact Int.not_lt.1 hsign

/-- What the query of an intent keeps once the intent has been validated. -/
structure Guards (i : Intent) (limit : ℕ) (q : Query) : Prop where
  durationMin : Duration.zero ≤ q.durationMin
  durationMax : Duration.zero ≤ q.durationMax
  durations : i.minDuration ≠ none → i.maxDuration ≠ none → q.durationMin ≤ q.durationMax
  distinct : q.attributes.keys.Nodup
  ascending : (q.attributes.keys.map Text.bytes).Pairwise (· < ·)
  filled : ∀ entry ∈ q.attributes.entries,
    entry.1 ≠ "" ∧ ∃ value, value ≠ "" ∧ entry.2 = .string value
  tags : ∀ key value, (key, .string value) ∈ q.attributes.entries ↔ (key, value) ∈ i.tags.entries
  service : q.service = "" → i.service = none
  operation : q.operation = "" → i.operation = none
  startMin : q.startMin = none ↔ i.startTime = none
  startMax : q.startMax = none ↔ i.endTime = none
  limit : q.limit = limit

theorem guards_of_validated {i : Intent} (h : Validated i) (limit : ℕ) :
    Guards i limit { i.query with limit } := by
  have hentries : i.query.attributes.entries =
      i.tags.entries.map fun tag => (tag.1, AttributeValue.string tag.2) :=
    Attributes.entries_ofStrings i.tags.nodup_keys
  have hkeys : i.query.attributes.keys = i.tags.entries.map Prod.fst := by
    rw [Attributes.keys, hentries, List.map_map]
    rfl
  have hfilled := tags_of_checkTags h.tags
  constructor
  case durationMin => exact not_negative_of_checkDuration h.minDuration
  case durationMax => exact not_negative_of_checkDuration h.maxDuration
  case durations =>
    intro hmin hmax
    obtain ⟨least, hleast⟩ := Option.ne_none_iff_exists'.1 hmin
    obtain ⟨greatest, hgreatest⟩ := Option.ne_none_iff_exists'.1 hmax
    obtain ⟨a, ha⟩ := duration?_of_checkDuration (hleast ▸ h.minDuration)
    obtain ⟨b, hb⟩ := duration?_of_checkDuration (hgreatest ▸ h.maxDuration)
    have horder := h.order
    simp only [query, hleast, hgreatest, ha, hb, Option.getD_some, checkOrder] at horder ⊢
    split at horder
    · contradiction
    · rename_i hlt
      exact Int.not_lt.1 hlt
  case distinct =>
    rw [hkeys]
    exact i.tags.nodup_keys
  case ascending =>
    rw [hkeys, List.pairwise_map]
    exact i.tags.ascending.imp Text.lt_iff_bytes_lt.1
  case filled =>
    intro entry hentry
    rw [hentries] at hentry
    obtain ⟨tag, htag, rfl⟩ := List.mem_map.1 hentry
    exact ⟨(hfilled tag htag).1, tag.2, (hfilled tag htag).2, rfl⟩
  case tags =>
    intro key value
    rw [hentries, List.mem_map]
    constructor
    · rintro ⟨tag, htag, heq⟩
      simp only [Prod.mk.injEq, AttributeValue.string.injEq] at heq
      rw [← heq.1, ← heq.2]
      exact htag
    · intro htag
      exact ⟨(key, value), htag, rfl⟩
  case service => exact eq_none_of_getD_eq_empty (ne_empty_of_checkText h.service)
  case operation => exact eq_none_of_getD_eq_empty (ne_empty_of_checkText h.operation)
  case startMin => exact time?_eq_none_iff h.startTime
  case startMax => exact time?_eq_none_iff h.endTime
  case limit => rfl

end Intent

namespace Service

variable {m : Type → Type} [Monad m]

/-- A search whose corpus keeps the queries it is asked. -/
def searchWatched (s : Service m) (schedule : Schedule) (text : String) :
    StateT (List Query) m (Except SearchError (List Trace)) :=
  Search.run (Search.carrying (List Query) s.assistant)
    (Search.watched fun q => pure (Scan.collect schedule s.corpus q)) s.maxResults text

theorem searchWatched_run [LawfulMonad m] (s : Service m) (schedule : Schedule) (text : String) :
    (s.searchWatched schedule text).run [] =
      (fun answer => (s.outcome schedule answer, Search.asked s.maxResults answer)) <$>
        s.assistant.extract text := by
  rw [searchWatched, Search.run_watched, map_eq_pure_bind]
  congr 1
  funext answer
  cases answer with
  | error e => rfl
  | ok i =>
    simp only [outcome, Search.asked]
    cases Search.plan s.maxResults i with
    | error e => rfl
    | ok q => simp only [pure_bind, List.nil_append]

/-- Watching does not change what a search returns. -/
theorem fst_searchWatched [LawfulMonad m] (s : Service m) (schedule : Schedule) (text : String) :
    Prod.fst <$> (s.searchWatched schedule text).run [] = s.search schedule text := by
  rw [searchWatched_run, search_eq_map, Functor.map_map]

/-- The corpus is asked exactly once if the assistant has stated an intent that validation accepts,
and not at all otherwise; a query that it is asked keeps what validation guards. -/
theorem search_asks_once [LawfulMonad m] (s : Service m) (schedule : Schedule) (text : String) :
    Prod.fst <$> (s.searchWatched schedule text).run [] = s.search schedule text ∧
    (s.searchWatched schedule text).run [] =
      (fun answer => (s.outcome schedule answer, Search.asked s.maxResults answer)) <$>
        s.assistant.extract text ∧
    (∀ e, Search.asked s.maxResults (.error e) = []) ∧
    (∀ i e, i.validate = .error e → Search.asked s.maxResults (.ok i) = []) ∧
    ∀ i, i.validate = .ok () →
      ∃ q, Search.asked s.maxResults (.ok i) = [q] ∧ i.Guards s.maxResults q := by
  refine ⟨s.fst_searchWatched schedule text, s.searchWatched_run schedule text,
    fun e => rfl, ?_, ?_⟩
  · intro i e h
    rw [Search.asked, plan_of_invalid h]
  · intro i h
    refine ⟨{ i.query with limit := s.maxResults }, ?_, ?_⟩
    · rw [Search.asked, plan_of_valid h]
    · exact Intent.guards_of_validated (Intent.validated h) s.maxResults

theorem search_asks_once_failedPayment :
    ∃ q, ((demonstration 1).searchWatched Schedule.never "failed payments").run [] =
        (.ok ((demonstration 1).found failedPayment), [q]) ∧
      failedPayment.Guards 1 q := by
  obtain ⟨-, hrun, -, -, hasked⟩ :=
    search_asks_once (demonstration 1) Schedule.never "failed payments"
  obtain ⟨q, hq, hguards⟩ := hasked failedPayment validate_failedPayment
  refine ⟨q, ?_, hguards⟩
  rw [hrun, ← hq, ← outcome_never (s := demonstration 1) validate_failedPayment]
  rfl

end Service

end TraceSearch
