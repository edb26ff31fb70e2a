import TraceSearch.Proofs.Model.Completion
import TraceSearch.Proofs.Search.Outcome
import TraceSearch.Proofs.Server.Request

/-!
# Statuses tell outcomes apart

A request that reaches the service is answered by what the model completes its prompt with: a
completion yields an intent or it is unusable, an explanation is its text unless it is silent. Main
fact: `respond_classified`, the status of a response says which, and a position that names nothing
is refused before the model is asked.
-/

namespace TraceSearch

namespace Server

open Model (Silent Unusable Yields completedIntent completionText)

/-- What a scan checks for is the same throughout: whether the shutdown token is cancelled. -/
theorem requestSchedule_eq (tokens : TokenForest) (shutdown : ℕ) :
    requestSchedule tokens shutdown = fun _ => tokens.isCancelled shutdown := by
  funext _
  simp [requestSchedule, TokenForest.add, TokenForest.isCancelled]

/-- The status of a search, by what the completion of its prompt yields. -/
structure Graded (cancelled : Bool) (completion : Except ModelError String) (status : ℕ) :
    Prop where
  badGateway : status = 502 ↔ Unusable completion
  badRequest : status = 400 ↔ ∃ i, Yields completion i ∧ i.validate ≠ .ok ()
  unavailable : status = 503 ↔ ∃ i, Yields completion i ∧ i.validate = .ok () ∧ cancelled = true
  found : status = 200 ↔ ∃ i, Yields completion i ∧ i.validate = .ok () ∧ cancelled = false
  known : status ∈ [502, 400, 503, 200]

section Search

variable {m : Type → Type} {completion : Except ModelError String}

theorem graded_of_unusable (cancelled : Bool) (h : Unusable completion) :
    Graded cancelled completion 502 := by
  have hnone (i : Intent) : ¬Yields completion i := fun hi => hi.not_unusable h
  constructor <;> simp [h, hnone]

/-- The status for an intent tells whether it is valid, and then whether its search goes through. -/
theorem graded_of_yields {cancelled : Bool} {i : Intent} (h : Yields completion i) {status : ℕ}
    (hinvalid : status = 400 ↔ i.validate ≠ .ok ())
    (hcancelled : status = 503 ↔ i.validate = .ok () ∧ cancelled = true)
    (hfound : status = 200 ↔ i.validate = .ok () ∧ cancelled = false)
    (hknown : status ∈ [400, 503, 200]) :
    Graded cancelled completion status := by
  have honly (P : Intent → Prop) : (∃ j, Yields completion j ∧ P j) ↔ P i := by
    constructor
    · rintro ⟨j, hj, hP⟩
      rwa [h.eq hj] at hP
    · exact fun hP => ⟨i, h, hP⟩
  have hgateway : status ≠ 502 := by
    rintro rfl
    revert hknown
    decide
  constructor
  · exact iff_of_false hgateway h.not_unusable
  · rw [hinvalid, honly]
  · rw [hcancelled, honly]
  · rw [hfound, honly]
  · exact List.mem_cons_of_mem _ hknown

theorem graded_searched (s : Service m) (cancelled : Bool)
    (completion : Except ModelError String) :
    Graded cancelled completion
      (searched (s.outcome (fun _ => cancelled) (completedIntent completion))).status := by
  rcases Model.unusable_or_yields completion with h | ⟨i, h⟩
  · obtain ⟨e, he⟩ := Model.completedIntent_of_unusable h
    rw [he]
    exact graded_of_unusable cancelled h
  rw [Model.completedIntent_of_yields h]
  -- a valid intent is always mapped, so only the cancellation is left to fail its search
  cases hvalid : i.validate with
  | error e =>
    have houtcome : s.outcome (fun _ => cancelled) (.ok i) = .error (.validation e) := by
      rw [Service.outcome, Service.plan_of_invalid hvalid]
    rw [houtcome]
    apply graded_of_yields h <;> simp [hvalid, searched, searchStatus, Response.failure]
  | ok u =>
    cases cancelled with
    | true =>
      rw [Service.outcome_of_interrupted hvalid (Service.interrupted_of_seen_first rfl)]
      apply graded_of_yields h <;> simp [hvalid, searched, searchStatus, Response.failure]
    | false =>
      have houtcome : s.outcome (fun _ => false) (.ok i) = .ok (s.found i) :=
        Service.outcome_never hvalid
      rw [houtcome]
      apply graded_of_yields h <;> simp [hvalid, searched]

end Search

section Requests

variable {m : Type → Type} [Monad m] [LawfulMonad m] {service : Service m} {schedule : Schedule}
  {r : Request}

/-- A request is answered as its route is, unless it asks for the head alone. -/
theorem respond_eq_respondAt {route : Route} (hroute : Route.ofTarget r.target = some route)
    {method : Method} (hmethod : r.method = method) (hallows : route.allows method = true)
    (hhead : method ≠ .head) :
    respond service schedule r = respondAt service schedule r route := by
  simp only [respond, hroute, hmethod, hallows, Bool.not_true, Bool.false_eq_true, if_false, hhead,
    bind_pure]

theorem respond_of_asksSearch {text : String} (h : AsksSearch r text) :
    respond service schedule r = searched <$> service.search schedule text := by
  have hsize : ¬bodyLimit < r.body.utf8ByteSize := Nat.not_lt.2 h.size
  rw [respond_eq_respondAt h.route h.method rfl (by decide), respondAt, respondToSearch,
    h.mediaType, if_neg (by decide), if_neg hsize, h.body]
  exact (map_eq_pure_bind _ _).symm

/-- A body that is too long is not read, whatever it asks for. -/
theorem respond_of_bodyLimit_lt (hmethod : r.method = .post)
    (hroute : Route.ofTarget r.target = some .search) (hmedia : announcesJson r.contentType = true)
    (hsize : bodyLimit < r.body.utf8ByteSize) :
    respond service schedule r = pure (.refusal 413) := by
  rw [respond_eq_respondAt hroute hmethod rfl (by decide), respondAt, respondToSearch, hmedia,
    if_neg (by decide), if_pos hsize]

/-- A position that has more than 64 bits is none, so it is not looked up. -/
theorem respond_of_long_position (hmethod : r.method = .get) {name : List Char}
    (hroute : Route.ofTarget r.target = some (.explainTrace name))
    (hname : positionOf name = none) : respond service schedule r = pure (.refusal 400) := by
  rw [respond_eq_respondAt hroute hmethod rfl (by decide), respondAt, hname]

/-- The handler of a trace looks it up on its own, and agrees with the service. -/
theorem respondToTrace_eq (index : ℕ) :
    respondToTrace service index = explained <$> service.explainTrace index := by
  unfold respondToTrace Service.explainTrace
  cases Corpus.trace service.corpus index with
  | error e => exact (map_pure _ _).symm
  | ok t => simp only [map_eq_pure_bind, bind_assoc, pure_bind]

/-- The handler of a span looks up the span and names its service on its own, and agrees with the
service on both. -/
theorem respondToSpan_eq (traceIndex index : ℕ) :
    respondToSpan service traceIndex index =
      explained <$> service.explainSpan traceIndex index := by
  unfold respondToSpan Service.explainSpan
  cases Corpus.span service.corpus traceIndex index with
  | error e => exact (map_pure _ _).symm
  | ok s =>
    simp only [map_eq_pure_bind, bind_assoc, pure_bind, Service.describeSpan,
      PlacedSpan.serviceLabel]

theorem respond_of_asksTrace {index : ℕ} (h : AsksTrace r index) :
    respond service schedule r = respondToTrace service index := by
  obtain ⟨name, hroute, hname⟩ := h.route
  rw [respond_eq_respondAt hroute h.method rfl (by decide), respondAt, hname]

theorem respond_of_asksSpan {traceIndex index : ℕ} (h : AsksSpan r traceIndex index) :
    respond service schedule r = respondToSpan service traceIndex index := by
  obtain ⟨traceName, name, hroute, htraceName, hname⟩ := h.route
  rw [respond_eq_respondAt hroute h.method rfl (by decide), respondAt, htraceName, hname]

end Requests

section Explanations

variable {completion : Except ModelError String}

/-- The response that explains by a completion. -/
def explainedBy (completion : Except ModelError String) : Response :=
  explained ((completionText completion).mapError .extraction)

theorem explainedBy_of_filled {text : String} (h : Text.isBlankText text = false) :
    explainedBy (.ok text) =
      ⟨200, .json (.object [("explanation", .string (Text.trim text))])⟩ := by
  rw [explainedBy, Model.completionText_of_filled h]
  rfl

theorem status_explainedBy_iff : (explainedBy completion).status = 502 ↔ Silent completion := by
  rcases Model.silent_or_filled completion with h | ⟨text, rfl, h⟩
  · obtain ⟨e, he⟩ := Model.completionText_of_silent h
    refine iff_of_true ?_ h
    rw [explainedBy, he]
    rfl
  · refine iff_of_false ?_ ?_
    · rw [explainedBy_of_filled h]
      show 200 ≠ 502
      decide
    · rintro (_ | hblank)
      rw [h] at hblank
      cases hblank

theorem status_explainedBy_ne : (explainedBy completion).status ≠ 404 := by
  rcases Model.silent_or_filled completion with h | ⟨text, rfl, h⟩
  · rw [status_explainedBy_iff.2 h]
    decide
  · rw [explainedBy_of_filled h]
    show 200 ≠ 404
    decide

end Explanations

/-- A service whose assistant is the one over a generator. -/
def serviceOf {m : Type → Type} [Monad m] (corpus : List Trace) (g : Generator m) (limit : ℕ) :
    Service m :=
  ⟨corpus, .ofGenerator g, limit⟩

@[simp] theorem corpus_serviceOf {m : Type → Type} [Monad m] (corpus : List Trace) (g : Generator m)
    (limit : ℕ) : (serviceOf corpus g limit).corpus = corpus := rfl

/-- A response to a search tells the result of the search: its failures by their statuses, and the
traces that it found by their summaries and how many they are. -/
structure AnswersSearch {m : Type → Type} [Monad m] (service : Service m) (g : Generator m)
    (cancelled : Bool) (text : String) (response : m Response) : Prop where
  result : response = searched <$> service.search (fun _ => cancelled) text
  asked : service.search (fun _ => cancelled) text =
    (fun completion => service.outcome (fun _ => cancelled) (completedIntent completion)) <$>
      g.generate (Model.Template.search.fill text)
  graded : ∀ completion, Graded cancelled completion
    (searched (service.outcome (fun _ => cancelled) (completedIntent completion))).status
  found : ∀ completion traces,
    service.outcome (fun _ => cancelled) (completedIntent completion) = .ok traces →
      searched (service.outcome (fun _ => cancelled) (completedIntent completion)) =
        ⟨200, .json (.object [("count", .nat (traces.map Trace.summary).length),
          ("traces", .array ((traces.map Trace.summary).map TraceSummary.toJson))])⟩

/-- A response to an explanation tells the text of the explanation, or that there is none. -/
structure AnswersExplanation {m : Type → Type} [Monad m] (g : Generator m) (prompt : String)
    (explanation : m (Except ExplainError String)) (response : m Response) : Prop where
  result : response = explained <$> explanation
  asked : response = explainedBy <$> g.generate prompt
  found : ∀ completion, (explainedBy completion).status ≠ 404
  silent : ∀ completion, (explainedBy completion).status = 502 ↔ Silent completion
  told : ∀ text, Text.isBlankText text = false →
    explainedBy (.ok text) = ⟨200, .json (.object [("explanation", .string (Text.trim text))])⟩

section Main

variable {m : Type → Type} [Monad m] [LawfulMonad m] (corpus : List Trace) (g : Generator m)
  (limit : ℕ)

theorem answersSearch (cancelled : Bool) {r : Request} {text : String} (h : AsksSearch r text) :
    AnswersSearch (serviceOf corpus g limit) g cancelled text
      (respond (serviceOf corpus g limit) (fun _ => cancelled) r) where
  result := respond_of_asksSearch h
  asked := by
    have hextract : (serviceOf corpus g limit).assistant.extract text =
        completedIntent <$> g.generate (Model.Template.search.fill text) :=
      (map_eq_pure_bind _ _).symm
    rw [Service.search_eq_map, hextract, Functor.map_map]
  graded := graded_searched _ cancelled
  found completion traces htraces := by
    rw [htraces, searched, Report.toJson, List.length_map, List.map_map]
    rfl

theorem answersExplanation_trace (schedule : Schedule) {r : Request} {index : ℕ}
    (h : AsksTrace r index) {t : Trace} (ht : corpus[index]? = some t) :
    AnswersExplanation g (Model.Template.trace.fill (Explanation.traceContext t))
      ((serviceOf corpus g limit).explainTrace index)
      (respond (serviceOf corpus g limit) schedule r) where
  result := (respond_of_asksTrace h).trans (respondToTrace_eq index)
  asked := by
    rw [respond_of_asksTrace h, respondToTrace, corpus_serviceOf, Corpus.trace_eq_ok_iff.2 ht]
    simp only [map_eq_pure_bind, Service.describeTrace, serviceOf, Assistant.ofGenerator,
      bind_assoc, pure_bind, explainedBy]
  found _ := status_explainedBy_ne
  silent _ := status_explainedBy_iff
  told _ := explainedBy_of_filled

theorem answersExplanation_span (schedule : Schedule) {r : Request} {traceIndex index : ℕ}
    (h : AsksSpan r traceIndex index) {t : Trace} (ht : corpus[traceIndex]? = some t)
    {s : PlacedSpan} (hs : t.spans[index]? = some s) :
    AnswersExplanation g
      (Model.Template.span.fill (Explanation.spanContext s.span s.serviceLabel))
      ((serviceOf corpus g limit).explainSpan traceIndex index)
      (respond (serviceOf corpus g limit) schedule r) where
  result := (respond_of_asksSpan h).trans (respondToSpan_eq traceIndex index)
  asked := by
    have hlookup : Corpus.span corpus traceIndex index = .ok s := by
      rw [Corpus.span, Corpus.trace_eq_ok_iff.2 ht]
      simp only [hs]
    rw [respond_of_asksSpan h, respondToSpan, corpus_serviceOf, hlookup]
    simp only [map_eq_pure_bind, serviceOf, Assistant.ofGenerator, bind_assoc, pure_bind,
      explainedBy, PlacedSpan.serviceLabel]
  found _ := status_explainedBy_ne
  silent _ := status_explainedBy_iff
  told _ := explainedBy_of_filled

theorem respond_of_trace_error (schedule : Schedule) {r : Request} {index : ℕ}
    (h : AsksTrace r index) {e : LookupError} (he : Corpus.trace corpus index = .error e) :
    respond (serviceOf corpus g limit) schedule r = pure (.failure 404 e.message) := by
  rw [respond_of_asksTrace h, respondToTrace, corpus_serviceOf, he]
  rfl

theorem respond_of_span_error (schedule : Schedule) {r : Request} {traceIndex index : ℕ}
    (h : AsksSpan r traceIndex index) {e : LookupError}
    (he : Corpus.span corpus traceIndex index = .error e) :
    respond (serviceOf corpus g limit) schedule r = pure (.failure 404 e.message) := by
  rw [respond_of_asksSpan h, respondToSpan, corpus_serviceOf, he]
  rfl

/-- The status of every response tells what became of the request. A search is graded by what the
completion of its prompt yields, and by the shutdown token if that is a valid intent. A position
beyond the corpus or its trace is not found, and the model is not asked; otherwise an explanation is
the text of the completion, unless that is silent. Every text that fits into a body, and every
position of 64 bits, can be asked for. -/
theorem respond_classified (tokens : TokenForest) (shutdown : ℕ) :
    (∀ r text, AsksSearch r text →
      AnswersSearch (serviceOf corpus g limit) g (tokens.isCancelled shutdown) text
        (respond (serviceOf corpus g limit) (requestSchedule tokens shutdown) r)) ∧
    (∀ r index, AsksTrace r index →
      (corpus.length ≤ index →
        respond (serviceOf corpus g limit) (requestSchedule tokens shutdown) r =
          pure (.failure 404 (LookupError.traceOutOfRange index corpus.length).message)) ∧
      ∀ t, corpus[index]? = some t →
        AnswersExplanation g (Model.Template.trace.fill (Explanation.traceContext t))
          ((serviceOf corpus g limit).explainTrace index)
          (respond (serviceOf corpus g limit) (requestSchedule tokens shutdown) r)) ∧
    (∀ r traceIndex index, AsksSpan r traceIndex index →
      (corpus.length ≤ traceIndex →
        respond (serviceOf corpus g limit) (requestSchedule tokens shutdown) r =
          pure (.failure 404 (LookupError.traceOutOfRange traceIndex corpus.length).message)) ∧
      ∀ t, corpus[traceIndex]? = some t →
        (t.spanCount ≤ index →
          respond (serviceOf corpus g limit) (requestSchedule tokens shutdown) r =
            pure (.failure 404
              (LookupError.spanOutOfRange traceIndex index t.spanCount).message)) ∧
        (index < t.spanCount → ∃ s, t.spans[index]? = some s ∧
          AnswersExplanation g
            (Model.Template.span.fill (Explanation.spanContext s.span s.serviceLabel))
            ((serviceOf corpus g limit).explainSpan traceIndex index)
            (respond (serviceOf corpus g limit) (requestSchedule tokens shutdown) r))) ∧
    (∀ text, ∀ body ∈ searchBodies text, body.utf8ByteSize ≤ bodyLimit →
      AsksSearch ⟨.post, "/search", some "application/json", body⟩ text) ∧
    (∀ index < 2 ^ 64, AsksTrace ⟨.get, tracePath index, none, ""⟩ index) ∧
    ∀ traceIndex < 2 ^ 64, ∀ index < 2 ^ 64,
      AsksSpan ⟨.get, spanPath traceIndex index, none, ""⟩ traceIndex index := by
  refine ⟨?_, ?_, ?_, ?_, ?_, ?_⟩
  · intro r text h
    rw [requestSchedule_eq]
    exact answersSearch corpus g limit _ h
  · intro r index h
    refine ⟨fun hle => ?_, fun t ht => answersExplanation_trace corpus g limit _ h ht⟩
    exact respond_of_trace_error corpus g limit _ h (Corpus.trace_of_length_le hle)
  · intro r traceIndex index h
    refine ⟨fun hle => ?_, fun t ht => ⟨fun hle => ?_, fun hlt => ?_⟩⟩
    · refine respond_of_span_error corpus g limit _ h ?_
      rw [Corpus.span, Corpus.trace_of_length_le hle]
    · exact respond_of_span_error corpus g limit _ h
        (Corpus.span_of_length_le (Corpus.trace_eq_ok_iff.2 ht) hle)
    · have hspan := List.getElem?_eq_getElem (t.length_spans.symm ▸ hlt)
      exact ⟨_, hspan, answersExplanation_span corpus g limit _ h ht hspan⟩
  · exact fun text body hbody hsize => asksSearch_written hbody hsize
  · exact fun index h => asksTrace_written h
  · exact fun traceIndex htrace index h => asksSpan_written htrace h

end Main

/-- A generator that keeps its prompts and completes every one with an empty object. -/
def recorder : Generator (StateM (List String)) where
  generate prompt := fun asked => (.ok "\x7b\x7d", asked ++ [prompt])

/-- A service over one synthetic trace, of two spans. -/
def recordedService : Service (StateM (List String)) :=
  serviceOf (Corpus.Synthetic.generate 1) recorder 0

/-- What its server answers after it has been shut down, and the prompts until then. -/
def respondAfterShutdown (r : Request) : Response × List String :=
  Id.run ((respond recordedService (requestSchedule ⟨[⟨none, true⟩]⟩ 0) r).run [])

def slowSearch : Request :=
  ⟨.post, "/search", some "application/json", (searchDocument "slow requests").compact⟩

theorem yields_emptyObject : Yields (.ok "\x7b\x7d") Intent.empty := by
  have hread : Intent.read (Model.jsonBlock (Text.trim "\x7b\x7d")) = .ok Intent.empty := by rfl
  exact .decoded (by decide) (by decide) hread

/-- The search fails with the shutdown although the model has stated a valid intent; positions that
name nothing are refused without a prompt. -/
theorem respond_classified_afterShutdown :
    (AsksSearch slowSearch "slow requests" ∧ (respondAfterShutdown slowSearch).1.status = 503 ∧
      (respondAfterShutdown slowSearch).2 = [Model.Template.search.fill "slow requests"]) ∧
    respondAfterShutdown ⟨.get, tracePath 1, none, ""⟩ =
      (.failure 404 (LookupError.traceOutOfRange 1 1).message, []) ∧
    respondAfterShutdown ⟨.get, spanPath 0 2, none, ""⟩ =
      (.failure 404 (LookupError.spanOutOfRange 0 2 2).message, []) ∧
    (respondAfterShutdown ⟨.get, spanPath 0 1, none, ""⟩).1 =
      ⟨200, .json (.object [("explanation", .string "\x7b\x7d")])⟩ := by
  obtain ⟨hsearch, htrace, hspan, hbody, htracePath, hspanPath⟩ :=
    respond_classified (Corpus.Synthetic.generate 1) recorder 0 ⟨[⟨none, true⟩]⟩ 0
  have hcorpus : (Corpus.Synthetic.generate 1)[0]? = some (Corpus.Synthetic.trace 0) := rfl
  have hasks : AsksSearch slowSearch "slow requests" :=
    hbody _ _ List.mem_cons_self (by decide +kernel)
  have hanswer := hsearch _ _ hasks
  have hrun : respondAfterShutdown slowSearch =
      (searched (recordedService.outcome (fun _ => true) (completedIntent (.ok "\x7b\x7d"))),
        [Model.Template.search.fill "slow requests"]) := by
    rw [respondAfterShutdown, recordedService, hanswer.result, hanswer.asked]
    rfl
  refine ⟨⟨hasks, ?_, by rw [hrun]⟩, ?_, ?_, ?_⟩
  · rw [hrun]
    exact (hanswer.graded _).unavailable.2 ⟨_, yields_emptyObject, rfl, rfl⟩
  · rw [respondAfterShutdown, recordedService,
      (htrace _ 1 (htracePath 1 (by decide))).1 (by decide)]
    rfl
  · rw [respondAfterShutdown, recordedService,
      ((hspan _ 0 2 (hspanPath 0 (by decide) 2 (by decide))).2 _ hcorpus).1 (by decide)]
    rfl
  · obtain ⟨s, -, hexplained⟩ :=
      ((hspan _ 0 1 (hspanPath 0 (by decide) 1 (by decide))).2 _ hcorpus).2 (by decide)
    rw [respondAfterShutdown, recordedService, hexplained.asked]
    exact hexplained.told "\x7b\x7d" (by decide)

/-- What a server answers that has no traces and whose model says nothing. -/
def respondAlone (r : Request) : Response :=
  Id.run (respond (serviceOf [] ⟨fun _ => .error .emptyResponse⟩ 0) (fun _ => false) r)

/-- The status tells outcomes apart only within bounds: a position of more bits is a bad request
though the corpus is empty, and a body of more bytes is refused though it asks for a text. -/
theorem respond_beyond_bounds :
    (respondAlone ⟨.get, "/traces/18446744073709551616/explain", none, ""⟩).status = 400 ∧
    ∃ text, ∀ body ∈ searchBodies text, readSearchText body = .ok text ∧
      (respondAlone ⟨.post, "/search", some "application/json", body⟩).status = 413 := by
  have hpath : tracePath 18446744073709551616 = "/traces/18446744073709551616/explain" := by
    decide +kernel
  have hroute : Route.ofTarget "/traces/18446744073709551616/explain" =
      some (.explainTrace (Decimal.digits 18446744073709551616)) := by
    rw [← hpath]
    exact ofTarget_tracePath (by decide)
  have hposition : positionOf (Decimal.digits 18446744073709551616) = none := by
    rw [positionOf_digits, if_neg (by decide)]
  refine ⟨?_, String.ofList (List.replicate bodyLimit 'a'), fun body hbody => ⟨?_, ?_⟩⟩
  · rw [respondAlone, respond_of_long_position rfl hroute hposition]
    rfl
  · exact readSearchText_written hbody
  · have hsize := length_lt_utf8ByteSize hbody
    rw [String.length_ofList, List.length_replicate] at hsize
    rw [respondAlone, respond_of_bodyLimit_lt rfl ofTarget_search announcesJson_json hsize]
    rfl

end Server

end TraceSearch
