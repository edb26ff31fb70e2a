import Mathlib.Data.List.Forall2
import TraceSearch.Proofs.Query.Refinement
import TraceSearch.Proofs.Scan.Drain
import TraceSearch.Proofs.Trace.Arrangement

/-!
# Scans compared

Two scans are compared by the positions that they yield. Main facts: `yields_iff`, a position is
yielded exactly if its trace is accepted, its check comes before the cancellation is seen and the
limit leaves room for it; so what is known of verdicts carries over to scans of other corpora and by
other queries.
-/

namespace TraceSearch

/-- The elements of a filtered list are those of the list that pass, each behind the passing ones in
front of it. -/
theorem getElem?_filter_iff {α : Type} {p : α → Bool} {xs : List α} {k : ℕ} {x : α} :
    (xs.filter p)[k]? = some x ↔
      ∃ i, xs[i]? = some x ∧ p x = true ∧ (xs.take i).countP p = k := by
  induction xs generalizing k with
  | nil => simp
  | cons y ys ih =>
    rw [← Nat.or_exists_add_one]
    by_cases hy : p y = true
    · rw [List.filter_cons_of_pos hy]
      cases k with
      | zero =>
        have hfirst : y = x → p x = true := fun heq => heq ▸ hy
        simpa [hy] using hfirst
      | succ k => simp [hy, ih]
    · rw [List.filter_cons_of_neg hy, ih]
      have hfirst : p x = true → y ≠ x := fun hx heq => hy (heq ▸ hx)
      simp only [List.getElem?_cons_zero, Option.some.injEq, List.getElem?_cons_succ,
        List.take_succ_cons, List.countP_cons_of_neg hy]
      tauto

theorem getElem?_firstOf {α : Type} {count : ℕ∞} {xs : List α} {k : ℕ} {x : α} :
    (firstOf count xs)[k]? = some x ↔ (k : ℕ∞) < count ∧ xs[k]? = some x := by
  cases count with
  | top => simp
  | coe n =>
    rw [firstOf_coe, List.getElem?_take, Nat.cast_lt]
    split <;> simp_all

theorem take_firstOf {α : Type} {count : ℕ∞} {i : ℕ} (h : (i : ℕ∞) < count) (xs : List α) :
    (firstOf count xs).take i = xs.take i := by
  cases count with
  | top => rw [firstOf_top]
  | coe n =>
    have hle : i ≤ n := (Nat.cast_lt.1 h).le
    rw [firstOf_coe, List.take_take, min_eq_left hle]

namespace Scan

variable {schedule : Schedule} {corpus corpus' : List Trace} {query : Query} {index pulls : ℕ}
  {t t' : Trace}

theorem getElem?_entries :
    (entries corpus)[pulls]? = some (index, t) ↔ pulls = index ∧ corpus[index]? = some t := by
  rw [entries, List.getElem?_mapIdx]
  cases h : corpus[pulls]? with
  | none =>
    simp only [Option.map_none, reduceCtorEq, false_iff, not_and]
    rintro rfl
    simp [h]
  | some t =>
    simp only [Option.map_some, Option.some.injEq, Prod.mk.injEq]
    constructor
    · rintro ⟨rfl, rfl⟩
      exact ⟨rfl, h⟩
    · rintro ⟨rfl, ht⟩
      rw [h] at ht
      exact ⟨rfl, Option.some.inj ht⟩

@[simp] theorem countP_entries (query : Query) (corpus : List Trace) (index : ℕ) :
    ((entries corpus).take index).countP (fun entry => query.accepts entry.2) =
      (corpus.take index).countP query.accepts := by
  have hsnd := congrArg (List.take index) (map_snd_entries corpus)
  rw [← List.map_take] at hsnd
  rw [← hsnd, List.countP_map]
  rfl

theorem getElem?_hits :
    (hits schedule query (entries corpus))[pulls]? = some (index, t) ↔
      corpus[index]? = some t ∧ query.accepts t = true ∧ (index : ℕ∞) < schedule.firstSeen ∧
        (corpus.take index).countP query.accepts = pulls := by
  rw [hits, getElem?_filter_iff]
  simp only [getElem?_firstOf, getElem?_entries]
  constructor
  · rintro ⟨i, ⟨hseen, rfl, ht⟩, ha, hcount⟩
    rw [take_firstOf hseen, countP_entries] at hcount
    exact ⟨ht, ha, hseen, hcount⟩
  · rintro ⟨ht, ha, hseen, hcount⟩
    refine ⟨index, ⟨hseen, rfl, ht⟩, ha, ?_⟩
    rw [take_firstOf hseen, countP_entries, hcount]

theorem outputs_eq_found_iff {room : ℕ∞} {pending : List (ℕ × Trace)} :
    (outputs schedule query room pending)[pulls]?.getD .finished = .found index t ↔
      (pulls : ℕ∞) < room ∧ (hits schedule query pending)[pulls]? = some (index, t) := by
  rw [← getElem?_firstOf]
  rcases Nat.lt_or_ge pulls (firstOf room (hits schedule query pending)).length with hlt | hge
  · have hmap : pulls <
        ((firstOf room (hits schedule query pending)).map Item.ofEntry).length := by
      rwa [List.length_map]
    rw [outputs, List.getElem?_append_left hmap, List.getElem?_map, List.getElem?_eq_getElem hlt]
    simp only [Option.map_some, Option.getD_some, Item.ofEntry, Item.found.injEq,
      Option.some.injEq, Prod.ext_iff]
  · have hnone := List.getElem?_eq_none hge
    rw [outputs_not_found hge, hnone]
    split <;> simp

/-- The pull that a position is the answer to, if it is one at all. -/
theorem answer_eq_found_iff :
    answer schedule (start corpus query) pulls = .found index t ↔
      corpus[index]? = some t ∧ query.accepts t = true ∧ (index : ℕ∞) < schedule.firstSeen ∧
        (pulls : ℕ∞) < bound query.limit ∧ (corpus.take index).countP query.accepts = pulls := by
  rw [answer_start, outputs_eq_found_iff, getElem?_hits]
  tauto

/-- A position that repeated pulls yield. -/
def Yields (schedule : Schedule) (corpus : List Trace) (query : Query) (index : ℕ) : Prop :=
  ∃ pulls t, answer schedule (start corpus query) pulls = .found index t

theorem yields_iff :
    Yields schedule corpus query index ↔
      ∃ t, corpus[index]? = some t ∧ query.accepts t = true ∧
        (index : ℕ∞) < schedule.firstSeen ∧
        ((corpus.take index).countP query.accepts : ℕ∞) < bound query.limit := by
  simp only [Yields, answer_eq_found_iff]
  constructor
  · rintro ⟨pulls, t, ht, ha, hseen, hroom, rfl⟩
    exact ⟨t, ht, ha, hseen, hroom⟩
  · rintro ⟨t, ht, ha, hseen, hroom⟩
    exact ⟨_, t, ht, ha, hseen, hroom, rfl⟩

/-- Which positions a scan yields can be read off the verdicts on its corpus. -/
theorem yields_iff_verdicts :
    Yields schedule corpus query index ↔
      (corpus.map query.accepts)[index]? = some true ∧ (index : ℕ∞) < schedule.firstSeen ∧
        (((corpus.map query.accepts).take index).countP id : ℕ∞) < bound query.limit := by
  have hcount : ((corpus.map query.accepts).take index).countP id =
      (corpus.take index).countP query.accepts := by
    rw [← List.map_take, List.countP_map]
    rfl
  rw [yields_iff, hcount, List.getElem?_map, Option.map_eq_some_iff]
  constructor
  · rintro ⟨t, ht, ha, hrest⟩
    exact ⟨⟨t, ht, ha⟩, hrest⟩
  · rintro ⟨⟨t, ht, ha⟩, hrest⟩
    exact ⟨t, ht, ha, hrest⟩

/-! ### Corpora with the same spans or more -/

theorem accepts_of_within (query : Query) (h : t.Within t') (ha : query.accepts t = true) :
    query.accepts t' = true :=
  Query.accepts_of_refines (.refl query) h.spans_subset ha

theorem accepts_of_rearranged (query : Query) {groups groups' : List ResourceSpans}
    (h : Rearranged groups groups') : query.accepts ⟨groups⟩ = query.accepts ⟨groups'⟩ := by
  rw [Bool.eq_iff_iff]
  exact ⟨accepts_of_within query h.within, accepts_of_within query h.symm.within⟩

theorem map_accepts_of_rearranged (query : Query)
    (h : List.Forall₂ (fun t t' : Trace => Rearranged t.resources t'.resources) corpus corpus') :
    corpus.map query.accepts = corpus'.map query.accepts := by
  induction h with
  | nil => rfl
  | cons hfirst _ ih => rw [List.map_cons, List.map_cons, ih, accepts_of_rearranged query hfirst]

/-- The trace at a position stays in a result, whatever the limit, when it is given more spans. -/
theorem Yields.set (h : Yields schedule corpus query index) (ht : corpus[index]? = some t)
    (hspans : t.Within t') : Yields schedule (corpus.set index t') query index := by
  obtain ⟨found, hfound, ha, hseen, hroom⟩ := yields_iff.1 h
  rw [ht, Option.some.injEq] at hfound
  have hlt : index < corpus.length := (List.getElem?_eq_some_iff.1 ht).1
  refine yields_iff.2 ⟨t', by simp [hlt], accepts_of_within query hspans (hfound ▸ ha), hseen, ?_⟩
  rwa [List.take_set_of_le le_rfl]

/-- Without a limit no trace has to make room for another. -/
theorem Yields.of_within (h : Yields schedule corpus query index) (hlimit : query.limit = 0)
    (hcorpus : List.Forall₂ Trace.Within corpus corpus') : Yields schedule corpus' query index := by
  obtain ⟨t, ht, ha, hseen, -⟩ := yields_iff.1 h
  obtain ⟨hlt, rfl⟩ := List.getElem?_eq_some_iff.1 ht
  have hlt' : index < corpus'.length := hcorpus.length_eq ▸ hlt
  have hroom : ((corpus'.take index).countP query.accepts : ℕ∞) < bound query.limit := by
    rw [bound, if_pos hlimit]
    exact ENat.natCast_lt_top _
  exact yields_iff.2 ⟨corpus'[index], List.getElem?_eq_getElem hlt',
    accepts_of_within query (hcorpus.get hlt hlt') ha, hseen, hroom⟩

/-- A verdict depends only on which spans a trace holds under which attributes of their resource,
and further spans can only turn it from false to true. So an arrangement of the spans never changes
which positions a scan yields, whatever its limit and its cancellation; and a trace that is yielded
still is after it was given more spans, as are all traces of a corpus if there is no limit. -/
theorem yields_by_held_spans (query : Query) :
    (∀ t t' : Trace, (∀ attributes span, t.Holds attributes span → t'.Holds attributes span) →
      query.accepts t = true → query.accepts t' = true) ∧
    (∀ groups groups', Rearranged groups groups' →
      query.accepts ⟨groups⟩ = query.accepts ⟨groups'⟩) ∧
    (∀ corpus corpus',
      List.Forall₂ (fun t t' : Trace => Rearranged t.resources t'.resources) corpus corpus' →
      ∀ schedule index,
        Yields schedule corpus query index ↔ Yields schedule corpus' query index) ∧
    (∀ corpus index t t', corpus[index]? = some t → t.Within t' →
      ∀ schedule, Yields schedule corpus query index →
        Yields schedule (corpus.set index t') query index) ∧
    (query.limit = 0 → ∀ corpus corpus', List.Forall₂ Trace.Within corpus corpus' →
      ∀ schedule index, Yields schedule corpus query index →
        Yields schedule corpus' query index) := by
  refine ⟨fun t t' h => accepts_of_within query h,
    fun groups groups' h => accepts_of_rearranged query h,
    fun corpus corpus' h schedule index => ?_,
    fun corpus index t t' ht hspans schedule h => h.set ht hspans,
    fun hlimit corpus corpus' hcorpus schedule index h => h.of_within hlimit hcorpus⟩
  rw [yields_iff_verdicts, yields_iff_verdicts, map_accepts_of_rearranged query h]

def frontend : Resource := ⟨⟨[("service.name", .string "frontend")]⟩⟩

def pageSpan : Span := { (default : Span) with name := "GET /cart", stop := 10 }

def lookupSpan : Span :=
  { (default : Span) with name := "select", parentSpanId := "01", stop := 500 }

/-- Two spans of a service in one group. -/
def grouped : Trace := ⟨[⟨frontend, [⟨default, [pageSpan, lookupSpan]⟩]⟩]⟩

/-- The two spans in groups of their own, one of them twice. -/
def scattered : Trace :=
  ⟨[⟨frontend, [⟨default, [lookupSpan]⟩]⟩, ⟨frontend, [⟨default, [pageSpan, pageSpan]⟩]⟩]⟩

theorem rearranged_grouped : Rearranged grouped.resources scattered.resources := by
  have hrepeated : Regrouped [⟨default, [pageSpan, lookupSpan]⟩]
      [⟨default, [lookupSpan] ++ [pageSpan, pageSpan]⟩] := .repeated fun span => by simp [or_comm]
  have hscopes : Regrouped [⟨default, [lookupSpan]⟩, ⟨default, [pageSpan, pageSpan]⟩]
      [⟨default, [lookupSpan] ++ [pageSpan, pageSpan]⟩] := .merged
  have hgroups : Rearranged scattered.resources
      [⟨frontend, [⟨default, [lookupSpan]⟩] ++ [⟨default, [pageSpan, pageSpan]⟩]⟩] := .merged rfl
  exact (Rearranged.regrouped (hrepeated.trans hscopes.symm)).trans hgroups.symm

/-- The query for spans of at least 500 nanoseconds. -/
def slow : Query := { Query.unconstrained with durationMin := ⟨500⟩ }

theorem yields_slow : Yields Schedule.never [grouped] slow 0 := by
  refine yields_iff.2 ⟨grouped, rfl, by decide, ?_, ENat.natCast_lt_top _⟩
  rw [Schedule.firstSeen_never]
  exact ENat.natCast_lt_top _

theorem yields_by_held_spans_slow :
    Rearranged grouped.resources scattered.resources ∧ slow.accepts scattered = true ∧
      Yields Schedule.never [scattered] slow 0 ∧
      Yields Schedule.never
        [⟨scattered.resources ++ [⟨default, [⟨default, [pageSpan]⟩]⟩]⟩] slow 0 := by
  obtain ⟨-, hverdict, hrearranged, hset, -⟩ := yields_by_held_spans slow
  have hscattered : Yields Schedule.never [scattered] slow 0 :=
    (hrearranged _ _ (.cons rearranged_grouped .nil) Schedule.never 0).1 yields_slow
  refine ⟨rearranged_grouped, ?_, hscattered, hset _ _ scattered _ rfl ?_ _ hscattered⟩
  · exact (hverdict _ _ rearranged_grouped).symm.trans (by decide)
  · rintro attributes span ⟨group, hgroup, hrest⟩
    exact ⟨group, List.mem_append_left _ hgroup, hrest⟩

/-! ### Narrower queries -/

/-- A narrower query yields a subsequence of what the wider one yields. -/
theorem collect_sublist_of_refines {narrow wide : Query} (h : narrow.Refines wide)
    (hnarrow : narrow.limit = 0) (hwide : wide.limit = 0) (corpus : List Trace) :
    ∃ found found', collect Schedule.never corpus narrow = .ok found ∧
      collect Schedule.never corpus wide = .ok found' ∧ found.Sublist found' ∧
        ∀ index, Yields Schedule.never corpus narrow index →
          Yields Schedule.never corpus wide index := by
  have haccepts (t : Trace) : narrow.accepts t = true → wide.accepts t = true :=
    Query.accepts_of_refines h (List.Subset.refl _)
  have hlimits : bound narrow.limit = ⊤ ∧ bound wide.limit = ⊤ := by
    rw [bound, if_pos hnarrow, bound, if_pos hwide]
    exact ⟨rfl, rfl⟩
  refine ⟨_, _, collect_never corpus narrow, collect_never corpus wide, ?_, ?_⟩
  · rw [hlimits.1, hlimits.2, firstOf_top, firstOf_top]
    exact List.monotone_filter_right corpus haccepts
  · intro index hindex
    obtain ⟨t, ht, ha, hseen, -⟩ := yields_iff.1 hindex
    refine yields_iff.2 ⟨t, ht, haccepts t ha, hseen, ?_⟩
    rw [hlimits.2]
    exact ENat.natCast_lt_top _

theorem collect_sublist_of_refines_slow :
    Query.Refines { slow with service := "frontend" } { slow with durationMin := ⟨10⟩ } ∧
      ∃ found found',
        collect Schedule.never [default, grouped] { slow with service := "frontend" } = .ok found ∧
        collect Schedule.never [default, grouped] { slow with durationMin := ⟨10⟩ } = .ok found' ∧
        found.Sublist found' := by
  have hrefines : Query.Refines { slow with service := "frontend" }
      { slow with durationMin := ⟨10⟩ } :=
    { Query.Refines.refl slow with
      service := .inl rfl
      durationMin := .inr ⟨by decide, by decide⟩ }
  obtain ⟨found, found', hfound, hfound', hsublist, -⟩ :=
    collect_sublist_of_refines hrefines rfl rfl [default, grouped]
  exact ⟨hrefines, found, found', hfound, hfound', hsublist⟩

end Scan

end TraceSearch
