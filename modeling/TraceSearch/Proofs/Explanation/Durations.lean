import TraceSearch.Explanation.Context
import TraceSearch.Proofs.Duration.Notation

/-!
# Durations in the context of a span

The context of a span shows the duration of the span and, for each of its events, the time from the
start of the span. Timestamps have 64 bits and instants 63, so none of these durations leaves 64-bit
nanoseconds. Main fact: `context_durations_read_back`, the context writes no other duration, and a
reader who cuts out what follows `Duration: ` and `T+` reads the very durations from it.
-/

namespace TraceSearch

namespace Duration

/-- The characters that literals are made of. -/
def isLiteralChar (c : Char) : Bool :=
  c.isDigit || ['+', '-', '.', 'n', 'u', '\u00b5', '\u03bc', 's', 'm', 'h'].contains c

theorem isLiteralChar_of_isDigit {c : Char} (h : c.isDigit = true) : isLiteralChar c = true := by
  rw [isLiteralChar, h, Bool.true_or]

theorem isLiteralChar_of_mem_symbol {unit : TimeUnit} {symbol : List Char}
    (h : symbol ∈ unit.symbols) : ∀ c ∈ symbol, isLiteralChar c = true := by
  have hall : ∀ unit : TimeUnit, ∀ symbol ∈ unit.symbols, symbol.all isLiteralChar = true := by
    intro unit
    cases unit <;> decide
  exact List.all_eq_true.1 (hall unit symbol h)

theorem Group.Spelled.isLiteralChar {g : Group} {text : List Char} (h : g.Spelled text) :
    ∀ c ∈ text, isLiteralChar c = true := by
  intro c hc
  cases h with
  | whole _ hdigits hsymbol =>
    rcases List.mem_append.1 hc with hc | hc
    · exact isLiteralChar_of_isDigit (hdigits c hc)
    · exact isLiteralChar_of_mem_symbol hsymbol c hc
  | pointed _ hdigits hsymbol =>
    rcases List.mem_append.1 hc with hc | hc
    · rcases List.mem_append.1 hc with hc | hc
      · exact isLiteralChar_of_isDigit (hdigits c (List.mem_append_left _ hc))
      rcases List.mem_cons.1 hc with rfl | hc
      · rfl
      · exact isLiteralChar_of_isDigit (hdigits c (List.mem_append_right _ hc))
    · exact isLiteralChar_of_mem_symbol hsymbol c hc

theorem Spelled.isLiteralChar {groups : List Group} {text : List Char} (h : Spelled groups text) :
    ∀ c ∈ text, isLiteralChar c = true := by
  induction h with
  | nil => nofun
  | cons first _ ih =>
    intro c hc
    exact (List.mem_append.1 hc).elim (first.isLiteralChar c) (ih c)

theorem isLiteralChar_of_mem_sign {sign : List Char} (h : sign ∈ [[], ['+'], ['-']]) :
    ∀ c ∈ sign, isLiteralChar c = true := by
  have hall : ∀ sign ∈ [[], ['+'], ['-']], sign.all isLiteralChar = true := by decide
  exact List.all_eq_true.1 (hall sign h)

theorem Denotes.isLiteralChar {text : List Char} {d : Duration} (h : Denotes text d) :
    ∀ c ∈ text, isLiteralChar c = true := by
  intro c hc
  cases h with
  | zero hsigned =>
    rcases List.mem_append.1 hc with hc | hc
    · exact isLiteralChar_of_mem_sign hsigned c hc
    · rw [List.mem_singleton.1 hc]
      rfl
  | positive hsigned _ hspelled _ =>
    rcases List.mem_append.1 hc with hc | hc
    · exact isLiteralChar_of_mem_sign (List.mem_append_left [['-']] hsigned) c hc
    · exact hspelled.isLiteralChar c hc
  | negative _ hspelled _ =>
    rcases List.mem_cons.1 hc with rfl | hc
    · rfl
    · exact hspelled.isLiteralChar c hc

/-- A duration of 64-bit nanoseconds is written with the characters of literals only. -/
theorem isLiteralChar_of_mem_format {d : Duration} (h : fits64 d.nanoseconds = true) :
    ∀ c ∈ d.format.toList, isLiteralChar c = true := by
  rw [format, String.toList_ofList, shownNanoseconds, if_pos h]
  exact (denotes_nanosecondsText h).isLiteralChar

theorem not_mem_format {d : Duration} (h : fits64 d.nanoseconds = true) {c : Char}
    (hc : isLiteralChar c = false) : c ∉ d.format.toList := by
  intro hmem
  rw [isLiteralChar_of_mem_format h c hmem] at hc
  cases hc

end Duration

theorem unixNanos_instantOf (nanos : UInt64) :
    (instantOf nanos).unixNanos = min (nanos.toNat : ℤ) (2 ^ 63 - 1) :=
  Instant.unixNanos_ofUnixNanos _

theorem Span.fits64_duration (s : Span) : Duration.fits64 s.duration.nanoseconds = true :=
  Duration.fits64_clamp64 _

namespace Explanation

/-- The offset of an event is the difference of its timestamp and the start of the span, each
counted as the greatest of 63 bits if it is beyond. -/
theorem eventOffset_eq (s : Span) (e : Event) :
    eventOffset s e =
      ⟨min (e.time.toNat : ℤ) (2 ^ 63 - 1) - min (s.start.toNat : ℤ) (2 ^ 63 - 1)⟩ := by
  rw [eventOffset, Instant.since, Event.instant, Span.startTime, unixNanos_instantOf,
    unixNanos_instantOf]

theorem fits64_eventOffset (s : Span) (e : Event) :
    Duration.fits64 (eventOffset s e).nanoseconds = true := by
  rw [eventOffset_eq, Duration.fits64_iff]
  dsimp only
  omega

/-- A duration of 64-bit nanoseconds is one that a clock can express. -/
theorem inRange_of_fits64 {d : Duration} (h : Duration.fits64 d.nanoseconds = true) :
    d.inRange = true := by
  rw [Duration.fits64_iff] at h
  rw [Duration.inRange, decide_eq_true_eq, Duration.greatest64]
  omega

/-- What precedes the duration of a span in its context. -/
def opening (s : Span) (service : String) : String :=
  "### Detailed Span Analysis\n" ++
    "Operation: " ++ s.name ++ "\n" ++
    "Service: " ++ service ++ "\n" ++
    "Kind: " ++ s.kind.name ++ "\n"

/-- What stands between the duration of a span and its events. -/
def details (s : Span) : String :=
  "\nAttributes:\n" ++
    attributeLines .span (fun key value => "- " ++ key ++ ": " ++ value ++ "\n") s.attributes ++
    (if s.isError then
      "\n[!] Status: ERROR\n[!] Error Message: " ++ s.status.message ++ "\n" else "")

def eventsHeading : String := "\nEvents (Internal Logs):\n"

def eventAttributes (e : Event) : String :=
  String.join (e.attributes.entries.map fun (key, value) =>
    "  └ " ++ key ++ ": " ++ value.text ++ "\n")

def eventBlockBy (write : Duration → String) (s : Span) (e : Event) : String :=
  "- T+" ++ write (eventOffset s e) ++ ": " ++ e.name ++ "\n" ++ eventAttributes e

/-- What precedes the events of a span in its context. -/
def beforeEvents (write : Duration → String) (s : Span) (service : String) : String :=
  opening s service ++ "Duration: " ++ write s.duration ++ "\n" ++ details s

/-- The context of a span with its durations written in another way. -/
def spanContextBy (write : Duration → String) (s : Span) (service : String) : String :=
  beforeEvents write s service ++
    (if s.events.isEmpty then ""
      else eventsHeading ++ String.join (s.events.map (eventBlockBy write s)))

theorem spanContext_eq (s : Span) (service : String) :
    spanContext s service = spanContextBy Duration.format s service := by
  have hblock : eventBlock s = eventBlockBy Duration.format s := rfl
  unfold spanContext spanContextBy beforeEvents opening details eventsHeading
  rw [hblock]
  simp only [String.append_assoc]

/-- The context of a span depends on how 64-bit durations are written, and on no others. -/
theorem spanContextBy_congr {write other : Duration → String}
    (h : ∀ d, Duration.fits64 d.nanoseconds = true → write d = other d) (s : Span)
    (service : String) : spanContextBy write s service = spanContextBy other s service := by
  have hblock : eventBlockBy write s = eventBlockBy other s := by
    funext e
    rw [eventBlockBy, h _ (fits64_eventOffset s e), ← eventBlockBy]
  unfold spanContextBy beforeEvents
  rw [hblock, h _ s.fits64_duration]

/-- The context up to an event is the context of the span with the events before it only, and the
heading if there are none. -/
theorem spanContextBy_split (write : Duration → String) {s : Span} {before after : List Event}
    {e : Event} (h : s.events = before ++ e :: after) (service : String) :
    spanContextBy write s service =
      spanContextBy write { s with events := before } service ++
        (if before = [] then eventsHeading else "") ++ eventBlockBy write s e ++
        String.join (after.map (eventBlockBy write s)) := by
  have hblocks : String.join (s.events.map (eventBlockBy write s)) =
      String.join (before.map (eventBlockBy write s)) ++
        (eventBlockBy write s e ++ String.join (after.map (eventBlockBy write s))) := by
    rw [h, List.map_append, String.join_append, List.map_cons, String.join_cons]
  have hsome : s.events.isEmpty = false := by simp [h]
  have hfront : beforeEvents write { s with events := before } service =
      beforeEvents write s service := rfl
  have hblock : eventBlockBy write { s with events := before } = eventBlockBy write s := rfl
  rw [spanContextBy, spanContextBy, hblocks, hsome, hfront, hblock]
  -- without events the context has no heading either
  cases before with
  | nil => simp [String.append_assoc]
  | cons first before => simp [String.append_assoc]

/-- The line of the duration reads as the duration. -/
theorem duration_shown (s : Span) (service : String) :
    ∃ text rest : String,
      spanContext s service = opening s service ++ "Duration: " ++ text ++ "\n" ++ rest ∧
      '\n' ∉ text.toList ∧ Duration.ofLiteral text = .ok s.duration := by
  refine ⟨s.duration.format, details s ++ (if s.events.isEmpty then ""
      else eventsHeading ++ String.join (s.events.map (eventBlockBy Duration.format s))), ?_,
    Duration.not_mem_format s.fits64_duration rfl, Duration.ofLiteral_format s.fits64_duration⟩
  rw [spanContext_eq]
  unfold spanContextBy beforeEvents
  rw [String.append_assoc]

/-- The line of an event, wherever it stands among the others, reads as its offset. -/
theorem offset_shown {s : Span} {before after : List Event} {e : Event}
    (h : s.events = before ++ e :: after) (service : String) :
    ∃ text rest : String,
      spanContext s service = spanContext { s with events := before } service ++
        (if before = [] then eventsHeading else "") ++ "- T+" ++ text ++ ": " ++ e.name ++ "\n" ++
        rest ∧
      ':' ∉ text.toList ∧ Duration.ofLiteral text = .ok (e.instant.since s.startTime) := by
  have hfits := fits64_eventOffset s e
  refine ⟨(eventOffset s e).format,
    eventAttributes e ++ String.join (after.map (eventBlockBy Duration.format s)), ?_,
    Duration.not_mem_format hfits rfl, Duration.ofLiteral_format hfits⟩
  rw [spanContext_eq, spanContextBy_split _ h, ← spanContext_eq]
  unfold eventBlockBy
  simp only [String.append_assoc]

/-- The context of a span shows 64-bit durations only, no matter how others would be written, and
none of the differences they come from leaves the numbers or the durations it is computed in. What
the context shows as the duration of the span and as the offset of each of its events reads as that
duration and that offset: the exact difference of the two timestamps if both have 63 bits, negative
just if the event comes before the span. -/
theorem context_durations_read_back (s : Span) (service : String) :
    (∀ write : Duration → String,
      (∀ d : Duration, -2 ^ 63 ≤ d.nanoseconds → d.nanoseconds ≤ 2 ^ 63 - 1 →
        write d = d.format) →
      spanContextBy write s service = spanContext s service) ∧
    (-2 ^ 127 ≤ (s.stop.toNat - s.start.toNat : ℤ) ∧
      (s.stop.toNat - s.start.toNat : ℤ) ≤ 2 ^ 127 - 1) ∧
    (∃ text rest : String,
      spanContext s service = opening s service ++ "Duration: " ++ text ++ "\n" ++ rest ∧
      '\n' ∉ text.toList ∧ Duration.ofLiteral text = .ok s.duration) ∧
    ∀ (before after : List Event) (e : Event), s.events = before ++ e :: after →
      (∃ text rest : String,
        spanContext s service = spanContext { s with events := before } service ++
          (if before = [] then eventsHeading else "") ++ "- T+" ++ text ++ ": " ++ e.name ++ "\n" ++
          rest ∧
        ':' ∉ text.toList ∧ Duration.ofLiteral text = .ok (e.instant.since s.startTime)) ∧
      (e.instant.since s.startTime).inRange = true ∧
      (e.time.toNat ≤ 2 ^ 63 - 1 → s.start.toNat ≤ 2 ^ 63 - 1 →
        e.instant.since s.startTime = ⟨e.time.toNat - s.start.toNat⟩ ∧
        (e.instant.since s.startTime < Duration.zero ↔ e.time < s.start)) := by
  have hstart := s.start.toNat_lt
  have hstop := s.stop.toNat_lt
  refine ⟨?_, by omega, duration_shown s service, ?_⟩
  · intro write hwrite
    rw [spanContext_eq]
    refine spanContextBy_congr ?_ s service
    intro d hfits
    obtain ⟨hleast, hgreatest⟩ := Duration.fits64_iff.1 hfits
    exact hwrite d hleast hgreatest
  · intro before after e hevents
    refine ⟨offset_shown hevents service, inRange_of_fits64 (fits64_eventOffset s e), ?_⟩
    intro htime hstart
    have hoffset : e.instant.since s.startTime = ⟨e.time.toNat - s.start.toNat⟩ := by
      have hclamped := eventOffset_eq s e
      rwa [min_eq_left (by omega), min_eq_left (by omega)] at hclamped
    refine ⟨hoffset, ?_⟩
    rw [hoffset, UInt64.lt_iff_toNat_lt]
    show (e.time.toNat : ℤ) - s.start.toNat < 0 ↔ _
    omega

def earlyEvent : Event := ⟨3, "early", default⟩

def lateEvent : Event := ⟨18446744073709551615, "late", default⟩

/-- A span that ends before it starts, with an event before its start and one beyond 63 bits. -/
def skewed : Span :=
  { (default : Span) with
    start := 5
    stop := 3
    events := [earlyEvent, lateEvent] }

/-- Durations as they are written, but none beyond what a clock can express. -/
def formatInRange (d : Duration) : String := if d.inRange then d.format else ""

theorem context_durations_read_back_skewed :
    spanContextBy formatInRange skewed "api" = spanContext skewed "api" ∧
    skewed.events = [earlyEvent] ++ lateEvent :: [] ∧
    (∃ text rest : String,
      spanContext skewed "api" = spanContext { skewed with events := [earlyEvent] } "api" ++
        "" ++ "- T+" ++ text ++ ": " ++ "late" ++ "\n" ++ rest ∧
      ':' ∉ text.toList ∧ Duration.ofLiteral text = .ok ⟨9223372036854775802⟩) ∧
    skewed.events = [] ++ earlyEvent :: [lateEvent] ∧
    earlyEvent.time.toNat ≤ 2 ^ 63 - 1 ∧ skewed.start.toNat ≤ 2 ^ 63 - 1 ∧
    earlyEvent.instant.since skewed.startTime = ⟨-2⟩ ∧
    earlyEvent.instant.since skewed.startTime < Duration.zero := by
  obtain ⟨hwritten, -, -, hevents⟩ := context_durations_read_back skewed "api"
  obtain ⟨hlate, -, -⟩ := hevents [earlyEvent] [] lateEvent rfl
  obtain ⟨-, -, hearly⟩ := hevents [] [lateEvent] earlyEvent rfl
  obtain ⟨hoffset, hnegative⟩ := hearly (by decide) (by decide)
  refine ⟨hwritten formatInRange ?_, rfl, hlate, rfl, by decide, by decide, hoffset, ?_⟩
  · intro d hleast hgreatest
    have hfits : Duration.fits64 d.nanoseconds = true := Duration.fits64_iff.2 ⟨hleast, hgreatest⟩
    rw [formatInRange, if_pos (inRange_of_fits64 hfits)]
  · exact hnegative.2 (by decide)

end Explanation

end TraceSearch
