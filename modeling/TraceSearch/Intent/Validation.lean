import TraceSearch.Duration.Literal
import TraceSearch.Instant.Rfc3339
import TraceSearch.Intent.Basic
import TraceSearch.Text.Quoted

/-!
# Validating intents

The checks that stand between a model's answer and a query. A text that is present may not be empty,
literals must parse, durations may not be negative nor their bounds inverted, and tags need a key
and a value. The first violation in this order is reported.

Source: `validate`, `non_empty`, `checked_duration` and `checked_timestamp`.
-/

namespace TraceSearch.Intent

/-- The rule an intent breaks. -/
inductive ValidationError where
  | emptyField (part : Part)
  | invalidDuration (part : Part) (cause : Duration.LiteralError)
  | negativeDuration (part : Part)
  | invertedDurations
  | invalidTimestamp (part : Part) (cause : Instant.TimestampError)
  | emptyTag (key : String)
deriving DecidableEq

def ValidationError.message : ValidationError → String
  | emptyField part => part.name ++ " must be non-empty when present"
  | invalidDuration part cause =>
    part.name ++ " must be a valid duration string (e.g. '300ms', '1.5s'): " ++ cause.message
  | negativeDuration part => part.name ++ " cannot be negative"
  | invertedDurations => "min_duration cannot exceed max_duration"
  | invalidTimestamp part cause => part.name ++ " must be RFC3339: " ++ cause.message
  | emptyTag key => "tag keys and values must be non-empty (key " ++ Text.quoted key ++ ")"

/-- The cause of a violation in words, where a literal does not parse. -/
def ValidationError.causes : ValidationError → List String
  | invalidDuration _ cause => [cause.message]
  | invalidTimestamp _ cause => [cause.message]
  | emptyField _ | negativeDuration _ | invertedDurations | emptyTag _ => []

def checkText (part : Part) (text : Option String) : Except ValidationError Unit :=
  if text = some "" then .error (.emptyField part) else .ok ()

def checkDuration (part : Part) : Option String → Except ValidationError (Option Duration)
  | none => .ok none
  | some literal =>
    match Duration.ofLiteral literal with
    | .error cause => .error (.invalidDuration part cause)
    | .ok d => if d < Duration.zero then .error (.negativeDuration part) else .ok (some d)

/-- The lower bound of a duration may not exceed the upper one. -/
def checkOrder : Option Duration → Option Duration → Except ValidationError Unit
  | some least, some greatest => if greatest < least then .error .invertedDurations else .ok ()
  | _, _ => .ok ()

def checkTimestamp (part : Part) : Option String → Except ValidationError Unit
  | none => .ok ()
  | some literal =>
    match Instant.ofRfc3339 literal with
    | .error cause => .error (.invalidTimestamp part cause)
    | .ok _ => .ok ()

/-- No key and no value of a tag may be empty. -/
def checkTags : List (String × String) → Except ValidationError Unit
  | [] => .ok ()
  | (key, value) :: rest => if key = "" ∨ value = "" then .error (.emptyTag key) else checkTags rest

def validate (i : Intent) : Except ValidationError Unit := do
  checkText .service i.service
  checkText .operation i.operation
  let least ← checkDuration .minDuration i.minDuration
  let greatest ← checkDuration .maxDuration i.maxDuration
  checkOrder least greatest
  checkTimestamp .startTime i.startTime
  checkTimestamp .endTime i.endTime
  checkTags i.tags.entries

end TraceSearch.Intent
