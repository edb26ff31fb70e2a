import TraceSearch.Intent.Reader
import TraceSearch.Model.Generator
import TraceSearch.Model.Prompt
import TraceSearch.Model.Reply

/-!
# Assistants

An assistant states the intent of free text and explains traces and spans. The one over a generator
fills a prompt, has it completed and reads the completion: an explanation is the completion without
the blanks around it, and an intent is read from the block in the completion. What a model states is
not trusted: the intent is still to be validated.

Source: `SearchExtractor::complete` and `SearchExtractor::extract_search_ir`.
-/

namespace TraceSearch

/-- Why an assistant has no answer. -/
inductive ExtractionError where
  | backend (cause : ModelError)
  | emptyResponse
  | invalidJson (cause : Json.Error)

namespace ExtractionError

def message : ExtractionError → String
  | backend cause => "model backend failed: " ++ cause.message
  | emptyResponse => "model returned an empty response"
  | invalidJson cause => "model output is not a valid search IR: " ++ cause.message

/-- The causes of a failure in words, the outermost first. -/
def causes : ExtractionError → List String
  | backend cause => cause.message :: cause.causes
  | emptyResponse => []
  | invalidJson cause => [cause.message]

end ExtractionError

/-- An answerer of free text and explainer of contexts. -/
structure Assistant (m : Type → Type) where
  extract : String → m (Except ExtractionError Intent)
  explainTrace : String → m (Except ExtractionError String)
  explainSpan : String → m (Except ExtractionError String)

/-- An optional part, where a model that has no value may have stated the empty text. -/
def Intent.statedPart (part : Option String) : Option String :=
  if part = some "" then none else part

/-- An intent without its empty parts; tags stay as they are. -/
def Intent.dropEmptyParts (i : Intent) : Intent where
  service := statedPart i.service
  operation := statedPart i.operation
  minDuration := statedPart i.minDuration
  maxDuration := statedPart i.maxDuration
  startTime := statedPart i.startTime
  endTime := statedPart i.endTime
  tags := i.tags

namespace Model

/-- The text of a completion without the blanks around it; a blank one is a failure. -/
def completionText : Except ModelError String → Except ExtractionError String
  | .ok text => if Text.isBlankText text then .error .emptyResponse else .ok (Text.trim text)
  | .error .emptyResponse => .error .emptyResponse
  | .error cause => .error (.backend cause)

def statedIntent (document : String) : Except ExtractionError Intent :=
  if document = "" then .error .emptyResponse
  else
    match Intent.read document with
    | .error cause => .error (.invalidJson cause)
    | .ok i => .ok i.dropEmptyParts

def completedIntent (completion : Except ModelError String) : Except ExtractionError Intent :=
  match completionText completion with
  | .error e => .error e
  | .ok text => statedIntent (jsonBlock text)

end Model

def Assistant.ofGenerator {m : Type → Type} [Monad m] (g : Generator m) : Assistant m where
  extract text := return Model.completedIntent (← g.generate (Model.Template.search.fill text))
  explainTrace context :=
    return Model.completionText (← g.generate (Model.Template.trace.fill context))
  explainSpan context :=
    return Model.completionText (← g.generate (Model.Template.span.fill context))

end TraceSearch
