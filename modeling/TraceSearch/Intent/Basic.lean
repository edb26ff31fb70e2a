import TraceSearch.Json.Printer

/-!
# Search intents

What a reader wants to find, as a language model states it: every part is optional and still a
literal. An absent part is no constraint, while an empty one is a fault. Tags are held in the order
of their keys, each key once.

Source: `SearchIR` and `SearchIR::is_empty`.
-/

namespace TraceSearch

/-- Texts by key, in the order of the keys and each key once. -/
structure Tags where
  entries : List (String × String)
  ascending : (entries.map Prod.fst).Pairwise (· < ·)
deriving DecidableEq

namespace Tags

def empty : Tags := ⟨[], List.Pairwise.nil⟩

instance : Inhabited Tags := ⟨empty⟩

theorem nodup_keys (tags : Tags) : (tags.entries.map Prod.fst).Nodup :=
  tags.ascending.imp fun h => fun heq => String.lt_irrefl _ (heq ▸ h)

end Tags

/-- A candidate search intent. -/
structure Intent where
  service : Option String
  operation : Option String
  minDuration : Option String
  maxDuration : Option String
  startTime : Option String
  endTime : Option String
  tags : Tags
deriving DecidableEq, Inhabited

namespace Intent

/-- The parts of an intent that hold one literal. -/
inductive Part where
  | service | operation | minDuration | maxDuration | startTime | endTime
deriving DecidableEq

def Part.name : Part → String
  | service => "service"
  | operation => "operation"
  | minDuration => "min_duration"
  | maxDuration => "max_duration"
  | startTime => "start_time"
  | endTime => "end_time"

/-- The intent without any constraint. -/
def empty : Intent := ⟨none, none, none, none, none, none, Tags.empty⟩

/-- An intent without any constraint. -/
def isEmpty (i : Intent) : Bool :=
  i.service.isNone && i.operation.isNone && i.minDuration.isNone && i.maxDuration.isNone &&
    i.startTime.isNone && i.endTime.isNone && i.tags.entries.isEmpty

theorem isEmpty_iff (i : Intent) : i.isEmpty = true ↔ i = empty := by
  obtain ⟨service, operation, minDuration, maxDuration, startTime, endTime, tags⟩ := i
  obtain ⟨entries, ascending⟩ := tags
  simp [isEmpty, empty, Tags.empty, and_assoc]

def toJson (i : Intent) : Json :=
  .object
    [(Part.service.name, .ofString? i.service), (Part.operation.name, .ofString? i.operation),
      (Part.minDuration.name, .ofString? i.minDuration),
      (Part.maxDuration.name, .ofString? i.maxDuration),
      (Part.startTime.name, .ofString? i.startTime), (Part.endTime.name, .ofString? i.endTime),
      ("tags", .object (i.tags.entries.map fun (key, value) => (key, .string value)))]

end Intent

end TraceSearch
