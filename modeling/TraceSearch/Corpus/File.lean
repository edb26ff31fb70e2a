import TraceSearch.Host.File
import TraceSearch.Json.Printer
import TraceSearch.Otlp.Reader
import TraceSearch.Otlp.Writer

/-!
# Corpus files

A corpus is an array of trace documents. It is read in two stages: the whole text must first be one
array of values, and then each value is decoded on its own, where the first that is no trace decides
the error. A corpus is written as the array of the documents of its traces.

Source: `load_traces_from_file`, `parse_traces` and `write_traces`.
-/

namespace TraceSearch.Corpus

/-- Why a corpus is not loaded or stored. -/
inductive LoadError where
  | file (path : String) (cause : Host.FileError)
  | notAnArray (cause : Json.Error)
  | trace (index : Nat) (cause : Json.Mismatch)

def LoadError.cause : LoadError → String
  | file _ cause => cause.message
  | notAnArray cause => cause.message
  | trace _ cause => cause.message

def LoadError.message : LoadError → String
  | file path cause => "failed to read " ++ path ++ ": " ++ cause.message
  | notAnArray cause => "corpus is not a JSON array: " ++ cause.message
  | trace index cause =>
    "failed to decode trace at index " ++ Decimal.integer index ++ ": " ++ cause.message

def readDocuments (text : String) : Except Json.Error (List Json) :=
  match Json.skipBlank text.toList with
  | '[' :: rest =>
    Json.complete (Json.readSequence (Json.readValue true (Json.nestingLimit - 1)) rest)
  | s => .error (Json.wrongTypeAt .sequence s)

/-- The traces of documents, counted from `index`. -/
def decodeFrom (index : Nat) : List Json → Except LoadError (List Trace)
  | [] => .ok []
  | document :: rest =>
    match Otlp.decodeTrace document with
    | .error m => .error (.trace index m)
    | .ok t => (decodeFrom (index + 1) rest).map (t :: ·)

def parse (text : String) : Except LoadError (List Trace) :=
  match readDocuments text with
  | .error e => .error (.notAnArray e)
  | .ok documents => decodeFrom 0 documents

def ofFile (path : String) (content : Except Host.FileError ByteArray) :
    Except LoadError (List Trace) :=
  match Host.textOf content with
  | .error e => .error (.file path e)
  | .ok text => parse text

def write (traces : List Trace) : String := Json.pretty (.array (traces.map Otlp.encodeTrace))

end TraceSearch.Corpus
