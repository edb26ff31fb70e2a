import TraceSearch.Corpus.File
import TraceSearch.Corpus.Lookup
import TraceSearch.Search.Service
import TraceSearch.Settings.Basic

/-!
# Failures of commands

What can go wrong when a command is carried out, and how it is reported: the message in the first
line and below it the causes, numbered from zero where there are several.

Source: `main`, `run` and `App::from_config`; anyhow's report of an error with its causes.
-/

namespace TraceSearch.Command

/-- Why an address is none to listen at. -/
inductive AddressError where
  | noPort
  | badPort
  | refused (description : String)
deriving DecidableEq

def AddressError.message : AddressError → String
  | noPort => "invalid socket address"
  | badPort => "invalid port value"
  | refused description => description

def checkAddress (address : String) : Except AddressError Unit :=
  let reversed := address.toList.reverse
  if !reversed.contains ':' then .error .noPort
  else
    match Decimal.Range.unsigned16.readChars (reversed.takeWhile (· != ':')).reverse with
    | .ok _ => .ok ()
    | .error _ => .error .badPort

/-- Why a command is not carried out. -/
inductive Failure where
  | settings (cause : Settings.SettingsError)
  | corpus (cause : Corpus.LoadError)
  | model (cause : ModelError)
  | search (cause : SearchError)
  | explain (cause : ExplainError)
  | bind (address : String) (cause : AddressError)

namespace Failure

def message : Failure → String
  | settings _ => "failed to load config"
  | corpus cause => cause.message
  | model cause => cause.message
  | search cause => cause.message
  | explain cause => cause.message
  | bind address _ => "failed to bind " ++ address

/-- The causes of a failure in words, the outermost first. -/
def causes : Failure → List String
  | settings cause => [cause.message]
  | corpus cause => [cause.cause]
  | model cause => cause.causes
  | search cause => cause.causes
  | explain cause => cause.causes
  | bind _ cause => [cause.message]

/-- A text whose lines after the first are indented. -/
def indented (width : Nat) (text : String) : String :=
  String.ofList <| text.toList.flatMap fun c =>
    if c = '\n' then c :: List.replicate width ' ' else [c]

def numbered (n : Nat) : String :=
  String.ofList ((Decimal.digits n).leftpad 5 ' ') ++ ": "

def causeLines : List String → String
  | [] => ""
  | [cause] => "\n\nCaused by:\n    " ++ indented 4 cause
  | causes =>
    "\n\nCaused by:" ++
      String.join (causes.mapIdx fun n cause => "\n" ++ numbered n ++ indented 7 cause)

def report (f : Failure) : String := "Error: " ++ f.message ++ causeLines f.causes ++ "\n"

end Failure

end TraceSearch.Command
