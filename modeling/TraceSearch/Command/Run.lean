import TraceSearch.Command.Failure
import TraceSearch.Command.Help
import TraceSearch.Corpus.Synthetic
import TraceSearch.Server.Respond
import TraceSearch.Settings.Source

/-!
# Carrying out commands

A command runs on a machine, which holds the files, the environment, the terminal and the network.
The settings are read first, then the corpus, then the model is chosen; writing a synthetic corpus
needs none of them. A heading is printed before the model is asked, so it stands there even if the
model fails.

Source: `main`, `generate`, `run` and `App::from_config`.
-/

namespace TraceSearch.Command

/-- What commands run on. -/
structure Machine (m : Type → Type) where
  environment : Settings.Environment
  contentOf : String → m (Except Host.FileError ByteArray)
  store : String → String → m (Except Host.FileError Unit)
  print : String → m Unit
  exchange : Host.PostRequest → m (Except Host.ExchangeError Host.PostResponse)
  serve : String → (Server.Request → m Server.Response) → m (Except String Unit)

variable {m : Type → Type} [Monad m]

def generate (machine : Machine m) (count : Nat) (path : String) : m (Except Failure Unit) := do
  let traces := Corpus.Synthetic.generate count
  match ← machine.store path (Corpus.write traces) with
  | .error e => return .error (.corpus (.file path e))
  | .ok () =>
    machine.print ("wrote " ++ Decimal.integer traces.length ++ " traces to " ++ path ++ "\n")
    return .ok ()

/-- The search service that settings describe; a path of the command line takes precedence. -/
def openService (machine : Machine m) (settings : Settings) (corpusPath : Option String) :
    m (Except Failure (Service m)) := do
  let path := corpusPath.getD settings.corpusPath
  match Corpus.ofFile path (← machine.contentOf path) with
  | .error e => return .error (.corpus e)
  | .ok corpus =>
    match Generator.ofSettings machine.exchange settings.model with
    | .error e => return .error (.model e)
    | .ok generator =>
      return .ok
        { corpus, assistant := Assistant.ofGenerator generator, maxResults := settings.maxResults }

def printExplanation (machine : Machine m) :
    Except ExtractionError String → m (Except Failure Unit)
  | .error e => return .error (.explain (.extraction e))
  | .ok text => do
    machine.print (text ++ "\n")
    return .ok ()

def explainTrace (machine : Machine m) (service : Service m) (index : Nat) :
    m (Except Failure Unit) := do
  match Corpus.trace service.corpus index with
  | .error e => return .error (.explain (.lookup e))
  | .ok t =>
    machine.print ("=== EXPLAIN TRACE " ++ Decimal.integer index ++ " ===\n")
    printExplanation machine (← service.describeTrace t)

def explainSpan (machine : Machine m) (service : Service m) (traceIndex index : Nat) :
    m (Except Failure Unit) := do
  match Corpus.span service.corpus traceIndex index with
  | .error e => return .error (.explain (.lookup e))
  | .ok s =>
    machine.print ("=== EXPLAIN SPAN " ++ Decimal.integer index ++ " (TRACE " ++
      Decimal.integer traceIndex ++ ") SERVICE: " ++ s.serviceLabel ++ " ===\n")
    printExplanation machine (← service.describeSpan s)

def search (machine : Machine m) (service : Service m) (text : String) :
    m (Except Failure Unit) := do
  match ← service.search (fun _ => false) text with
  | .error e => return .error (.search e)
  | .ok found =>
    machine.print (Report.text found)
    return .ok ()

def serve (machine : Machine m) (service : Service m) (address : String) :
    m (Except Failure Unit) := do
  match checkAddress address with
  | .error e => return .error (.bind address e)
  | .ok () =>
    return (← machine.serve address (Server.respond service fun _ => false)).mapError fun e =>
      .bind address (.refused e)

def runOn (machine : Machine m) (service : Service m) : Action → m (Except Failure Unit)
  | .search text => search machine service text
  | .explainTrace trace => explainTrace machine service trace
  | .explainSpan trace span => explainSpan machine service trace span
  | .generate count path => generate machine count path
  | .serve address => serve machine service address

def run (machine : Machine m) (i : Invocation) : m (Except Failure Unit) := do
  match i.action with
  | .generate count path => generate machine count path
  | action =>
    match ← Settings.load machine.contentOf machine.environment i.configPath with
    | .error e => return .error (.settings e)
    | .ok settings =>
      match ← openService machine settings i.corpusPath with
      | .error e => return .error e
      | .ok service => runOn machine service action

/-- How a run of the program ended. -/
inductive Outcome where
  | done
  | misused
  | failed (cause : Failure)

def Outcome.code : Outcome → UInt32
  | done => 0
  | failed _ => 1
  | misused => 2

def runArguments (machine : Machine m) (arguments : List String) : m Outcome := do
  match readArguments arguments with
  | .error .misuse => return .misused
  | .error (.help about) => do
    machine.print (helpText about)
    return .done
  | .ok i =>
    match ← run machine i with
    | .error e => return .failed e
    | .ok () => return .done

end TraceSearch.Command
