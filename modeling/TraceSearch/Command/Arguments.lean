import TraceSearch.Decimal.Integer

/-!
# Arguments

The command line: options that hold for every command, a command, and its own options and words.
Arguments are taken from the left and each is checked as it is taken, so the first that is refused,
or the first that asks for help, decides. An option is given once at most on either side of the
command; one given on both sides counts as given after it.

Source: `Cli` and `Command`; the parser that clap derives from them, with its order of refusals.
-/

namespace TraceSearch.Command

/-- What a command does, with what it works on. -/
inductive Action where
  | search (text : String)
  | explainTrace (trace : Nat)
  | explainSpan (trace span : Nat)
  | generate (count : Nat) (path : String)
  | serve (address : String)
deriving DecidableEq

/-- The name of a command. -/
inductive CommandName where
  | search | explainTrace | explainSpan | generate | serve | help
deriving DecidableEq

def CommandName.all : List CommandName :=
  [search, explainTrace, explainSpan, generate, serve, help]

def CommandName.text : CommandName → String
  | search => "search"
  | explainTrace => "explain-trace"
  | explainSpan => "explain-span"
  | generate => "generate"
  | serve => "serve"
  | help => "help"

def CommandName.ofText? (text : String) : Option CommandName :=
  CommandName.all.find? fun name => name.text == text

/-- A command line that was understood. -/
structure Invocation where
  configPath : Option String
  corpusPath : Option String
  debug : Bool
  action : Action
deriving DecidableEq

/-- Why a command line is not carried out: it is not understood, or it asks for help, about a
command or the program. -/
inductive Refusal where
  | misuse
  | help (about : Option CommandName)
deriving DecidableEq

/-- What an argument stands for. -/
inductive Kind where
  | text | path | number
deriving DecidableEq

def numberOf? (s : String) : Option Nat := (Decimal.Range.unsigned64.read s).toOption.map Int.toNat

/-- Whether an argument is of a kind; a path may not be empty. -/
def Kind.accepts : Kind → String → Bool
  | text, _ => true
  | path, s => s != ""
  | number, s => (numberOf? s).isSome

/-- What may be given at one side of the command. -/
structure Level where
  options : List (String × Kind)
  words : List Kind
deriving DecidableEq

def globalOptions : List (String × Kind) := [("config", .path), ("corpus", .path)]

def Level.root : Level := ⟨globalOptions, []⟩

def Level.ofCommand : CommandName → Level
  | .search => ⟨globalOptions, [.text]⟩
  | .explainTrace => ⟨globalOptions, [.number]⟩
  | .explainSpan => ⟨globalOptions, [.number, .number]⟩
  | .generate => ⟨globalOptions ++ [("count", .number), ("out", .path)], []⟩
  | .serve => ⟨globalOptions ++ [("addr", .text)], []⟩
  | .help => ⟨[], []⟩

/-- What has been given at one side of the command. -/
structure Given where
  options : List (String × String)
  debug : Bool
  words : List String
deriving DecidableEq

namespace Given

def empty : Given := ⟨[], false, []⟩

def option? (g : Given) (name : String) : Option String := g.options.lookup name

end Given

def takeOption (level : Level) (g : Given) (name value : String) : Except Refusal Given :=
  match level.options.lookup name with
  | none => .error .misuse
  | some kind =>
    if (g.option? name).isSome || !kind.accepts value then .error .misuse
    else .ok { g with options := (name, value) :: g.options }

def takeWord (level : Level) (g : Given) (word : String) : Except Refusal Given :=
  match level.words[g.words.length]? with
  | none => .error .misuse
  | some kind =>
    if kind.accepts word then .ok { g with words := g.words ++ [word] } else .error .misuse

/-- Takes an option that has no value; `about` is the command that help is asked about. -/
def takeFlag (about : Option CommandName) (g : Given) (name : String) : Except Refusal Given :=
  if name = "help" then .error (.help about)
  else if name = "debug" && !g.debug then .ok { g with debug := true }
  else .error .misuse

/-- The forms of an argument. -/
inductive Form where
  | separator
  | long (name : String) (value : Option String)
  | short (letter : Char)
  | word
deriving DecidableEq

/-- The form of an argument; a single hyphen is a word. -/
def formOf (argument : String) : Form :=
  match argument.toList with
  | ['-', '-'] => .separator
  | '-' :: '-' :: rest =>
    let name := String.ofList (rest.takeWhile (· != '='))
    match rest.dropWhile (· != '=') with
    | [] => .long name none
    | _ :: value => .long name (some (String.ofList value))
  | '-' :: letter :: _ => .short letter
  | _ => .word

/-- Whether an option without a value of its own takes the argument after it. -/
def takesNext (level : Level) (name : String) : Bool := (level.options.lookup name).isSome

/-- Takes words alone, after a separator. -/
def takeWords (level : Level) : Given → List String → Except Refusal Given
  | g, [] => .ok g
  | g, word :: rest =>
    match takeWord level g word with
    | .error e => .error e
    | .ok g => takeWords level g rest

/-- Takes the arguments of a level up to the first word that is left to the caller, which is any
word where the level takes none. -/
def takeArguments (level : Level) (about : Option CommandName) :
    Given → List String → Except Refusal (Given × List String)
  | g, [] => .ok (g, [])
  | g, argument :: rest =>
    match formOf argument with
    | .separator =>
      if level.words.isEmpty && !rest.isEmpty then .error .misuse
      else (takeWords level g rest).map fun g => (g, [])
    | .short letter => if letter = 'h' then .error (.help about) else .error .misuse
    | .long name (some value) =>
      match takeOption level g name value with
      | .error e => .error e
      | .ok g => takeArguments level about g rest
    | .long name none =>
      if takesNext level name then
        match rest with
        | [] => .error .misuse
        | value :: rest =>
          if formOf value = .word then
            match takeOption level g name value with
            | .error e => .error e
            | .ok g => takeArguments level about g rest
          else .error .misuse
      else
        match takeFlag about g name with
        | .error e => .error e
        | .ok g => takeArguments level about g rest
    | .word =>
      if level.words.isEmpty then .ok (g, argument :: rest)
      else
        match takeWord level g argument with
        | .error e => .error e
        | .ok g => takeArguments level about g rest

/-- What a command does with what was given for it, if nothing is missing. -/
def actionOf? (name : CommandName) (g : Given) : Option Action :=
  match name, g.words with
  | .search, [text] => some (.search text)
  | .explainTrace, [trace] => (numberOf? trace).map .explainTrace
  | .explainSpan, [trace, span] => do
    return .explainSpan (← numberOf? trace) (← numberOf? span)
  | .generate, [] =>
    some (.generate (((g.option? "count").bind numberOf?).getD 100)
      ((g.option? "out").getD "traces_bench.json"))
  | .serve, [] => some (.serve ((g.option? "addr").getD "127.0.0.1:8080"))
  | _, _ => none

/-- What the words after `help` ask about: nothing or one command. -/
def helpAbout : List String → Refusal
  | [] => .help none
  | [name] =>
    match CommandName.ofText? name with
    | some name => .help (some name)
    | none => .misuse
  | _ => .misuse

def readArguments (arguments : List String) : Except Refusal Invocation := do
  let (before, rest) ← takeArguments .root none .empty arguments
  match rest with
  | [] => .error .misuse
  | word :: rest =>
    match CommandName.ofText? word with
    | none => .error .misuse
    | some .help => .error (helpAbout rest)
    | some name => do
      let (after, rest) ← takeArguments (.ofCommand name) (some name) .empty rest
      match actionOf? name after, rest with
      | some action, [] =>
        let option (name : String) := (after.option? name).orElse fun _ => before.option? name
        return ⟨option "config", option "corpus", before.debug || after.debug, action⟩
      | _, _ => .error .misuse

end TraceSearch.Command
