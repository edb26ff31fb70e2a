import TraceSearch.Command.Arguments

/-!
# Help

The texts that explain the command line: about the program as a whole, and about each command. Names
and explanations stand in two columns, the second of which begins two blanks after the longest name.

Source: `Cli` and `Command`; the help texts that clap derives from them.
-/

namespace TraceSearch.Command

/-- A name with its explanation. -/
structure HelpLine where
  name : String
  explanation : String

def columns (lines : List HelpLine) : String :=
  let width := (lines.map fun line => line.name.length).foldl max 0
  String.join <| lines.map fun line =>
    "  " ++ line.name ++ String.ofList (List.replicate (width - line.name.length + 2) ' ') ++
      line.explanation ++ "\n"

/-- What a command does, in one line. -/
def CommandName.summary : CommandName → String
  | search => "Search the corpus with a natural-language query"
  | explainTrace => "Explain a whole trace by corpus index"
  | explainSpan => "Explain one span, counted across the trace's resources and scopes"
  | generate => "Write a synthetic corpus"
  | serve => "Serve search and explanations over HTTP"
  | help => "Print this message or the help of the given subcommand(s)"

def configLine : HelpLine :=
  ⟨"    --config <CONFIG>", "Config file (default: ~/.config/trawl/config.toml, if present)"⟩

def corpusLine : HelpLine :=
  ⟨"    --corpus <CORPUS>", "Trace corpus to load, overriding `[corpus] path`"⟩

def debugLine : HelpLine :=
  ⟨"    --debug", "Log at debug level to stderr (RUST_LOG overrides)"⟩

def helpLine : HelpLine := ⟨"-h, --help", "Print help"⟩

def CommandName.wordLines : CommandName → List HelpLine
  | search => [⟨"<TEXT>", ""⟩]
  | explainTrace => [⟨"<INDEX>", ""⟩]
  | explainSpan => [⟨"<TRACE>", ""⟩, ⟨"<SPAN>", ""⟩]
  | generate | serve => []
  | help => [⟨"[COMMAND]...", "Print help for the subcommand(s)"⟩]

def CommandName.optionLines : CommandName → List HelpLine
  | search | explainTrace | explainSpan => [configLine, corpusLine, debugLine, helpLine]
  | generate =>
    [configLine, ⟨"    --count <COUNT>", "[default: 100]"⟩, corpusLine,
      ⟨"    --out <OUT>", "[default: traces_bench.json]"⟩, debugLine, helpLine]
  | serve =>
    [⟨"    --addr <ADDR>", "[default: 127.0.0.1:8080]"⟩, configLine, corpusLine, debugLine,
      helpLine]
  | help => []

/-- A block of lines under a title, if there are any. -/
def block (title : String) (lines : List HelpLine) : String :=
  if lines.isEmpty then "" else "\n" ++ title ++ ":\n" ++ columns lines

def programHelp : String :=
  "trawl: natural-language search over distributed traces\n\n" ++
    "Usage: trawl [OPTIONS] <COMMAND>\n" ++
    block "Commands" (CommandName.all.map fun name => ⟨name.text, name.summary⟩) ++
    block "Options" [configLine, corpusLine, debugLine, helpLine]

def commandHelp (name : CommandName) : String :=
  name.summary ++ "\n\n" ++ "Usage: trawl " ++ name.text ++
    (if name.optionLines.isEmpty then "" else " [OPTIONS]") ++
    String.join (name.wordLines.map fun line => " " ++ line.name) ++ "\n" ++
    block "Arguments" name.wordLines ++ block "Options" name.optionLines

def helpText : Option CommandName → String
  | none => programHelp
  | some name => commandHelp name

end TraceSearch.Command
