import TraceSearch.Json.Basic
import TraceSearch.Model.Generator

/-!
# Settings

What the program is told about its surroundings: the language model, the corpus and the size of
results. Every setting has a default.

Source: `Config` and `DEFAULT_CONFIG`.
-/

namespace TraceSearch

/-- The settings of the program; a limit of zero is no limit. -/
structure Settings where
  model : Model.ModelSettings
  corpusPath : String
  maxResults : Nat
deriving BEq

namespace Settings

/-- The default settings. -/
def defaults : Settings where
  model :=
    { provider := "ollama"
      model := "llama3.2"
      endpoint := "http://localhost:11434"
      temperature := 0
      maxTokens := 512
      timeout := 60 }
  corpusPath := "traces_bench.json"
  maxResults := 0

/-- Why there are no settings. -/
inductive SettingsError where
  | missingFile (path : String)
  | unreadable (path : String)
  | wrongType (key : String)
deriving DecidableEq

def SettingsError.message : SettingsError → String
  | missingFile path => "configuration file \"" ++ path ++ "\" not found"
  | unreadable path => "configuration file \"" ++ path ++ "\" is not well formed"
  | wrongType key => "the value of `" ++ key ++ "` is of the wrong type"

def toJson (s : Settings) : Json :=
  .object
    [("corpus", .object [("path", .string s.corpusPath)]),
      ("llm", .object
        [("endpoint", .string s.model.endpoint), ("max_tokens", .nat s.model.maxTokens),
          ("model", .string s.model.model), ("provider", .string s.model.provider),
          ("temperature", .number (.real s.model.temperature)),
          ("timeout_secs", .nat s.model.timeout)]),
      ("search", .object [("max_results", .nat s.maxResults)])]

end Settings

end TraceSearch
