import TraceSearch.Uri.Reader

/-!
# Endpoints

The address a model server is reached at. An endpoint is a base address to which a fixed path is
added; the result must be a URI.

Source: `OllamaGenerator::new` and `OllamaGenerator::uri`.
-/

namespace TraceSearch.Model

/-- The path under which a model server completes prompts. -/
def generatePath : String := "/api/generate"

/-- The URI that completes prompts below an endpoint, whose slashes at the end do not count. -/
def endpointUri (endpoint : String) : Except UriError Uri :=
  let base := (endpoint.toList.reverse.dropWhile (· == '/')).reverse
  Uri.read (String.ofList base ++ generatePath)

end TraceSearch.Model
