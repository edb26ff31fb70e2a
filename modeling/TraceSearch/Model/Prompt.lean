/-!
# Prompts

What the language model is asked: to turn a question into a search intent, or to explain a trace or
a span. A prompt is a fixed text with one place for the input, which is put there as it stands.

Source: `render_search`, `render_trace_explain` and `render_span_explain`.
-/

namespace TraceSearch.Model

/-- A prompt with a place for an input. -/
structure Template where
  before : String
  after : String

def Template.fill (t : Template) (input : String) : String := t.before ++ input ++ t.after

def textOfLines (lines : List String) : String := String.join (lines.map fun line => line ++ "\n")

def Template.search : Template where
  before := textOfLines
    ["",
     "Extract trace filters into JSON. Use the \"Explanation\" to reason before outputting " ++
       "JSON.",
     "Rule: Do NOT convert units (s, ms, m). Extract durations and times exactly as " ++
       "written.",
     "Timestamps must be RFC3339 (e.g. \"2024-01-01T12:00:00Z\"); leave relative times as " ++
       "null.",
     "",
     "<Examples>",
     "# 1. Latency Bounds",
     "Input: \"latency longer than 2s\"",
     "Explanation: \">\" maps to min_duration; value is \"2s\". No units are processed.",
     "Output: \x7b\"min_duration\": \"2s\", \"max_duration\": null, \"service\": null, " ++
       "\"operation\": null, \"start_time\": null, \"end_time\": null, \"tags\": \x7b\x7d\x7d",
     "",
     "Input: \"shorter than 500ms\"",
     "Explanation: \"shorter\" maps to max_duration; value is \"500ms\".",
     "Output: \x7b\"min_duration\": null, \"max_duration\": \"500ms\", \"service\": null, " ++
       "\"operation\": null, \"start_time\": null, \"end_time\": null, \"tags\": \x7b\x7d\x7d",
     "",
     "# 2. Time Ranges",
     "Input: \"between 2024-01-01T12:00:00Z and 2024-01-01T13:00:00Z\"",
     "Explanation: \"between\" provides both a start_time and an end_time.",
     "Output: \x7b\"start_time\": \"2024-01-01T12:00:00Z\", \"end_time\": " ++
       "\"2024-01-01T13:00:00Z\", \"service\": null, \"operation\": null, \"tags\": " ++
       "\x7b\x7d\x7d",
     "",
     "# 3. Identity Logic (Service vs Operation)",
     "Input: \"traces from payment-service\"",
     "Explanation: \"payment-service\" is a noun identifying the system (service).",
     "Output: \x7b\"service\": \"payment-service\", \"operation\": null, \"tags\": " ++
       "\x7b\x7d\x7d",
     "",
     "Input: \"calls to GetUser\"",
     "Explanation: \"GetUser\" is a verb/action identifying the function (operation).",
     "Output: \x7b\"service\": null, \"operation\": \"GetUser\", \"tags\": \x7b\x7d\x7d",
     "",
     "Input: \"login in auth-api\"",
     "Explanation: \"login\" is the operation (verb); \"auth-api\" is the service (noun).",
     "Output: \x7b\"service\": \"auth-api\", \"operation\": \"login\", \"tags\": " ++
       "\x7b\x7d\x7d",
     "",
     "# 4. HTTP Method vs Operation",
     "Input: \"GET requests for GetItems\"",
     "Explanation: \"GET\" is an HTTP method (tag); \"GetItems\" is the function name " ++
       "(operation).",
     "Output: \x7b\"service\": null, \"operation\": \"GetItems\", \"tags\": " ++
       "\x7b\"http.method\": \"GET\"\x7d\x7d",
     "",
     "# 5. Status Codes and Errors",
     "Input: \"500 errors in payments\"",
     "Explanation: \"500\" is a status code; \"errors\" triggers error:true; \"payments\" " ++
       "is the service.",
     "Output: \x7b\"service\": \"payments\", \"operation\": null, \"tags\": " ++
       "\x7b\"http.status_code\": \"500\", \"error\": \"true\"\x7d\x7d",
     "",
     "# 6. Complex Example",
     "Input: \"Show me 500 errors in orders-api for GetCart > 1.5s\"",
     "Explanation: \"500\" is status code; \"orders-api\" is service; \"GetCart\" is " ++
       "operation; \"> 1.5s\" is min_duration.",
     "Output: \x7b",
     "  \"service\": \"orders-api\",",
     "  \"operation\": \"GetCart\",",
     "  \"min_duration\": \"1.5s\",",
     "  \"max_duration\": null,",
     "  \"start_time\": null,",
     "  \"end_time\": null,",
     "  \"tags\": \x7b\"http.status_code\": \"500\", \"error\": \"true\"\x7d",
     "\x7d",
     "</Examples>",
     "",
     "<Task>"] ++
    "User Input: "
  after := "\n</Task>\n"

def Template.trace : Template where
  before := textOfLines
    ["",
     "You are a distributed tracing assistant.",
     "",
     "Given the pruned trace summary below, provide a clear explanation in 3-5 sentences " ++
       "that covers:",
     "1. What the trace is doing end-to-end (high-level flow).",
     "2. Whether the trace appears normal or problematic.",
     "3. If there is an error, where it most likely originated.",
     "4. One or two reasonable next debugging steps (only if there is a problem).",
     "",
     "Rules:",
     "- Do NOT hallucinate details that are not present in the summary.",
     "- If the information is insufficient to draw conclusions, say: \"Insufficient data\".",
     "- If there is no error, explicitly state: \"No clear error observed.\"",
     "",
     "Trace Context:"]
  after := "\n"

def Template.span : Template where
  before := textOfLines
    ["",
     "You are a distributed tracing assistant.",
     "",
     "Given the span details below, explain in 2-4 sentences:",
     "1. What this span represents in the system.",
     "2. How it relates to the surrounding request (based only on the given data).",
     "3. If the span is in error, why that might have happened.",
     "4. If the span is NOT in error, what \"normal\" behavior this likely represents.",
     "",
     "Rules:",
     "- Do NOT hallucinate missing details.",
     "- If the information is insufficient, say: \"Insufficient data\".",
     "- If there is no error, explicitly state: \"No error observed on this span.\"",
     "",
     "Span Context:"]
  after := "\n"

end TraceSearch.Model
