/-!
# Exchanges over the network

What a program needs of the network: posting a document to an address and waiting for the response,
for no longer than a given time. An exchange that brings no response has a fault, which explains
itself as a chain of causes, the outermost first.

Source: `OllamaGenerator::send`; hyper's client: a request, its response and the errors of its
connection.
-/

namespace TraceSearch.Host

/-- A document to be posted. The target is the path and query at the authority; the time to wait is
in nanoseconds. -/
structure PostRequest where
  authority : String
  target : String
  contentType : String
  body : String
  patience : Nat
deriving DecidableEq

/-- A response: its status and the bytes of its body. -/
structure PostResponse where
  status : Nat
  body : ByteArray

/-- Why no connection was made. -/
inductive ConnectError where
  | unreachable
  | refused
  | other (description : String)
deriving DecidableEq

def ConnectError.message : ConnectError → String
  | unreachable => "Network is unreachable (os error 101)"
  | refused => "Connection refused (os error 111)"
  | other description => description

/-- Why an exchange brought no response. -/
inductive ExchangeError where
  | connect (cause : ConnectError)
  | timedOut
deriving DecidableEq

/-- What a connection that was not made reports, from the outermost cause to the innermost. -/
def ConnectError.report (e : ConnectError) : List String :=
  ["client error (Connect)", "tcp connect error", e.message]

end TraceSearch.Host
