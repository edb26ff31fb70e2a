/-!
# URIs

An address: a scheme with an authority and a path, a path alone, or an authority alone. The fragment
is not kept.

Source: `Uri` of http, and its errors.
-/

namespace TraceSearch

/-- Why an address is no URI. -/
inductive UriError where
  | empty
  | tooLong
  | invalidChar
  | schemeTooLong
  | invalidAuthority
  | invalidFormat
deriving DecidableEq

def UriError.message : UriError → String
  | empty => "empty string"
  | tooLong => "uri too long"
  | invalidChar => "invalid uri character"
  | schemeTooLong => "scheme too long"
  | invalidAuthority => "invalid authority"
  | invalidFormat => "invalid format"

/-- A URI. The fragment is not kept, and an empty path stands for the root. -/
structure Uri where
  scheme : Option String
  authority : String
  path : String
  query : Option String
deriving DecidableEq

def Uri.text (u : Uri) : String :=
  (match u.scheme with
    | none => ""
    | some s => s ++ "://") ++
    u.authority ++
    (if u.path = "" ∧ u.scheme.isSome then "/" else u.path) ++
    (match u.query with
    | none => ""
    | some q => "?" ++ q)

/-- The path and query a request to a URI asks for. -/
def Uri.target (u : Uri) : String :=
  (if u.path = "" then "/" else u.path) ++
    (match u.query with
    | none => ""
    | some q => "?" ++ q)

end TraceSearch
