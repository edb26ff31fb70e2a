/-!
# Media types

The type of a document that is sent along with it: a top-level type, a subtype with an optional
suffix after a plus sign, and parameters. Only the form of the parameters is checked. A document
counts as JSON by its subtype or by its suffix, in either case of letters.

Source: mime, with which axum reads the content type of a body.
-/

namespace TraceSearch.Server

/-- A media type in lower case. -/
structure MediaType where
  topLevel : List Char
  subtype : List Char
  suffix : Option (List Char)
deriving DecidableEq

namespace MediaType

def isToken (c : Char) : Bool := c.isAlphanum || "!#$%&'*+-.^_\x60|~".toList.contains c

def isQuotable (c : Char) : Bool := ' ' ≤ c && c ≤ '~'

/-- Where the reader of parameters stands. -/
inductive Place where
  | beforeName | inName | beforeValue | inValue | opened | inQuotes | closed
deriving DecidableEq

def Place.step (c : Char) : Place → Option Place
  | beforeName => if c = ' ' then some beforeName else if isToken c then some inName else none
  | inName => if c = '=' then some beforeValue else if isToken c then some inName else none
  | beforeValue => if c = '"' then some opened else if isToken c then some inValue else none
  | inValue => if c = ';' then some beforeName else if isToken c then some inValue else none
  | opened => if isQuotable c then some inQuotes else none
  | inQuotes => if c = '"' then some closed else if isQuotable c then some inQuotes else none
  | closed => if c = ';' then some beforeName else if c = ' ' then some closed else none

def Place.mayEnd : Place → Bool
  | beforeName | beforeValue | inValue | closed => true
  | inName | opened | inQuotes => false

/-- Whether parameters are well formed, given what follows the first semicolon. -/
def parametersOk (s : List Char) : Bool :=
  match s.foldlM (fun place c => Place.step c place) Place.beforeName with
  | some place => place.mayEnd
  | none => false

/-- The subtype and its suffix; a plus sign at the start belongs to the subtype. -/
def splitSuffix (s : List Char) : List Char × Option (List Char) :=
  let tail := (s.reverse.takeWhile (· != '+')).reverse
  let head := s.take (s.length - tail.length - 1)
  if head.isEmpty then (s, none) else (head, some tail)

/-- The media type of a text in lower case. -/
def readChars (s : List Char) : Option MediaType :=
  let topLevel := s.takeWhile isToken
  match s.dropWhile isToken with
  | '/' :: rest =>
    let names := rest.takeWhile isToken
    let (subtype, suffix) := splitSuffix names
    let ending := match rest.dropWhile isToken with
      | [] => true
      | ';' :: parameters => !names.isEmpty && parametersOk parameters
      | _ => false
    if topLevel.isEmpty || !ending then none else some ⟨topLevel, subtype, suffix⟩
  | _ => none

def read (s : String) : Option MediaType := readChars (s.toList.map Char.toLower)

def isJson (t : MediaType) : Bool :=
  let json := ['j', 's', 'o', 'n']
  t.topLevel == "application".toList && (t.subtype == json || t.suffix == some json)

end MediaType

end TraceSearch.Server
