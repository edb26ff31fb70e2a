import TraceSearch.Uri.Basic

/-!
# Reading URIs

An address is cut into scheme, authority, path and query, and each may hold only its own characters.
Those beyond ASCII may stand in a path or a query but not in an authority, and a control may stand
nowhere but in a fragment, which is dropped unread.

Source: `OllamaGenerator::new`; the parsing of `Uri` in http.
-/

namespace TraceSearch

namespace Uri

def isSchemeChar (c : Char) : Bool :=
  c.isAlphanum || c == '+' || c == '-' || c == '.' || c == '~'

/-- The characters of an authority; a percent sign is let through to be judged by its place. -/
def isAuthorityChar (c : Char) : Bool :=
  c.isAlphanum || "!$&'()*+,;=-._~:@[]%".toList.contains c

def endsAuthority (c : Char) : Bool := c == '/' || c == '?' || c == '#'

def isPathChar (c : Char) : Bool :=
  let n := c.toNat
  n == 0x21 || (0x24 ≤ n && n ≤ 0x3B) || n == 0x3D || (0x40 ≤ n && n ≤ 0x5F) ||
    (0x61 ≤ n && n ≤ 0x7A) || n == 0x7C || n == 0x7E || 0x7F < n ||
    c == '"' || c == '\x7b' || c == '\x7d'

def isQueryChar (c : Char) : Bool :=
  let n := c.toNat
  n == 0x21 || (0x24 ≤ n && n ≤ 0x3B) || n == 0x3D || (0x3F ≤ n && n != 0x7F)

/-- What has been seen of an authority. -/
structure AuthorityState where
  colons : Nat
  opened : Bool
  closed : Bool
  percent : Bool
  endsInAt : Bool

/-- One character of an authority. What stands before an at sign, or in brackets, may hold colons
and percent signs that do not count further on. -/
def stepAuthority (state : AuthorityState) (c : Char) : Except UriError AuthorityState :=
  let state := { state with endsInAt := false }
  if !isAuthorityChar c then .error .invalidChar
  else if c = ':' then
    if 8 ≤ state.colons then .error .invalidAuthority
    else .ok { state with colons := state.colons + 1 }
  else if c = '[' then
    if state.percent || state.opened then .error .invalidAuthority
    else .ok { state with opened := true }
  else if c = ']' then
    if !state.opened || state.closed then .error .invalidAuthority
    else .ok { state with closed := true, colons := 0, percent := false }
  else if c = '@' then .ok { state with endsInAt := true, colons := 0, percent := false }
  else if c = '%' then .ok { state with percent := true }
  else .ok state

/-- Checks an authority: brackets must pair up, at most one colon may stand before a port, something
must follow an at sign, and no percent sign may stand in the host. -/
def checkAuthority (authority : List Char) : Except UriError Unit := do
  let state ← authority.foldlM stepAuthority ⟨0, false, false, false, false⟩
  if state.opened != state.closed || 1 < state.colons || state.endsInAt || state.percent then
    .error .invalidAuthority

/-- The scheme of an address, if it has one, and what follows it. The two web schemes are known in
either case. -/
def splitScheme (s : List Char) : Except UriError (Option String × List Char) :=
  let lower := s.map Char.toLower
  if "http://".toList.isPrefixOf lower then .ok (some "http", s.drop 7)
  else if "https://".toList.isPrefixOf lower then .ok (some "https", s.drop 8)
  else
    let scheme := s.takeWhile isSchemeChar
    match s.dropWhile isSchemeChar with
    | ':' :: '/' :: '/' :: rest =>
      if s.length ≤ 3 then .ok (none, s)
      else if 64 < scheme.length then .error .schemeTooLong
      else .ok (some (String.ofList scheme), rest)
    | _ => .ok (none, s)

/-- The path and query of an address from its path on; a fragment is dropped unread. -/
def readTarget (s : List Char) : Except UriError (String × Option String) :=
  let path := s.takeWhile isPathChar
  match s.dropWhile isPathChar with
  | [] => .ok (String.ofList path, none)
  | '#' :: _ => .ok (String.ofList path, none)
  | '?' :: rest =>
    let query := rest.takeWhile isQueryChar
    match rest.dropWhile isQueryChar with
    | [] => .ok (String.ofList path, some (String.ofList query))
    | '#' :: _ => .ok (String.ofList path, some (String.ofList query))
    | _ => .error .invalidChar
  | _ => .error .invalidChar

/-- The URI of an address that is not empty; a lone asterisk is a path. -/
def readChars (s : List Char) : Except UriError Uri :=
  match s with
  | ['*'] => .ok ⟨none, "", "*", none⟩
  | '/' :: _ => do
    let (path, query) ← readTarget s
    return ⟨none, "", path, query⟩
  | _ => do
    let (scheme, rest) ← splitScheme s
    let authority := rest.takeWhile fun c => !endsAuthority c
    let target := rest.dropWhile fun c => !endsAuthority c
    checkAuthority authority
    match scheme with
    | none =>
      if target ≠ [] then .error .invalidFormat
      return ⟨none, String.ofList authority, "", none⟩
    | some _ =>
      if authority = [] then .error .invalidFormat
      let (path, query) ← readTarget target
      return ⟨scheme, String.ofList authority, path, query⟩

def read (s : String) : Except UriError Uri :=
  if 65534 < s.utf8ByteSize then .error .tooLong
  else if s = "" then .error .empty
  else readChars s.toList

end Uri

end TraceSearch
