import TraceSearch.Json.Reader

/-!
# Records

A record is a document with named fields: an object, whose unknown members are ignored, or an array
with the fields in their order. There are two ways to read one. `decodeRecord` takes a value, visits
its members in the order of the list and stops at the first mismatch. `readRecord` takes a text and
stops at the first error of any kind, so a mismatch wins over a fault of form further on; there a
member may not be repeated.

Source: the decoders that serde derives for records, from values and from text, in the order of
their errors.
-/

namespace TraceSearch.Json

def found : Json → Found
  | null => .null
  | bool b => .bool b
  | number (.integer n) => .integer n
  | number (.real x) => .real x
  | string s => .string s
  | array _ => .sequence
  | object _ => .map

def wrongType {α : Type} (expected : Expected) (j : Json) : Except Mismatch α :=
  .error (.wrongType j.found expected)

def decodeString : Json → Except Mismatch String
  | string s => .ok s
  | j => wrongType .string j

def decodeBool : Json → Except Mismatch Bool
  | bool b => .ok b
  | j => wrongType .boolean j

def decodeFloat : Json → Except Mismatch Float
  | number (.integer n) => .ok (Decimal.floatOfInt n)
  | number (.real x) => .ok x
  | j => wrongType .double j

/-- An integer of a range, written as a number or in a string. -/
def decodeInteger (range : Decimal.Range) : Json → Except Mismatch Int
  | number (.integer n) => if range.contains n then .ok n else .error (.noVariant "IntRepr")
  | string s => (range.read s).mapError .badInteger
  | _ => .error (.noVariant "IntRepr")

/-- The elements of an array, each decoded. -/
def decodeArray {α : Type} (decode : Json → Except Mismatch α) : Json → Except Mismatch (List α)
  | array items => items.mapM decode
  | j => wrongType .sequence j

/-- A field of a record: its name and how its value changes the record. -/
structure RecordField (ρ : Type) where
  name : String
  set : ρ → Json → Except Mismatch ρ

/-- A field whose value is decoded and put into the record. -/
def RecordField.of {ρ α : Type} (name : String) (decode : Json → Except Mismatch α)
    (put : ρ → α → ρ) : RecordField ρ :=
  ⟨name, fun record j => (decode j).map (put record)⟩

def RecordField.find? {ρ : Type} (fields : List (RecordField ρ)) (name : String) :
    Option (RecordField ρ) :=
  fields.find? fun f => f.name == name

def setMembers {ρ : Type} (fields : List (RecordField ρ)) (record : ρ) :
    List (String × Json) → Except Mismatch ρ
  | [] => .ok record
  | (name, value) :: rest =>
    match RecordField.find? fields name with
    | none => setMembers fields record rest
    | some field =>
      match field.set record value with
      | .error m => .error m
      | .ok record => setMembers fields record rest

/-- A record with the fields that elements give, one by one; `count` is the length of the array. -/
def setElements {ρ : Type} (count : Nat) (record : ρ) :
    List (RecordField ρ) → List Json → Except Mismatch ρ
  | _, [] => .ok record
  | [], _ :: _ => .error (.tooManyElements count)
  | field :: fields, item :: items =>
    match field.set record item with
    | .error m => .error m
    | .ok record => setElements count record fields items

/-- A record whose fields all have defaults, held by `record`. -/
def decodeRecord {ρ : Type} (name : String) (fields : List (RecordField ρ)) (record : ρ) :
    Json → Except Mismatch ρ
  | object members => setMembers fields record members
  | array items => setElements items.length record fields items
  | j => wrongType (.record name) j

/-- The error of a text whose next value is of the wrong type. A scalar is read in full first, an
array or object only as far as its bracket. -/
def wrongTypeAt (expected : Expected) (s : List Char) : Error :=
  let report (result : Except Error (Found × List Char)) : Error :=
    match result with
    | .error e => e
    | .ok (f, _) => .mismatch (.wrongType f expected)
  match skipBlank s with
  | '[' :: _ => .mismatch (.wrongType .sequence expected)
  | '\x7b' :: _ => .mismatch (.wrongType .map expected)
  | s => report ((readWith true none s).map fun (j, rest) => (j.found, rest))

def readString (s : List Char) : Except Error (String × List Char) :=
  match skipBlank s with
  | '"' :: rest => readStringRest true [] rest
  | s => .error (wrongTypeAt .string s)

/-- A string or `null` in a text. -/
def readString? (s : List Char) : Except Error (Option String × List Char) :=
  match skipBlank s with
  | 'n' :: rest => (readWord ['u', 'l', 'l'] rest).map fun rest => (none, rest)
  | s => (readString s).map fun (text, rest) => (some text, rest)

/-- A field of a record in a text: the names of its members, the one for messages first, and how its
value changes the record. -/
structure TextField (ρ : Type) where
  name : String
  aliases : List String
  read : ρ → List Char → Except Error (ρ × List Char)

/-- A field whose value is read and put into the record. -/
def TextField.of {ρ α : Type} (name : String) (aliases : List String)
    (read : List Char → Except Error (α × List Char)) (put : ρ → α → ρ) : TextField ρ :=
  ⟨name, aliases, fun record s => (read s).map fun (x, rest) => (put record x, rest)⟩

def TextField.find? {ρ : Type} (fields : List (TextField ρ)) (key : String) :
    Option (TextField ρ) :=
  fields.find? fun f => f.name == key || f.aliases.contains key

/-- One member of a record in a text; `seen` holds the names of the fields that were given. -/
def readFieldMember {ρ : Type} (fields : List (TextField ρ)) (seen : List String) (record : ρ)
    (s : List Char) : Except Error ((List String × ρ) × List Char) :=
  match readKey true s with
  | .error e => .error e
  | .ok (key, rest) =>
    match TextField.find? fields key with
    | none =>
      match readColon rest with
      | .error e => .error e
      | .ok rest => (skipValue rest).map fun rest => ((seen, record), rest)
    | some field =>
      if seen.contains field.name then .error (.mismatch (.duplicateField field.name))
      else
        match readColon rest with
        | .error e => .error e
        | .ok rest => (field.read record rest).map fun (r, rest) => ((field.name :: seen, r), rest)

/-- The members of a record from one on; the first text bounds the members that may follow. -/
def readFieldMembers {ρ : Type} (fields : List (TextField ρ)) :
    List Char → List String → ρ → List Char → Except Error (ρ × List Char)
  | [], _, _, _ => .error .truncated
  | _ :: bound, seen, record, s =>
    match readFieldMember fields seen record s with
    | .error e => .error e
    | .ok ((seen, record), rest) =>
      match skipBlank rest with
      | '\x7d' :: rest => .ok (record, rest)
      | ',' :: rest => readFieldMembers fields bound seen record rest
      | [] => .error .truncated
      | _ => .error .malformed

/-- The elements of a record after its opening bracket; `first` tells whether none has been read. -/
def readFieldElements {ρ : Type} (first : Bool) (record : ρ) :
    List (TextField ρ) → List Char → Except Error (ρ × List Char)
  | [], s =>
    match skipBlank s with
    | ']' :: rest => .ok (record, rest)
    | [] => .error .truncated
    | _ => .error .malformed
  | field :: fields, s =>
    match skipBlank s with
    | ']' :: rest => .ok (record, rest)
    | [] => .error .truncated
    | c :: rest =>
      if !first && c != ',' then .error .malformed
      else
        match field.read record (if first then c :: rest else rest) with
        | .error e => .error e
        | .ok (record, rest) => readFieldElements false record fields rest

/-- A record in a text whose fields all have defaults, held by `record`. -/
def readRecord {ρ : Type} (name : String) (fields : List (TextField ρ)) (record : ρ)
    (s : List Char) : Except Error (ρ × List Char) :=
  match skipBlank s with
  | '\x7b' :: rest =>
    match skipBlank rest with
    | '\x7d' :: rest => .ok (record, rest)
    | s => readFieldMembers fields s [] record s
  | '[' :: rest => readFieldElements true record fields rest
  | s => .error (wrongTypeAt (.record name) s)

end TraceSearch.Json
