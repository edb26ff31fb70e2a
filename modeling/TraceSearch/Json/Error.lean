import TraceSearch.Decimal.Integer
import TraceSearch.Decimal.Layout
import TraceSearch.Json.Basic
import TraceSearch.Text.Quoted

/-!
# Errors of reading documents

A text fails to be read in one of three ways: it is malformed at some character, it ends where more
was needed, or it is a document of the wrong shape. A mismatch says what was found and what was
expected, in the words of the decoders. For the first two the parser has a sentence for each fault,
with its line and column; these sentences are not modelled, and a placeholder for the class of the
fault stands in their place.

Source: `deserialize_tags`; the texts of data errors in serde and serde_json.
-/

namespace TraceSearch.Json

/-- What stands where something else was expected. -/
inductive Found where
  | null
  | bool (b : Bool)
  | integer (n : Int)
  | real (x : Float)
  | string (s : String)
  | sequence
  | map
  | unitVariant

/-- What was expected at a place. -/
inductive Expected where
  | string
  | boolean
  | double
  | sequence
  | map
  | stringOrMap
  | newtypeVariant
  | record (name : String)

/-- How a document differs from the shape that is read. -/
inductive Mismatch where
  | wrongType (found : Found) (expected : Expected)
  | missingField (name : String)
  | duplicateField (name : String)
  | unknownVariant (name : String) (known : List String)
  | notSingleMember
  | noVariant (union : String)
  | tooFewElements (count : Nat) (record : String) (fields : Nat)
  | tooManyElements (count : Nat)
  | badInteger (error : Decimal.IntegerError)
  | unknownSpanKind
  | unknownStatusCode
  | nestedTag (key : String) (shown : String)

/-- Why a document is not read. -/
inductive Error where
  | malformed
  | truncated
  | mismatch (m : Mismatch)

/-- What was found, in words. -/
def Found.text : Found → String
  | null => "null"
  | bool b => "boolean `" ++ (if b then "true" else "false") ++ "`"
  | integer n => "integer `" ++ Decimal.integer n ++ "`"
  | real x => "floating point `" ++ String.ofList (Decimal.documentText x) ++ "`"
  | string s => "string " ++ Text.quoted s
  | sequence => "sequence"
  | map => "map"
  | unitVariant => "unit variant"

/-- What was expected, in words. -/
def Expected.text : Expected → String
  | string => "a string"
  | boolean => "a boolean"
  | double => "f64"
  | sequence => "a sequence"
  | map => "a map"
  | stringOrMap => "string or map"
  | newtypeVariant => "newtype variant"
  | record name => "struct " ++ name

/-- A number of elements of a record, in words. -/
def elementCount (n : Nat) : String :=
  Decimal.integer n ++ (if n = 1 then " element" else " elements")

def Mismatch.message : Mismatch → String
  | wrongType found expected => "invalid type: " ++ found.text ++ ", expected " ++ expected.text
  | missingField name => "missing field `" ++ name ++ "`"
  | duplicateField name => "duplicate field `" ++ name ++ "`"
  | unknownVariant name known =>
    "unknown variant `" ++ name ++ "`, expected one of " ++
      String.intercalate ", " (known.map fun k => "`" ++ k ++ "`")
  | notSingleMember => "invalid value: map, expected map with a single key"
  | noVariant union => "data did not match any variant of untagged enum " ++ union
  | tooFewElements count record fields =>
    "invalid length " ++ Decimal.integer count ++ ", expected struct " ++ record ++ " with " ++
      elementCount fields
  | tooManyElements count =>
    "invalid length " ++ Decimal.integer count ++ ", expected fewer elements in array"
  | badInteger error => error.message
  | unknownSpanKind => "unknown span kind"
  | unknownStatusCode => "unknown status code"
  | nestedTag key shown => "tag " ++ Text.quoted key ++ " must be a scalar, got " ++ shown

/-- An error in words. The text of a fault of form is a placeholder for the parser's own. -/
def Error.message : Error → String
  | malformed => "<json syntax>"
  | truncated => "<json eof>"
  | mismatch m => m.message

end TraceSearch.Json
