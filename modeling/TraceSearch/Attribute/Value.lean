import TraceSearch.Decimal.Integer
import TraceSearch.Decimal.Layout

/-!
# Attribute values

The values a span, a resource or an event may carry under a key. A value is compared and shown by
its text: strings and encoded bytes as they stand, numbers in plain notation, lists between
brackets.

Source: `AnyValue`, `AnyValue::as_str` and `AnyValue::as_string`.
-/

namespace TraceSearch

/-- A value of an attribute. Bytes are kept in the encoding they came in. -/
inductive AttributeValue where
  | string (s : String)
  | bool (b : Bool)
  | int (n : Int64)
  | double (x : Float)
  | array (items : List AttributeValue)
  | keyValues (entries : List (String × AttributeValue))
  | bytes (encoded : String)

namespace AttributeValue

instance : Inhabited AttributeValue := ⟨string ""⟩

def asString? : AttributeValue → Option String
  | string s => some s
  | _ => none

mutual

def chars : AttributeValue → List Char
  | string s => s.toList
  | bool true => ['t', 'r', 'u', 'e']
  | bool false => ['f', 'a', 'l', 's', 'e']
  | int n => Decimal.integerText n.toInt
  | double x => Decimal.plainText x
  | array items => '[' :: List.intercalate [','] (itemChars items) ++ [']']
  | keyValues entries => '\x7b' :: List.intercalate [','] (entryChars entries) ++ ['\x7d']
  | bytes encoded => encoded.toList

def itemChars : List AttributeValue → List (List Char)
  | [] => []
  | item :: rest => chars item :: itemChars rest

def entryChars : List (String × AttributeValue) → List (List Char)
  | [] => []
  | (key, value) :: rest => (key.toList ++ ':' :: chars value) :: entryChars rest

end

def text (v : AttributeValue) : String := String.ofList v.chars

mutual

/-- Equality of values; doubles are compared as numbers. -/
def same : AttributeValue → AttributeValue → Bool
  | string a, string b => a == b
  | bool a, bool b => a == b
  | int a, int b => a == b
  | double a, double b => a == b
  | array a, array b => sameItems a b
  | keyValues a, keyValues b => sameEntries a b
  | bytes a, bytes b => a == b
  | _, _ => false

def sameItems : List AttributeValue → List AttributeValue → Bool
  | [], [] => true
  | a :: as, b :: bs => same a b && sameItems as bs
  | _, _ => false

def sameEntries : List (String × AttributeValue) → List (String × AttributeValue) → Bool
  | [], [] => true
  | (k, a) :: as, (l, b) :: bs => k == l && same a b && sameEntries as bs
  | _, _ => false

end

instance : BEq AttributeValue := ⟨same⟩

end AttributeValue

end TraceSearch
