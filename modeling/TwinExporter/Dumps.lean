import Mathlib.Data.Nat.Digits
import TwinExporter.Json

/-!
# `json.dumps(..., sort_keys=True)`

The signer and the gate both serialize a property bundle with `json.dumps(payload,
sort_keys=True)` before signing or verifying it, so the signature covers these bytes. The encoder
runs with its defaults: `ensure_ascii` (every character outside printable ASCII is escaped, as a
surrogate pair above the Basic Multilingual Plane), the separators `", "` and `": "`, and
`allow_nan`. With `sort_keys`, every dictionary is written with its items sorted by key, at every
level; `dumps` sorts first (`canon`) and then writes (`encode`), which is the same text.
-/

namespace TwinExporter

/-- `Py_hexdigits`: the lower-case hexadecimal digit of a value below 16. -/
def hexDigit (n : Nat) : Char := "0123456789abcdef".toList.getD n '0'

/-- Four hexadecimal digits of a value below `0x10000`, as `\uXXXX` writes them. -/
def hex4 (n : Nat) : List Char :=
  [hexDigit (n / 4096 % 16), hexDigit (n / 256 % 16), hexDigit (n / 16 % 16), hexDigit (n % 16)]

/-- One character of a string, as `ascii_escape_unichar` writes it: printable ASCII other than `\`
and `"` as itself, the short escapes, then `\uXXXX`, or a surrogate pair of them above `0xFFFF`. -/
def escapeChar (c : Char) : List Char :=
  let n := c.toNat
  if 0x20 ≤ n ∧ n ≤ 0x7e ∧ c ≠ '\\' ∧ c ≠ '"' then [c]
  else if c = '\\' then ['\\', '\\']
  else if c = '"' then ['\\', '"']
  else if n = 0x08 then ['\\', 'b']
  else if n = 0x0c then ['\\', 'f']
  else if c = '\n' then ['\\', 'n']
  else if c = '\r' then ['\\', 'r']
  else if c = '\t' then ['\\', 't']
  else if 0x10000 ≤ n then
    '\\' :: 'u' :: hex4 (0xd800 + (n - 0x10000) / 1024) ++
      '\\' :: 'u' :: hex4 (0xdc00 + (n - 0x10000) % 1024)
  else '\\' :: 'u' :: hex4 n

/-- `encode_basestring_ascii`: a string between double quotes, each character escaped. -/
def encodeString (s : String) : List Char := '"' :: s.toList.flatMap escapeChar ++ ['"']

/-- The decimal digit of a value below 10. -/
def digitChar (d : Nat) : Char := Char.ofNat (48 + d)

/-- `int.__repr__` on a natural number: its decimal digits, most significant first. -/
def natRepr (m : Nat) : List Char :=
  if m = 0 then ['0'] else (Nat.digits 10 m).reverse.map digitChar

/-- `int.__repr__`. -/
def intRepr : Int → List Char
  | .ofNat m => natRepr m
  | .negSucc m => '-' :: natRepr (m + 1)

/-- `floatstr` of the encoder: `NaN`, `Infinity` and `-Infinity` for the values that JSON lacks, and
`float.__repr__` otherwise. -/
def floatRepr (r : String) : List Char :=
  if r = "nan" then "NaN".toList
  else if r = "inf" then "Infinity".toList
  else if r = "-inf" then "-Infinity".toList
  else r.toList

/-- The order of `sorted(dct.items())` on a dictionary, whose keys are distinct. Python compares
`str` keys code point by code point, which is core's `String.le` (named in full, so that no other
order on `String` can stand in for it). -/
def sortItems (kvs : List (String × JsonValue)) : List (String × JsonValue) :=
  kvs.mergeSort fun a b => decide (String.le a.1 b.1)

mutual

/-- A value with the items of every dictionary in it sorted by key. -/
def canon : JsonValue → JsonValue
  | .array xs => .array (canonItems xs)
  | .object kvs => .object (sortItems (canonEntries kvs))
  | v => v

/-- `canon` on each item of a list. -/
def canonItems : List JsonValue → List JsonValue
  | [] => []
  | x :: xs => canon x :: canonItems xs

/-- `canon` on each value of a dictionary, in the order of its entries. -/
def canonEntries : List (String × JsonValue) → List (String × JsonValue)
  | [] => []
  | (k, v) :: kvs => (k, canon v) :: canonEntries kvs

end

mutual

/-- The text that `_iterencode` writes for a value, in the given order of dictionary items. -/
def encode : JsonValue → List Char
  | .null => "null".toList
  | .bool true => "true".toList
  | .bool false => "false".toList
  | .int n => intRepr n
  | .float r => floatRepr r
  | .str s => encodeString s
  | .array [] => "[]".toList
  | .array (x :: xs) => '[' :: encode x ++ encodeItems xs ++ [']']
  | .object [] => "{}".toList
  | .object ((k, v) :: kvs) => '{' :: encodeString k ++ ':' :: ' ' :: encode v ++ encodeEntries kvs ++ ['}']

/-- The items of a list after the first, each after the separator `", "`. -/
def encodeItems : List JsonValue → List Char
  | [] => []
  | x :: xs => ',' :: ' ' :: encode x ++ encodeItems xs

/-- The items of a dictionary after the first, each `"key": value` after the separator `", "`. -/
def encodeEntries : List (String × JsonValue) → List Char
  | [] => []
  | (k, v) :: kvs => ',' :: ' ' :: encodeString k ++ ':' :: ' ' :: encode v ++ encodeEntries kvs

end

/-- `json.dumps(v, sort_keys=True)`. -/
def dumps (v : JsonValue) : List Char := encode (canon v)

end TwinExporter
