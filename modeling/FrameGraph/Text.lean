/-! # Texts of values

Natural numbers in digits, quoted strings, and the one line texts of structured values: records,
lists, tables and optional values.
-/

namespace FrameGraph

set_option autoImplicit false

namespace Radix

def binary (n : Nat) : String := String.ofList (Nat.toDigits 2 n)

def hex (n : Nat) : String := "0x" ++ String.ofList (Nat.toDigits 16 n)

end Radix

/-! ## Quoted strings

A string between double quotes. Quotes, backslashes and control characters are escaped, other
characters stand for themselves.
-/

namespace Quoted

/-- A character as it stands between the quotes. Other control characters are given by their
code in hexadecimal. -/
def escape (c : Char) : String :=
  if c = '"' then "\\\""
  else if c = '\\' then "\\\\"
  else if c = '\n' then "\\n"
  else if c = '\t' then "\\t"
  else if c = '\r' then "\\r"
  else if c.toNat = 0 then "\\0"
  else if c.toNat < 32 || c.toNat = 127 then
    "\\u\x7b" ++ String.ofList (Nat.toDigits 16 c.toNat) ++ "\x7d"
  else c.toString

def encode (s : String) : String :=
  "\"" ++ String.join (s.toList.map escape) ++ "\""

end Quoted

/-! ## Structured values -/

namespace Record

def record (name : String) (fields : List (String × String)) : String :=
  name ++ " \x7b " ++ ", ".intercalate (fields.map fun f => f.1 ++ ": " ++ f.2) ++ " \x7d"

def applied (name value : String) : String := name ++ "(" ++ value ++ ")"

def optional : Option String → String
  | none => "None"
  | some value => applied "Some" value

def list (items : List String) : String := "[" ++ ", ".intercalate items ++ "]"

def table (rows : List (String × String)) : String :=
  "\x7b" ++ ", ".intercalate (rows.map fun r => r.1 ++ ": " ++ r.2) ++ "\x7d"

def boolean (b : Bool) : String := if b then "true" else "false"

end Record

end FrameGraph
