/-
Module: Paradigm.Json.Text
Layer: Text
Purpose: JSON text of a value, in one line or with one member or element a line. Quoted text
  escapes the quote, the backslash and the control characters and nothing else.
Imports: Paradigm.Json, Paradigm.Binary64.Decimal, Paradigm.Hexadecimal
Main exports: Json.quoted, Json.compact, Json.pretty
-/
import Paradigm.Json
import Paradigm.Binary64.Decimal
import Paradigm.Hexadecimal

namespace Paradigm.Json

/-! ### Leaves -/

/-- The escaped form of one character inside quotes. -/
def escaped (c : Char) : String :=
  if c == '"' then "\\\""
  else if c == '\\' then "\\\\"
  else if c == '\n' then "\\n"
  else if c == '\r' then "\\r"
  else if c == '\t' then "\\t"
  else if c == '\x08' then "\\b"
  else if c == '\x0c' then "\\f"
  else if c.toNat < 32 then
    "\\u" ++ Hexadecimal.write 4 c.toNat
  else String.singleton c

/-- A text in quotes. -/
def quoted (s : String) : String :=
  "\"" ++ s.foldl (fun text c => text ++ escaped c) "" ++ "\""

/-- A number as text. Numbers that are not finite have no JSON form and are written as null. -/
def Number.text : Number → String
  | .int i => toString i
  | .float x => if x.isFinite then x.documentText else "null"

/-! ### One line -/

mutual

/-- The value without any blanks. -/
def compact : Json → String
  | .null => "null"
  | .bool b => if b then "true" else "false"
  | .num n => n.text
  | .str s => quoted s
  | .arr items => "[" ++ ",".intercalate (compactItems items) ++ "]"
  | .obj members => "\x7b" ++ ",".intercalate (compactMembers members) ++ "\x7d"

/-- The texts of the elements. -/
def compactItems : List Json → List String
  | [] => []
  | item :: rest => item.compact :: compactItems rest

/-- The texts of the members. -/
def compactMembers : List (String × Json) → List String
  | [] => []
  | (name, value) :: rest => (quoted name ++ ":" ++ value.compact) :: compactMembers rest

end

/-! ### One member or element a line -/

/-- The blanks in front of a line at a depth. -/
def margin (indent depth : Nat) : String := String.ofList (List.replicate (indent * depth) ' ')

/-- Lines between brackets, each at the depth below. Nothing between brackets needs no line. -/
def bracketed (indent depth : Nat) (opening closing : String) (lines : List String) : String :=
  if lines.isEmpty then opening ++ closing
  else
    opening ++ "\n"
      ++ ",\n".intercalate (lines.map fun line => margin indent (depth + 1) ++ line)
      ++ "\n" ++ margin indent depth ++ closing

mutual

/-- The value with line breaks, starting at a depth. -/
def prettyAt (indent depth : Nat) : Json → String
  | .null => "null"
  | .bool b => if b then "true" else "false"
  | .num n => n.text
  | .str s => quoted s
  | .arr items => bracketed indent depth "[" "]" (prettyItems indent (depth + 1) items)
  | .obj members =>
      bracketed indent depth "\x7b" "\x7d" (prettyMembers indent (depth + 1) members)

/-- The texts of the elements at a depth. -/
def prettyItems (indent depth : Nat) : List Json → List String
  | [] => []
  | item :: rest => item.prettyAt indent depth :: prettyItems indent depth rest

/-- The texts of the members at a depth. -/
def prettyMembers (indent depth : Nat) : List (String × Json) → List String
  | [] => []
  | (name, value) :: rest =>
      (quoted name ++ ": " ++ value.prettyAt indent depth) :: prettyMembers indent depth rest

end

/-- The value with line breaks and a number of blanks per level. Without blanks the line breaks
remain. -/
def pretty (indent : Nat) (value : Json) : String := value.prettyAt indent 0

end Paradigm.Json
