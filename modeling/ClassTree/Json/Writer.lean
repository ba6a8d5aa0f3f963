import ClassTree.Json.Basic
import ClassTree.Decimal.Notation
/-!
Writing JSON text, on one line without blanks or indented by two spaces a level.
-/

namespace ClassTree.Json

/-- Numbers stand without an exponent if their leading digit is between 10⁻⁵ and 10¹⁵, whole ones
keep a point, and of two nearest decimals the even one is written. -/
def numberStyle : NumberStyle := ⟨-5, 15, ".0", .even⟩

def hexDigit (n : Nat) : Char := Char.ofNat (if n < 10 then 48 + n else 87 + n)

def escape (c : Char) : List Char :=
  if c = '"' then ['\\', '"']
  else if c = '\\' then ['\\', '\\']
  else if c = '\x08' then ['\\', 'b']
  else if c = '\x0c' then ['\\', 'f']
  else if c = '\n' then ['\\', 'n']
  else if c = '\r' then ['\\', 'r']
  else if c = '\t' then ['\\', 't']
  else if c < ' ' then ['\\', 'u', '0', '0', hexDigit (c.toNat / 16), hexDigit (c.toNat % 16)]
  else [c]

def quote (s : String) : String :=
  "\"" ++ String.ofList (s.toList.flatMap escape) ++ "\""

def writeLeaf : Json → String
  | .bool true => "true"
  | .bool false => "false"
  | .int n => toString n
  | .double x => numberStyle.write x
  | .text s => quote s
  | _ => "null"

mutual

def compact : Json → String
  | .arr items => "[" ++ compactItems items ++ "]"
  | .obj fields => "\x7b" ++ compactFields fields ++ "\x7d"
  | j => writeLeaf j
termination_by structural j => j

def compactItems : List Json → String
  | [] => ""
  | [j] => j.compact
  | j :: rest => j.compact ++ "," ++ compactItems rest
termination_by structural l => l

def compactFields : List (String × Json) → String
  | [] => ""
  | [(k, j)] => quote k ++ ":" ++ j.compact
  | (k, j) :: rest => quote k ++ ":" ++ j.compact ++ "," ++ compactFields rest
termination_by structural l => l

end

def newLine (level : Nat) : String := "\n" ++ String.ofList (List.replicate (2 * level) ' ')

mutual

/-- One item or field a line, `level` levels further in than the surrounding text. -/
def indentedAt (level : Nat) : Json → String
  | .arr [] => "[]"
  | .arr items => "[" ++ indentedItems (level + 1) items ++ newLine level ++ "]"
  | .obj [] => "\x7b\x7d"
  | .obj fields => "\x7b" ++ indentedFields (level + 1) fields ++ newLine level ++ "\x7d"
  | j => writeLeaf j
termination_by structural j => j

def indentedItems (level : Nat) : List Json → String
  | [] => ""
  | [j] => newLine level ++ j.indentedAt level
  | j :: rest => newLine level ++ j.indentedAt level ++ "," ++ indentedItems level rest
termination_by structural l => l

def indentedFields (level : Nat) : List (String × Json) → String
  | [] => ""
  | [(k, j)] => newLine level ++ quote k ++ ": " ++ j.indentedAt level
  | (k, j) :: rest =>
    newLine level ++ quote k ++ ": " ++ j.indentedAt level ++ "," ++ indentedFields level rest
termination_by structural l => l

end

def indented (j : Json) : String := j.indentedAt 0

end ClassTree.Json
