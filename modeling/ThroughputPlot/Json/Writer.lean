import ThroughputPlot.Json

/-!
# Writing JSON

The compact form has no gaps; the indented form has one item to a line and two more
spaces for each level.  Both escape only the quote, the backslash and the control
characters below space.
-/

namespace ThroughputPlot.Json

/-- The digit of a value below sixteen, in lower case. -/
def hexChar (n : Nat) : Char := Nat.digitChar n

def escapeChar (c : Char) : List Char :=
  if c = '\x22' then ['\x5c', '\x22']
  else if c = '\x5c' then ['\x5c', '\x5c']
  else if c = '\x08' then ['\x5c', 'b']
  else if c = '\x0c' then ['\x5c', 'f']
  else if c = '\n' then ['\x5c', 'n']
  else if c = '\r' then ['\x5c', 'r']
  else if c = '\t' then ['\x5c', 't']
  else if c.toNat < 32 then
    ['\x5c', 'u', '0', '0', hexChar (c.toNat / 16), hexChar (c.toNat % 16)]
  else [c]

/-- A string in quotes; half of a surrogate pair stands for one that has no text. -/
def writeString : Option String → List Char
  | some s => '\x22' :: (s.toList.flatMap escapeChar ++ ['\x22'])
  | none => ['\x22', '\x5c', 'u', 'd', '8', '0', '0', '\x22']

mutual

def write : Json → List Char
  | .null => "null".toList
  | .bool true => "true".toList
  | .bool false => "false".toList
  | .number literal => literal.toList
  | .string s => writeString s
  | .array items => '[' :: (writeItems items ++ [']'])
  | .object members => '{' :: (writeMembers members ++ ['}'])

def writeItems : List Json → List Char
  | [] => []
  | [item] => write item
  | item :: rest => write item ++ ',' :: writeItems rest

def writeMembers : List (Option String × Json) → List Char
  | [] => []
  | [(key, value)] => writeString key ++ ':' :: write value
  | (key, value) :: rest => writeString key ++ ':' :: (write value ++ ',' :: writeMembers rest)

end

def newLine (level : Nat) : List Char := '\n' :: List.replicate (2 * level) ' '

mutual

def writeAt (level : Nat) : Json → List Char
  | .array [] => ['[', ']']
  | .object [] => ['{', '}']
  | .array (item :: rest) =>
    '[' :: (newLine (level + 1) ++ writeAt (level + 1) item ++
      writeMoreItems (level + 1) rest ++ newLine level ++ [']'])
  | .object ((key, value) :: rest) =>
    '{' :: (newLine (level + 1) ++ writeString key ++ ':' :: ' ' :: writeAt (level + 1) value ++
      writeMoreMembers (level + 1) rest ++ newLine level ++ ['}'])
  | .null => "null".toList
  | .bool true => "true".toList
  | .bool false => "false".toList
  | .number literal => literal.toList
  | .string s => writeString s

/-- The indented form of further items, each after a comma. -/
def writeMoreItems (level : Nat) : List Json → List Char
  | [] => []
  | item :: rest => ',' :: (newLine level ++ writeAt level item ++ writeMoreItems level rest)

/-- The indented form of further members, each after a comma. -/
def writeMoreMembers (level : Nat) : List (Option String × Json) → List Char
  | [] => []
  | (key, value) :: rest =>
    ',' :: (newLine level ++ writeString key ++ ':' :: ' ' :: writeAt level value ++
      writeMoreMembers level rest)

end

def compact (value : Json) : String := String.ofList value.write

def indented (value : Json) : String := String.ofList (value.writeAt 0)

end ThroughputPlot.Json
