import RowEngine.Json

/-!
Compact JSON text. A string escapes the quote, the backslash and the characters
below U+0020, five of which have a letter of their own, and nothing else.
`sortKeys` puts the members of every object into the order of their keys.
-/
namespace RowEngine.Json

/-- A digit of lower-case hexadecimal notation. -/
def hexDigit (n : Nat) : Char :=
  if n < 10 then Char.ofNat ('0'.toNat + n) else Char.ofNat ('a'.toNat + (n - 10))

def escapeChar (c : Char) : List Char :=
  if c = '"' then ['\\', '"']
  else if c = '\\' then ['\\', '\\']
  else if c = '\x08' then ['\\', 'b']
  else if c = '\x0c' then ['\\', 'f']
  else if c = '\n' then ['\\', 'n']
  else if c = '\r' then ['\\', 'r']
  else if c = '\t' then ['\\', 't']
  else if c.toNat < 0x20 then
    ['\\', 'u', '0', '0', hexDigit (c.toNat / 16), hexDigit (c.toNat % 16)]
  else [c]

def quote (s : String) : List Char := '"' :: (s.toList.flatMap escapeChar ++ ['"'])

/-- A string without a meaning is written as an empty one. -/
def quoteText (s : Option String) : List Char := quote (s.getD "")

mutual

def chars : Json → List Char
  | .null => ['n', 'u', 'l', 'l']
  | .bool true => ['t', 'r', 'u', 'e']
  | .bool false => ['f', 'a', 'l', 's', 'e']
  | .int n => (toString n).toList
  | .real t => t.toList
  | .str s => quoteText s
  | .arr items => '[' :: itemChars items ++ [']']
  | .obj members => '{' :: memberChars members ++ ['}']

def itemChars : List Json → List Char
  | [] => []
  | [j] => j.chars
  | j :: rest => j.chars ++ ',' :: itemChars rest

def memberChars : List (Option String × Json) → List Char
  | [] => []
  | [(k, j)] => quoteText k ++ ':' :: j.chars
  | (k, j) :: rest => quoteText k ++ ':' :: j.chars ++ ',' :: memberChars rest

end

def print (j : Json) : String := String.ofList j.chars

/-- Puts a member before the first one with a greater key, and in place of one with
the same key. -/
def insertMember (k : Option String) (j : Json) :
    List (Option String × Json) → List (Option String × Json)
  | [] => [(k, j)]
  | (k', j') :: rest =>
      if k = k' then (k, j) :: rest
      else if k.getD "" < k'.getD "" then (k, j) :: (k', j') :: rest
      else (k', j') :: insertMember k j rest

mutual

def sortKeys : Json → Json
  | .arr items => .arr (sortItems items)
  | .obj members => .obj (sortMembers members)
  | .null => .null
  | .bool b => .bool b
  | .int n => .int n
  | .real t => .real t
  | .str s => .str s

def sortItems : List Json → List Json
  | [] => []
  | j :: rest => j.sortKeys :: sortItems rest

/-- A later member with the same key wins. -/
def sortMembers : List (Option String × Json) → List (Option String × Json)
  | [] => []
  | (k, j) :: rest =>
      let sorted := sortMembers rest
      if sorted.any (fun m => m.1 = k) then sorted else insertMember k j.sortKeys sorted

end

end RowEngine.Json
