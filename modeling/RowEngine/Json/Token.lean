import RowEngine.Json

/-!
The tokens of strict JSON text. Blanks are the space, the tab, the line feed and the
carriage return; a string holds no raw control character; a number has no leading
zero and no sign but a minus. Words (numbers and the three literals) extend as far as
letters, digits, signs and points do.
-/
namespace RowEngine.Json

inductive Token where
  | leftBrace
  | rightBrace
  | leftBracket
  | rightBracket
  | colon
  | comma
  | scalar (value : Json)

/-- What one character or escape of a string stands for: a character, or a 16-bit
code unit that a `\u` escape gives. -/
inductive StringPart where
  | char (c : Char)
  | unit (n : Nat)

namespace StringPart

def isHigh (n : Nat) : Bool := 0xD800 ≤ n && n < 0xDC00

def isLow (n : Nat) : Bool := 0xDC00 ≤ n && n < 0xE000

/-- The character of a surrogate pair. -/
def pair (high low : Nat) : Char :=
  Char.ofNat (0x10000 + (high - 0xD800) * 0x400 + (low - 0xDC00))

/-- Joins surrogate pairs; half a pair has no meaning. -/
def decode : List StringPart → Option (List Char)
  | [] => some []
  | .char c :: rest => (decode rest).map (c :: ·)
  | .unit n :: rest =>
      if isHigh n then
        match rest with
        | .unit m :: rest => if isLow m then (decode rest).map (pair n m :: ·) else none
        | _ => none
      else if isLow n then none
      else (decode rest).map (Char.ofNat n :: ·)

end StringPart

def hexValue? (c : Char) : Option Nat :=
  if c.isDigit then some (c.toNat - '0'.toNat)
  else if 'a' ≤ c ∧ c ≤ 'f' then some (c.toNat - 'a'.toNat + 10)
  else if 'A' ≤ c ∧ c ≤ 'F' then some (c.toNat - 'A'.toNat + 10)
  else none

/-- The code unit of four hexadecimal digits. -/
def codeUnit? (a b c d : Char) : Option Nat := do
  let a ← hexValue? a
  let b ← hexValue? b
  let c ← hexValue? c
  let d ← hexValue? d
  some (((a * 16 + b) * 16 + c) * 16 + d)

/-- The character that a backslash and a letter stand for. -/
def simpleEscape? : Char → Option Char
  | '"' => some '"'
  | '\\' => some '\\'
  | '/' => some '/'
  | 'b' => some '\x08'
  | 'f' => some '\x0c'
  | 'n' => some '\n'
  | 'r' => some '\r'
  | 't' => some '\t'
  | _ => none

/-- Reads a string after its opening quote: its parts, and the text after the closing
quote. -/
def readParts? : List Char → Option (List StringPart × List Char)
  | [] => none
  | '"' :: rest => some ([], rest)
  | '\\' :: 'u' :: a :: b :: c :: d :: rest =>
      match codeUnit? a b c d, readParts? rest with
      | some n, some (parts, rest) => some (.unit n :: parts, rest)
      | _, _ => none
  | '\\' :: e :: rest =>
      match simpleEscape? e, readParts? rest with
      | some c, some (parts, rest) => some (.char c :: parts, rest)
      | _, _ => none
  | c :: rest =>
      if c = '\\' ∨ c.toNat < 0x20 then none
      else
        match readParts? rest with
        | some (parts, rest) => some (.char c :: parts, rest)
        | none => none

theorem length_of_readParts {cs rest : List Char} {parts : List StringPart}
    (h : readParts? cs = some (parts, rest)) : rest.length < cs.length := by
  fun_induction readParts? cs generalizing parts rest <;> simp_all <;> grind

def isBlank (c : Char) : Bool := c = ' ' || c = '\t' || c = '\n' || c = '\r'

def isWordChar (c : Char) : Bool := c.isAlphanum || c = '-' || c = '+' || c = '.'

def punctuation? : Char → Option Token
  | '{' => some .leftBrace
  | '}' => some .rightBrace
  | '[' => some .leftBracket
  | ']' => some .rightBracket
  | ':' => some .colon
  | ',' => some .comma
  | _ => none

/-- The value of decimal digits. -/
def decimalValue (digits : List Char) : Nat :=
  digits.foldl (fun n c => n * 10 + (c.toNat - '0'.toNat)) 0

/-- Digits without a leading zero. -/
def isPlainDigits (cs : List Char) : Bool :=
  cs.all Char.isDigit && (cs.head?.any (· ≠ '0') || cs = ['0'])

def isDigits (cs : List Char) : Bool := cs ≠ [] && cs.all Char.isDigit

/-- What may follow the letter of an exponent. -/
def isExponent : List Char → Bool
  | '+' :: cs => isDigits cs
  | '-' :: cs => isDigits cs
  | cs => isDigits cs

/-- What may follow the digits before the point: a fraction, an exponent, or both. -/
def isTail : List Char → Bool
  | '.' :: cs =>
      isDigits (cs.takeWhile Char.isDigit) &&
        match cs.dropWhile Char.isDigit with
        | [] => true
        | e :: cs => (e = 'e' || e = 'E') && isExponent cs
  | e :: cs => (e = 'e' || e = 'E') && isExponent cs
  | [] => false

/-- A number from its digits and what follows them. Minus zero is not an integer. -/
def unsigned? (negative : Bool) (cs : List Char) : Option Json :=
  let whole := cs.takeWhile Char.isDigit
  let tail := cs.dropWhile Char.isDigit
  let text := String.ofList (if negative then '-' :: cs else cs)
  if isPlainDigits whole then
    if tail = [] then
      if negative then
        if decimalValue whole = 0 then some (.real text) else some (.int (-(decimalValue whole)))
      else some (.int (decimalValue whole))
    else if isTail tail then some (.real text)
    else none
  else none

/-- The value of a word: one of the three literals or a number. -/
def word? (cs : List Char) : Option Json :=
  if cs = ['n', 'u', 'l', 'l'] then some .null
  else if cs = ['t', 'r', 'u', 'e'] then some (.bool true)
  else if cs = ['f', 'a', 'l', 's', 'e'] then some (.bool false)
  else
    match cs with
    | '-' :: rest => unsigned? true rest
    | cs => unsigned? false cs

/-- Splits a text into tokens; `none` if some part of it is no token. -/
def tokens? (cs : List Char) : Option (List Token) :=
  match cs with
  | [] => some []
  | c :: rest =>
      if isBlank c then tokens? rest
      else if c = '"' then
        match _h : readParts? rest with
        | some (parts, after) =>
            (tokens? after).map
              (.scalar (.str ((StringPart.decode parts).map String.ofList)) :: ·)
        | none => none
      else
        match punctuation? c with
        | some t => (tokens? rest).map (t :: ·)
        | none =>
            if isWordChar c then
              match word? (c :: rest.takeWhile isWordChar), tokens? (rest.dropWhile isWordChar) with
              | some j, some ts => some (.scalar j :: ts)
              | _, _ => none
            else none
termination_by cs.length
decreasing_by
  · simp
  · have := length_of_readParts ‹_›
    simp only [List.length_cons]
    omega
  · simp
  · have := (List.dropWhile_suffix isWordChar (l := rest)).length_le
    simp only [List.length_cons]
    omega

end RowEngine.Json
