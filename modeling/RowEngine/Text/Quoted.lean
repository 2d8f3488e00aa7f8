import RowEngine.Text.ExtendingMark
import RowEngine.Text.Unprintable

/-!
Text between quotes, written so that each of its characters can be told apart by eye. Six
characters have a letter behind a backslash; any other that leaves no trace of its own, or that
is a mark drawn as part of the one before it, is written as its code point.
-/
namespace RowEngine.Text

/-- The letter that stands for a character behind a backslash. -/
def escapeLetter? : Char → Option Char
  | '"' => some '"'
  | '\\' => some '\\'
  | '\t' => some 't'
  | '\n' => some 'n'
  | '\r' => some 'r'
  | '\x00' => some '0'
  | _ => none

/-- A character as its code point in lower-case hexadecimal, without leading zeros. -/
def codePoint (c : Char) : List Char :=
  ['\\', 'u', '{'] ++ Nat.toDigits 16 c.toNat ++ ['}']

def quoteChar (c : Char) : List Char :=
  match escapeLetter? c with
  | some letter => ['\\', letter]
  | none => if isUnprintable c || isExtendingMark c then codePoint c else [c]

def quote (s : String) : String :=
  String.ofList ('"' :: s.toList.flatMap quoteChar ++ ['"'])

end RowEngine.Text
