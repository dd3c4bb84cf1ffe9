import EngineFuzz.Text.Printable
/-!
# Quoted text

Messages that name a piece of foreign text show it between double quotation marks, so that its
ends and its invisible characters can be seen.
-/

namespace EngineFuzz.Text

/-- The code point of a character in lower-case hexadecimal, without leading zeros. -/
def codePoint (c : Char) : List Char := Nat.toDigits 16 c.toNat

/-- How a character stands inside quotation marks. -/
def quotedChar (c : Char) : List Char :=
  match c with
  | '\x00' => ['\\', '0']
  | '\t' => ['\\', 't']
  | '\r' => ['\\', 'r']
  | '\n' => ['\\', 'n']
  | '\\' => ['\\', '\\']
  | '"' => ['\\', '"']
  | c =>
    if isExtending c || !isPrintable c then '\\' :: 'u' :: '{' :: codePoint c ++ ['}'] else [c]

/-- The text between quotation marks. -/
def quoted (text : String) : String :=
  String.ofList ('"' :: text.toList.flatMap quotedChar ++ ['"'])

end EngineFuzz.Text
