import EngineFuzz.Json
import EngineFuzz.Toml.Lexical
/-!
# The grammar of JSON texts

Whoever is handed a document sees its characters and nothing else, and what they say is settled
by the grammar of JSON.  Between words there may be blanks.  A word is a literal or a number; a
text stands between quotation marks, and each of its characters has several spellings; arrays
and objects hold entries with commas between them.

A number is an integer if it has neither a fraction nor an exponent.  Of other numbers the
spelling is kept, because readers differ in how much of it they can represent.  Objects keep
their fields in order.  Half of a pair of code units says no character, and no text has such a
half in it.

* `Json.Value` — what a text says;
* `Json.IsCharacter`, `Json.IsBody` — texts between quotation marks;
* `Json.IsWord` — literals and numbers;
* `Json.IsValue`, `Json.Says` — values, and texts that hold one value with blanks around it.
-/

namespace EngineFuzz.Json

/-- What a JSON text says. -/
inductive Value where
  | null
  | bool (value : Bool)
  | integer (value : Int)
  /-- A number with a fraction or an exponent, as it is spelled. -/
  | decimal (spelling : String)
  | text (value : String)
  | array (items : List Value)
  | object (fields : List (String × Value))

/-! ### Blanks -/

/-- The characters that may stand between words. -/
def isBlank (c : Char) : Bool := c = ' ' || c = '\t' || c = '\n' || c = '\r'

/-- Nothing but blanks. -/
def IsBlanks (cs : List Char) : Prop := ∀ c ∈ cs, isBlank c = true

/-! ### Texts between quotation marks -/

/-- The letters that may stand behind a backslash, and the characters that they say. -/
def letters : List (Char × Char) :=
  [('"', '"'), ('\\', '\\'), ('/', '/'), ('b', '\x08'), ('f', '\x0c'), ('n', '\n'), ('r', '\r'),
    ('t', '\t')]

/-- The character that two halves of a pair of code units say. -/
def paired (high low : Nat) : Char :=
  Char.ofNat (0x10000 + (high - 0xd800) * 0x400 + (low - 0xdc00))

/-- The spellings of a character. -/
inductive IsCharacter : List Char → Char → Prop
  | plain {c : Char} (hcontrol : 0x20 ≤ c.toNat) (hquote : c ≠ '"') (hbackslash : c ≠ '\\') :
      IsCharacter [c] c
  | letter {letter c : Char} (h : (letter, c) ∈ letters) : IsCharacter ['\\', letter] c
  | unit {w x y z : Char} {unit : Nat} (hunit : Toml.hexNumeral? [w, x, y, z] = some unit)
      (hwhole : unit < 0xd800 ∨ 0xe000 ≤ unit) :
      IsCharacter ['\\', 'u', w, x, y, z] (Char.ofNat unit)
  | pair {w x y z w' x' y' z' : Char} {high low : Nat}
      (hhigh : Toml.hexNumeral? [w, x, y, z] = some high)
      (hlow : Toml.hexNumeral? [w', x', y', z'] = some low)
      (hhigh' : 0xd800 ≤ high ∧ high < 0xdc00) (hlow' : 0xdc00 ≤ low ∧ low < 0xe000) :
      IsCharacter (['\\', 'u', w, x, y, z] ++ ['\\', 'u', w', x', y', z']) (paired high low)

/-- The spellings of a text, without its quotation marks. -/
inductive IsBody : List Char → List Char → Prop
  | nil : IsBody [] []
  | cons {spelling body text : List Char} {c : Char} (hcharacter : IsCharacter spelling c)
      (hbody : IsBody body text) : IsBody (spelling ++ body) (c :: text)

/-! ### Literals and numbers -/

/-- A digit at least, and nothing but digits. -/
def IsDigits (cs : List Char) : Prop := cs ≠ [] ∧ ∀ c ∈ cs, c.isDigit = true

/-- Digits without a zero in front of others. -/
def IsWhole (cs : List Char) : Prop := IsDigits cs ∧ (cs.head? = some '0' → cs = ['0'])

/-- What makes a number negative. -/
def minus (negative : Bool) : List Char := if negative then ['-'] else []

/-- The number of digits with a sign. -/
def signed (negative : Bool) (digits : List Char) : Int :=
  let magnitude : Int := Nat.ofDigitChars 10 digits 0
  if negative then -magnitude else magnitude

/-- A fraction, or nothing. -/
inductive IsFraction : List Char → Prop
  | none : IsFraction []
  | digits {ds : List Char} (h : IsDigits ds) : IsFraction ('.' :: ds)

/-- An exponent, or nothing. -/
inductive IsExponent : List Char → Prop
  | none : IsExponent []
  | digits {mark : Char} {sign ds : List Char} (hmark : mark = 'e' ∨ mark = 'E')
      (hsign : sign ∈ [[], ['+'], ['-']]) (h : IsDigits ds) : IsExponent (mark :: (sign ++ ds))

/-- The spellings of literals and numbers. -/
inductive IsWord : List Char → Value → Prop
  | null : IsWord "null".toList .null
  | truth : IsWord "true".toList (.bool true)
  | falsehood : IsWord "false".toList (.bool false)
  | integer {ds : List Char} (negative : Bool) (h : IsWhole ds) :
      IsWord (minus negative ++ ds) (.integer (signed negative ds))
  | decimal {ds fraction exponent : List Char} (negative : Bool) (h : IsWhole ds)
      (hfraction : IsFraction fraction) (hexponent : IsExponent exponent)
      (hne : fraction ++ exponent ≠ []) :
      IsWord (minus negative ++ (ds ++ (fraction ++ exponent)))
        (.decimal (String.ofList (minus negative ++ (ds ++ (fraction ++ exponent)))))

/-! ### Values -/

/-- An entry of an array or an object as it is written: what stands before its value, the value,
and what stands behind it. -/
structure Cell (α : Type) where
  lead : List Char
  spelling : List Char
  trail : List Char
  entry : α

namespace Cell

variable {α : Type}

/-- The characters of a cell. -/
def chars (cell : Cell α) : List Char := cell.lead ++ (cell.spelling ++ cell.trail)

/-- Cells with commas between them. -/
def joined : List (Cell α) → List Char
  | [] => []
  | [cell] => cell.chars
  | cell :: cells => cell.chars ++ ',' :: joined cells

end Cell

/-- What stands before the value of a field: its name and a colon. -/
def IsLabel (lead : List Char) (name : String) : Prop :=
  ∃ before body after behind : List Char,
    IsBlanks before ∧ IsBody body name.toList ∧ IsBlanks after ∧ IsBlanks behind ∧
      lead = before ++ '"' :: (body ++ '"' :: (after ++ ':' :: behind))

/-- The spellings of a value, without blanks around it. -/
inductive IsValue : List Char → Value → Prop
  | word {spelling : List Char} {value : Value} (h : IsWord spelling value) : IsValue spelling value
  | text {body text : List Char} (h : IsBody body text) :
      IsValue ('"' :: (body ++ ['"'])) (.text (String.ofList text))
  | array {cells : List (Cell Value)} {last : List Char}
      (hblanks : ∀ cell ∈ cells, IsBlanks cell.lead ∧ IsBlanks cell.trail) (hlast : IsBlanks last)
      (hvalues : ∀ cell ∈ cells, IsValue cell.spelling cell.entry) :
      IsValue ('[' :: (Cell.joined cells ++ (last ++ [']']))) (.array (cells.map Cell.entry))
  | object {cells : List (Cell (String × Value))} {last : List Char}
      (hlabels : ∀ cell ∈ cells, IsLabel cell.lead cell.entry.1 ∧ IsBlanks cell.trail)
      (hlast : IsBlanks last)
      (hvalues : ∀ cell ∈ cells, IsValue cell.spelling cell.entry.2) :
      IsValue ('{' :: (Cell.joined cells ++ (last ++ ['}']))) (.object (cells.map Cell.entry))

/-- A text says a value if it is a spelling of it with blanks around. -/
def Says (text : String) (value : Value) : Prop :=
  ∃ before spelling after : List Char, IsBlanks before ∧ IsValue spelling value ∧ IsBlanks after ∧
    text.toList = before ++ (spelling ++ after)

end EngineFuzz.Json
