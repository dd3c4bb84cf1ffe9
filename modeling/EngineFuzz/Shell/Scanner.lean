import EngineFuzz.Shell.Phrase
/-!
# The text of a script

A script is read octet by octet, each of which is a character of its own here.  A backslash
before the end of a line joins the line to the next one, except where text is taken as it
stands.  The number of the current line goes along, since complaints mention it.

* `Scanner` — a place in a script, with the token that has been read ahead there;
* `Token` — what the text is made of above the level of words;
* `Scan.document` — the text between the next line and a line that closes it.
-/

namespace EngineFuzz.Shell

open Text (Bytes)

/-- The characters that stand for octets. -/
def charsOf (octets : Bytes) : List Char := octets.map fun b => Char.ofNat b.toNat

/-- The octets that characters stand for. -/
def octetsOf (cs : List Char) : Bytes := cs.map fun c => c.toNat.toUInt8

/-- What a script is made of. -/
inductive Token where
  | word (pieces : Word)
  | keyword (text : String)
  | sign (text : String)
  /-- The head of a redirection.  The leading tabs of a document may be left out. -/
  | redirection (stream : Nat) (kind : RedirectionKind) (withoutTabs : Bool)
  | newline
  /-- The end of the script. -/
  | finish

/-- How complaints call a token. -/
def Token.name : Token → String
  | .word _ => "word"
  | .keyword text | .sign text => "\"" ++ text ++ "\""
  | .redirection _ _ _ => "redirection"
  | .newline => "newline"
  | .finish => "end of file"

/-- The keywords of the language. -/
def keywords : List String :=
  ["!", "case", "do", "done", "elif", "else", "esac", "fi", "for", "if", "in", "then",
    "until", "while", r"{", r"}"]

/-- Whether a list of phrases can end before a token. -/
def Token.isClosing : Token → Bool
  | .finish => true
  | .sign text => text = ")" || text = ";;"
  | .keyword text => ["do", "done", "elif", "else", "esac", "fi", "then", r"}"].contains text
  | _ => false

/-- The token that a word is where keywords are meant. -/
def Token.asKeyword : Token → Token
  | .word pieces =>
    match (Word.plain? pieces).map fun octets => String.ofList (charsOf octets) with
    | some text => if keywords.contains text then .keyword text else .word pieces
    | none => .word pieces
  | token => token

/-- What is wrong with a script. -/
structure SyntaxFault where
  line : Nat
  text : String
deriving DecidableEq, Repr

/-- A place in a script. -/
structure Scanner where
  rest : List Char
  line : Nat
  /-- The lines of documents that have been taken out ahead; they count when the current line
  ends. -/
  owed : Nat
  /-- A token that has been read and not used. -/
  held : Option Token

/-- Reading on in a script. -/
abbrev Scan := StateT Scanner (Except SyntaxFault)

/-- The start of a script. -/
def Scanner.begin (script : Bytes) : Scanner := ⟨charsOf script, 1, 0, none⟩

namespace Scan

/-- Complains about the current line. -/
def fault {α : Type} (text : String) : Scan α := do throw ⟨(← get).line, text⟩

/-- Complains about a token that does not belong there. -/
def unexpected {α : Type} (token : Token) (wanted : Option String) : Scan α :=
  fault (token.name ++ " unexpected" ++ match wanted with
    | some name => " (expecting " ++ name ++ ")"
    | none => "")

/-- Takes the next character as it stands. -/
def nextRaw : Scan (Option Char) := fun scanner =>
  match scanner.rest with
  | [] => .ok (none, scanner)
  | c :: rest =>
    let line := if c = '\n' then scanner.line + 1 + scanner.owed else scanner.line
    let owed := if c = '\n' then 0 else scanner.owed
    .ok (some c, { scanner with rest, line, owed })

/-- The characters behind joined lines, and how many lines there were. -/
def unjoin : List Char → Nat × List Char
  | '\\' :: '\n' :: rest =>
    let (lines, rest) := unjoin rest
    (lines + 1, rest)
  | rest => (0, rest)

/-- The next character, which is not taken. -/
def peek : Scan (Option Char) := fun scanner =>
  let (lines, rest) := unjoin scanner.rest
  .ok (rest.head?, { scanner with rest, line := scanner.line + lines })

/-- Takes the next character. -/
def next : Scan (Option Char) := do
  let _ ← peek
  nextRaw

/-- Takes a character if it comes next. -/
def accept (c : Char) : Scan Bool := do
  if (← peek) = some c then
    let _ ← nextRaw
    return true
  else return false

/-- Takes characters of a class.  The bound is the length of the text. -/
def takeWhile (p : Char → Bool) : (bound : Nat) → Scan (List Char)
  | 0 => pure []
  | bound + 1 => do
    match ← peek with
    | some c =>
      if p c then
        let _ ← nextRaw
        return c :: (← takeWhile p bound)
      else return []
    | none => return []

/-- Takes all characters of a class. -/
def run (p : Char → Bool) : Scan (List Char) := do takeWhile p (← get).rest.length

/-- Takes characters as they stand up to one that ends them, which is taken as well.  The bound
is the length of the text. -/
def takeUntil (stop : Char) (complaint : String) : (bound : Nat) → Scan (List Char)
  | 0 => fault complaint
  | bound + 1 => do
    match ← nextRaw with
    | none => fault complaint
    | some c => if c = stop then return [] else return c :: (← takeUntil stop complaint bound)

/-- Takes what stands between backquotes, without the backslashes that protect backslashes,
dollars and backquotes there. -/
def takeBackquoted (quoted : Bool) : (bound : Nat) → Scan (List Char)
  | 0 => fault "EOF in backquote substitution"
  | bound + 1 => do
    match ← next with
    | none => fault "EOF in backquote substitution"
    | some '\x60' => return []
    | some '\\' =>
      match ← next with
      | none => fault "EOF in backquote substitution"
      | some c =>
        let isProtected := c = '\\' || c = '$' || c = '\x60' || (quoted && c = '"')
        return (if isProtected then [c] else ['\\', c]) ++ (← takeBackquoted quoted bound)
    | some c => return c :: (← takeBackquoted quoted bound)

/-- Skips blanks and a comment. -/
def skipBlanks : (bound : Nat) → Scan Unit
  | 0 => pure ()
  | bound + 1 => do
    match ← peek with
    | some ' ' | some '\t' => do
      let _ ← nextRaw
      skipBlanks bound
    | some '#' => modify fun scanner => { scanner with rest := scanner.rest.dropWhile (· ≠ '\n') }
    | _ => pure ()

/-- Reads a text of its own, whose lines are counted from the given one. -/
def apart {α : Type} (text : List Char) (line : Nat) (reader : Scan α) : Scan α := do
  let before ← get
  set (⟨text, line, 0, none⟩ : Scanner)
  let a ← reader
  set before
  return a

/-- Gives a token back. -/
def hold (token : Token) : Scan Unit := modify fun scanner => { scanner with held := some token }

/-- The characters of the current line, of which quotation marks may make more than one. -/
def currentLine : (quote : Option Char) → List Char → List Char × List Char
  | _, [] => ([], [])
  | quote, '\\' :: c :: rest =>
    let (line, rest) := currentLine quote rest
    ('\\' :: c :: line, rest)
  | quote, c :: rest =>
    if c = '\n' && quote.isNone then ([c], rest)
    else
      let quote := if quote = some c then none
        else if quote.isNone && (c = '"' || c = '\'') then some c
        else quote
      let (line, rest) := currentLine quote rest
      (c :: line, rest)

/-- The lines before the one that closes a document, how many lines that makes with it, and what
is left.  The bound is the length of the text. -/
def documentLines (closing : List Char) (withoutTabs : Bool) :
    (bound : Nat) → List Char → List Char × Nat × List Char
  | _, [] => ([], 0, [])
  | 0, rest => ([], 0, rest)
  | bound + 1, text =>
    let line := text.takeWhile (· ≠ '\n')
    let behind := text.dropWhile (· ≠ '\n')
    let line := if withoutTabs then line.dropWhile (· = '\t') else line
    if line = closing then ([], 1, behind.tail)
    else
      let (lines, count, rest) := documentLines closing withoutTabs bound behind.tail
      (line ++ behind.take 1 ++ lines, count + 1, rest)

/-- Takes out the document that begins on the next line. -/
def document (closing : List Char) (withoutTabs : Bool) : Scan (List Char) := fun scanner =>
  let (line, rest) := currentLine none scanner.rest
  let (lines, count, rest) := documentLines closing withoutTabs rest.length rest
  .ok (lines, { scanner with rest := line ++ rest, owed := scanner.owed + count })

end Scan

end EngineFuzz.Shell
