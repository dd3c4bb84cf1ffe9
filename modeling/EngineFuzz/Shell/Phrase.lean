import EngineFuzz.Text.Utf8
/-!
# The language of the command shell

A shell script is a list of *phrases*.  The smallest phrases are simple commands, which are made
of words; larger phrases combine smaller ones by pipes, conditions and loops.  A word is made of
pieces, some of which are replaced by other text before the command is carried out.  Phrases
that can be complained about know the line on which they begin.
-/

namespace EngineFuzz.Shell

open Text (Bytes)

/-- What a redirection does to a stream. -/
inductive RedirectionKind where
  | read
  /-- Opens a file for writing; `force` is allowed to empty it whatever the settings are. -/
  | write (force : Bool)
  | append
  /-- Opens a file for reading and writing. -/
  | update
  /-- Makes it the same as another stream, or closes it. -/
  | duplicate
  /-- Reads a text that stands in the script. -/
  | document
deriving DecidableEq, Repr

/-- What a parameter is put through before it replaces its piece. -/
inductive Operator where
  /-- The length in octets. -/
  | length
  /-- Another word if the parameter is not set, or is empty; the parameter may be given it. -/
  | otherwise (orEmpty assign : Bool)
  /-- Another word unless the parameter is not set, or is empty. -/
  | instead (orEmpty : Bool)
  /-- An error if the parameter is not set, or is empty. -/
  | demand (orEmpty : Bool)
  /-- Cuts off what matches a pattern, at the head or at the end. -/
  | cut (atHead longest : Bool)
  /-- There is no such operator; it is complained about when it is met. -/
  | unknown
deriving DecidableEq, Repr

mutual

/-- A piece of a word. -/
inductive Piece where
  | literal (quoted : Bool) (octets : Bytes)
  | parameter (quoted : Bool) (name : Bytes)
  | modified (quoted : Bool) (name : Bytes) (operator : Operator) (word : List Piece)
  /-- The output of a phrase. -/
  | output (quoted : Bool) (phrase : Phrase)
  /-- The value of an arithmetic expression. -/
  | number (quoted : Bool) (expression : List Piece)

/-- A redirection of a stream. -/
inductive Redirection where
  | mk (stream : Nat) (kind : RedirectionKind) (target : List Piece)

/-- A phrase. -/
inductive Phrase where
  | simple (line : Nat) (assignments : List (Bytes × List Piece)) (words : List (List Piece))
      (redirections : List Redirection)
  | pipe (phrases : List Phrase)
  | negated (phrase : Phrase)
  | both (first second : Phrase)
  | either (first second : Phrase)
  | sequence (phrases : List Phrase)
  | branch (condition yes no : Phrase)
  /-- Repeats the body for as long as the condition succeeds, or until it does. -/
  | loop (untilSuccess : Bool) (condition body : Phrase)
  /-- Runs the body for each of some words. -/
  | each (line : Nat) (name : Bytes) (words : List (List Piece)) (body : Phrase)
  | choose (line : Nat) (word : List Piece) (clauses : List (List (List Piece) × Phrase))
  | redirected (line : Nat) (phrase : Phrase) (redirections : List Redirection)
  | separate (line : Nat) (phrase : Phrase) (redirections : List Redirection)
  /-- Runs on its own, and nobody waits for it. -/
  | background (phrase : Phrase)
  | define (name : Bytes) (body : Phrase)

end

/-- A word. -/
abbrev Word := List Piece

/-- Puts a piece before a word.  Literal pieces of one kind that meet become one. -/
def Word.cons : Piece → Word → Word
  | .literal true first, .literal true second :: rest => .literal true (first ++ second) :: rest
  | .literal false first, .literal false second :: rest => .literal false (first ++ second) :: rest
  | piece, rest => piece :: rest

/-- The text of a word that is nothing but unquoted text. -/
def Word.plain? : Word → Option Bytes
  | [.literal false octets] => some octets
  | _ => none

end EngineFuzz.Shell
