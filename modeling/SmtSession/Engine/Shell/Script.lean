/-!
# Shell scripts

**A script** is a small program in the language of the POSIX shell. An engine
that is given as a script can be run without starting a process; this module
has the parsed form of such a program.

Inside the shell a text is a list of bytes. Each byte is held as the
character with that code, so that lists of characters can be used for both.
-/

namespace SmtSession.Engine.Shell

mutual

/-- What becomes of a parameter's value. -/
inductive Change
  | plain
  /-- The number of its bytes. -/
  | length
  /-- Another word in its place when it is unset, or also when it is empty. -/
  | orElse (ifEmpty : Bool) (word : List Piece)
  /-- The same, and the parameter keeps what came in its place. -/
  | orAssign (ifEmpty : Bool) (word : List Piece)
  /-- Another word in its place unless it is unset, or also unless it is
  empty. -/
  | instead (ifEmpty : Bool) (word : List Piece)
  /-- Without the part in front that matches a pattern. -/
  | dropFront (longest : Bool) (pattern : List Piece)
  /-- Without the part at the end that matches a pattern. -/
  | dropBack (longest : Bool) (pattern : List Piece)

/-- A piece of a word. What is quoted is not split and matches itself. -/
inductive Piece
  | text (chars : List Char) (quoted : Bool)
  | parameter (name : String) (change : Change) (quoted : Bool)
  | arithmetic (expression : List Char) (quoted : Bool)

end

/-- A word, before expansion. -/
abbrev Word : Type := List Piece

/-- What a file descriptor is made to stand for. -/
inductive Target
  /-- What another descriptor stands for. -/
  | copy (descriptor : Nat)
  | close
  /-- A file that swallows what is written and holds nothing. -/
  | nowhere

/-- A change of one file descriptor. -/
structure Redirection where
  descriptor : Nat
  target : Target

/-- A command of a script. -/
inductive Command
  | simple (assignments : List (String × Word)) (words : List Word)
      (redirections : List Redirection)
  /-- Two commands, the second only after a success of the first, or only
  after a failure. -/
  | both (first : Command) (onSuccess : Bool) (second : Command)
  /-- A command whose success counts as failure, and the other way round. -/
  | inverted (command : Command)
  | ifElse (test body otherwise : List Command)
  /-- Repeats the body while the test succeeds, or until it does. -/
  | loop (untilTrue : Bool) (test body : List Command)
  /-- Repeats the body for each of the words, or for each argument. -/
  | each (name : String) (items : Option (List Word)) (body : List Command)
  | choose (subject : Word) (arms : List (List Word × List Command))
  | group (body : List Command)
  | redirected (command : Command) (redirections : List Redirection)
  | define (name : String) (body : Command)

instance : Inhabited Command := ⟨.group []⟩

end SmtSession.Engine.Shell
