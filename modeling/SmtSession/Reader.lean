import SmtSession.Reader.Error
import SmtSession.Token

/-!
# Readers

**A reader** takes tokens from the front of a list and gives a value and the
tokens that are left, or an error and the tokens that were left when it
arose. So reading can go on after an error, from where it stopped.

What happens when the list is used up is fixed by how the text ended: at its
end a reader reports that the input is not complete, and at a malformed
quoted symbol it reports that symbol, each time again.
-/

namespace SmtSession

/-- The text being read, and how its tokens end. -/
structure Reader.Input where
  source : Source
  ending : Ending

/-- What reading gives. -/
inductive Reader.Outcome (α : Type)
  /-- A value, and the tokens left. -/
  | done (value : α) (rest : List Token)
  /-- An error, and the tokens left when it arose. -/
  | failed (error : Reader.Error) (rest : List Token)

/-- Takes tokens from the front of a list. -/
def Reader (α : Type) : Type :=
  Reader.Input → List Token → Reader.Outcome α

namespace Reader

instance : Monad Reader where
  pure a := fun _ ts => .done a ts
  bind r f := fun input ts =>
    match r input ts with
    | .done a rest => f a input rest
    | .failed e rest => .failed e rest

/-- Stops with an error. -/
def fail (e : Error) : Reader α :=
  fun _ ts => .failed e ts

/-- The range between two offsets of the text being read. -/
def range (start stop : Nat) : Reader Pos :=
  fun input ts => .done ⟨start, stop, some input.source⟩ ts

/-- The range of a token. -/
def posOf (t : Token) : Reader Pos :=
  range t.start t.stop

/-- The range from one token to another, both included. -/
def span (first last : Token) : Reader Pos :=
  range first.start last.stop

/-- Stops with a cause, blamed on a token. -/
def refuse (cause : Cause) (t : Token) : Reader α := do
  fail (.malformed cause (← posOf t))

/-- Stops with a cause, blamed on everything from one token to another. -/
def refuseSpan (cause : Cause) (first last : Token) : Reader α := do
  fail (.malformed cause (← span first last))

/-- The number of tokens left. -/
def remaining : Reader Nat :=
  fun _ ts => .done ts.length ts

/-- The malformed quoted symbol that the tokens end at, if they do. -/
def Input.malformed? (input : Input) : Option Error :=
  match input.ending with
  | .finished _ => none
  | .unknownEscape start stop => some (.malformed .unknownEscape ⟨start, stop, some input.source⟩)
  | .unclosedSymbol start stop => some (.malformed .unclosedSymbol ⟨start, stop, some input.source⟩)

/-- Reports that the tokens are used up: the malformed quoted symbol that they
end at, or that the input is not complete at the place named. -/
def endOfInput (place : Place) : Reader α :=
  fun input ts =>
    match input.malformed? with
    | some e => .failed e ts
    | none =>
      let here := input.ending.offset
      .failed (.malformed (.endOfInput place) ⟨here, here, some input.source⟩) ts

/-- The next token; at the end of the input, none. -/
def next? : Reader (Option Token) :=
  fun input ts =>
    match ts with
    | t :: rest => .done (some t) rest
    | [] =>
      match input.malformed? with
      | none => .done none []
      | some e => .failed e []

/-- The next token; there must be one. -/
def next (place : Place) : Reader Token :=
  fun input ts =>
    match ts with
    | t :: rest => .done t rest
    | [] => endOfInput place input []

/-- The next token, without taking it. -/
def peek (place : Place) : Reader Token :=
  fun input ts =>
    match ts with
    | t :: _ => .done t ts
    | [] => endOfInput place input []

/-- Takes an opening parenthesis. -/
def opening (place : String) : Reader Token := do
  let t ← next (.within place)
  if t.lexeme = .opening then pure t else refuse (.notOpening place t.text) t

/-- Takes a closing parenthesis. -/
def closing (place : String) : Reader Token := do
  let t ← next (.within place)
  if t.lexeme = .closing then pure t else refuse (.notClosing place t.text) t

/-- Nothing may be left. -/
def finished : Reader Unit := do
  match ← next? with
  | none => pure ()
  | some t => refuse (.afterEnd t.text) t

/-- Reads the whole source, up to nothing left. -/
def readAll (r : Reader α) (s : Source) : Except Error α :=
  let tokens := s.tokenize
  match (do let a ← r; finished; pure a : Reader α) ⟨s, tokens.ending⟩ tokens.list with
  | .done a _ => .ok a
  | .failed e _ => .error e

end Reader

end SmtSession
