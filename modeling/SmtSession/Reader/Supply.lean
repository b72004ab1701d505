import SmtSession.Reader.Command

/-!
# Reading with a queue

**A supply** is a stream of tokens with a queue in front of it. A token that was taken can be put
into the queue, and is then the next one again. So it is done with the parenthesis that closes a
command, which is taken where an argument may be left out. No other token is put back, and the
readers that put none back are lifted as they are.

An error leaves the supply as it is. What would then be in the queue would come before the stream
when the next command is asked for.

`Reader.command?` looks at the parenthesis without taking it, and needs no queue.
-/

namespace SmtSession.Reader

/-- Where tokens come from: the ones that were put back, and then the stream. -/
structure Supply where
  queue : List Token
  stream : List Token

namespace Supply

/-- All the tokens to come. -/
def all (s : Supply) : List Token :=
  s.queue ++ s.stream

/-- What is left of the supply when these are the tokens to come. -/
def ahead (s : Supply) (rest : List Token) : Supply :=
  let queued := rest.length - s.stream.length
  ⟨rest.take queued, rest.drop queued⟩

end Supply

/-- Takes tokens from a supply, and may put them back. -/
def Supplied (α : Type) : Type :=
  Input → Supply → Except Error α × Supply

namespace Supplied

instance : Monad Supplied where
  pure a := fun _ s => (.ok a, s)
  bind x f := fun input s =>
    match x input s with
    | (.ok a, s) => f a input s
    | (.error e, s) => (.error e, s)

/-- A reader that puts no token back. -/
def lift (r : Reader α) : Supplied α :=
  fun input s =>
    match r input s.all with
    | .done a rest => (.ok a, s.ahead rest)
    | .failed e rest => (.error e, s.ahead rest)

/-- Makes a token the next one again. -/
def putBack (t : Token) : Supplied Unit :=
  fun _ s => (.ok (), { s with queue := t :: s.queue })

/-- A keyword, and a value that may be left out where `optional` says so. -/
def setting (word : String) (optional : Bool) : Supplied (Keyword × Setting) := do
  let k ← lift (keyword word)
  let t ← lift (next (.within word))
  if t.lexeme = .closing then
    if optional then
      putBack t
      pure (k, .absent)
    else
      lift (refuse (.noOptionValue k.name) t)
  else
    let v ← lift do attributeValue (termOf (← remaining)) t
    pure (k, .term v)

/-- A numeral that may be left out. -/
def optionalNumeral (word : String) (default : Nat) : Supplied Nat := do
  let t ← lift (next (.within word))
  if t.lexeme = .closing then
    putBack t
    pure default
  else
    lift (numeralOf t)

/-- How the arguments behind a command's word are read; none for a word that
names no command. -/
def arguments? (word : String) : Option (Supplied Command) :=
  match word with
  | "declare-sort" => some do
    let name ← lift (symbol word)
    pure (.declareSort name (← optionalNumeral word 0))
  | "pop" => some do
    pure (.pop (← optionalNumeral word 1))
  | "push" => some do
    pure (.push (← optionalNumeral word 1))
  | "set-info" => some do
    let (k, v) ← setting word true
    pure (.setInfo k v)
  | "set-option" => some do
    let (k, v) ← setting word false
    pure (.setOption k v)
  | _ => (Reader.arguments? word).map lift

/-- How the arguments behind a name token are read. -/
def argumentsAt? (name : Token) : Option (Supplied Command) :=
  match name.lexeme with
  | .quoted _ => none
  | _ => arguments? name.text

/-- The next command; at the end of the input, none. -/
def command? : Supplied (Option Command) := do
  match ← lift next? with
  | none => pure none
  | some start =>
    if start.lexeme = .opening then
      let name ← lift (next (.before "a command"))
      match argumentsAt? name with
      | none => lift (fail (.unknownCommand name.text))
      | some arguments =>
        let c ← arguments
        let _ ← lift (closing name.text)
        pure (some c)
    else
      lift (refuse (.notACommand start.text) start)

end Supplied

end SmtSession.Reader

namespace SmtSession

/-- A text that is being read command by command, with the tokens that were put back. -/
structure SuppliedScript where
  input : Reader.Input
  supply : Reader.Supply

namespace SuppliedScript

/-- A source of which nothing is read yet. -/
def ofSource (s : Source) : SuppliedScript :=
  let tokens := s.tokenize
  ⟨⟨s, tokens.ending⟩, ⟨[], tokens.list⟩⟩

/-- Reads one more command, or finds that there is none. -/
def next (s : SuppliedScript) : Except Reader.Error (Option Command) × SuppliedScript :=
  let (answer, supply) := Reader.Supplied.command? s.input s.supply
  (answer, { s with supply := supply })

/-- The script when commands have been asked for so many times, whatever came of it. -/
def after (s : SuppliedScript) : Nat → SuppliedScript
  | 0 => s
  | n + 1 => (s.after n).next.2

end SuppliedScript

end SmtSession
