import SmtSession.Command
import SmtSession.Reader.Term

/-!
# Reading commands

**A command** stands between parentheses and starts with its name, which must
be a plain symbol. `arguments?` has the layout of each command known to the
reader; a command of any other name is refused as unknown.

`Script.next` reads the command after the ones already read. After an error
it can be asked again, and goes on with the tokens behind those it had taken.
-/

namespace SmtSession.Reader

/-- A keyword, and a value that may be left out where `optional` says so. -/
def setting (word : String) (optional : Bool) : Reader (Keyword × Setting) := do
  let k ← keyword word
  let ahead ← peek (.within word)
  if ahead.lexeme = .closing then
    if optional then
      pure (k, .absent)
    else
      let close ← next (.within word)
      refuse (.noOptionValue k.name) close
  else
    let t ← next (.within word)
    let v ← attributeValue (termOf (← remaining)) t
    pure (k, .term v)

/-- A numeral that may be left out. -/
def optionalNumeral (word : String) (default : Nat) : Reader Nat := do
  let ahead ← peek (.within word)
  if ahead.lexeme = .closing then
    pure default
  else
    numeralOf (← next (.within word))

/-- A string literal. -/
def stringLiteral (word : String) : Reader Term := do
  let t ← next (.within word)
  match ← atom t with
  | .string content pos => pure (.string content pos)
  | _ => refuse .notAString t

/-- Items between parentheses. -/
def listOf (word : String) (item : Token → Reader α) : Reader (List α × Token) := do
  let _ ← opening word
  untilClosing word item (← remaining)

/-- The command of a word with no arguments. -/
def bare? (word : String) : Option Command :=
  match word with
  | "check-sat" => some .checkSat
  | "exit" => some .exit
  | "get-assertions" => some .getAssertions
  | "get-assignment" => some .getAssignment
  | "get-model" => some .getModel
  | "get-proof" => some .getProof
  | "get-unsat-core" => some .getUnsatCore
  | "reset" => some .reset
  | "reset-assertions" => some .resetAssertions
  | _ => none

/-- How the arguments behind a command's word are read; none for a word that
names no command. -/
def arguments? (word : String) : Option (Reader Command) :=
  match word with
  | "assert" => some do
    pure (.assert (← term))
  | "declare-const" => some do
    let name ← symbol word
    pure (.declareConst name (← sort []))
  | "declare-fun" => some do
    let name ← symbol word
    let (args, _) ← listOf word fun t => do sortOf [] (← remaining) t
    pure (.declareFun name args (← sort []))
  | "declare-sort" => some do
    let name ← symbol word
    pure (.declareSort name (← optionalNumeral word 0))
  | "define-fun" => some do
    let name ← symbol word
    let ds ← declarations word
    let result ← sort []
    pure (.defineFun name ds result (← term))
  | "define-sort" => some do
    let name ← symbol word
    let (parameters, _) ← listOf word symbolOf
    pure (.defineSort name parameters (← sort (parameters.map Symbol.name)))
  | "echo" => some do
    pure (.echo (← stringLiteral word))
  | "get-info" => some do
    pure (.getInfo (← keyword word))
  | "get-option" => some do
    pure (.getOption (← keyword word))
  | "get-value" => some do
    let (terms, close) ← listOf word fun t => do termOf (← remaining) t
    if terms.isEmpty then
      refuse .noTermToEvaluate close
    else
      pure (.getValue terms)
  | "pop" => some do
    pure (.pop (← optionalNumeral word 1))
  | "push" => some do
    pure (.push (← optionalNumeral word 1))
  | "set-info" => some do
    let (k, v) ← setting word true
    pure (.setInfo k v)
  | "set-logic" => some do
    pure (.setLogic (← symbol word))
  | "set-option" => some do
    let (k, v) ← setting word false
    pure (.setOption k v)
  | _ => (bare? word).map pure

/-- How the arguments behind a name token are read. -/
def argumentsAt? (name : Token) : Option (Reader Command) :=
  match name.lexeme with
  | .quoted _ => none
  | _ => arguments? name.text

/-- The next command; at the end of the input, none. -/
def command? : Reader (Option Command) := do
  match ← next? with
  | none => pure none
  | some start =>
    if start.lexeme = .opening then
      let name ← next (.before "a command")
      match argumentsAt? name with
      | none => fail (.unknownCommand name.text)
      | some arguments =>
        let c ← arguments
        let _ ← closing name.text
        pure (some c)
    else
      refuse (.notACommand start.text) start

end SmtSession.Reader

namespace SmtSession

/-- A text that is being read command by command. -/
structure Script where
  input : Reader.Input
  /-- The tokens that are not read yet. -/
  pending : List Token

namespace Script

/-- A source of which nothing is read yet. -/
def ofSource (s : Source) : Script :=
  let tokens := s.tokenize
  ⟨⟨s, tokens.ending⟩, tokens.list⟩

/-- Reads one more command, or finds that there is none. -/
def next (s : Script) : Except Reader.Error (Option Command) × Script :=
  match Reader.command? s.input s.pending with
  | .done c rest => (.ok c, { s with pending := rest })
  | .failed e rest => (.error e, { s with pending := rest })

end Script

namespace Reader

/-- The commands up to the end of the input. The bound is more than the
number of tokens left. -/
def commands : Nat → Reader (List Command)
  | 0 => pure []
  | bound + 1 => do
    match ← command? with
    | none => pure []
    | some c =>
      let cs ← commands bound
      pure (c :: cs)

end Reader

/-- All the commands of a source; the first error ends the reading. -/
def readScript (s : Source) : Except Reader.Error (List Command) :=
  Reader.readAll (do Reader.commands ((← Reader.remaining) + 1)) s

/-- The term that a source consists of. -/
def readTerm (s : Source) : Except Reader.Error Term :=
  Reader.readAll Reader.term s

/-- The sort that a source consists of. -/
def readSort (s : Source) : Except Reader.Error SmtSort :=
  Reader.readAll (Reader.sort []) s

end SmtSession
