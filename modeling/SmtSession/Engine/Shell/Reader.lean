import SmtSession.Engine.Shell.Script

/-!
# Reading shell scripts

**Reading** splits a script into words and operators, honouring quotes,
escapes, comments and parameter expansions, and then groups them into
commands. A script that makes no sense is not read at all.

All functions that recurse take a bound; the number of characters of the
script is enough for it.
-/

namespace SmtSession.Engine.Shell

/-- A word or an operator. -/
inductive Lexeme
  | word (word : Word)
  | operator (text : String)
  /-- A number in front of a redirection. -/
  | descriptor (number : Nat)

namespace Reader

/-- A character that can occur in a parameter's name. -/
def isNameChar (c : Char) : Bool :=
  c.isAlphanum || c = '_'

/-- A parameter that is named by one special character. -/
def isSpecial (c : Char) : Bool :=
  c.isDigit || ['@', '*', '#', '?', '$', '!', '-'].contains c

/-- A character that ends an unquoted word. -/
def endsWord (c : Char) : Bool :=
  [' ', '\t', '\n', ';', '&', '|', '(', ')', '<', '>'].contains c

/-- Up to the closing pair of parentheses, counting inner ones. -/
def untilDoubleClose (depth : Nat) : List Char → Option (List Char × List Char)
  | [] => none
  | ')' :: ')' :: cs =>
    match depth with
    | 0 => some ([], cs)
    | d + 1 => (untilDoubleClose d (')' :: cs)).map fun (e, r) => (')' :: e, r)
  | c :: cs =>
    let depth := if c = '(' then depth + 1 else if c = ')' then depth - 1 else depth
    (untilDoubleClose depth cs).map fun (e, r) => (c :: e, r)
termination_by cs => cs.length

/-- Adds a character to a word, joining it to a piece of the same kind. -/
def pushChar (c : Char) (quoted : Bool) : Word → Word
  | .text cs q :: w =>
    if q = quoted then .text (c :: cs) q :: w else .text [c] quoted :: .text cs q :: w
  | w => .text [c] quoted :: w

/-- The length of a name in front of the characters. -/
def splitName (cs : List Char) : String × List Char :=
  match cs with
  | c :: rest =>
    if isSpecial c then (String.singleton c, rest)
    else (String.ofList (cs.takeWhile isNameChar), cs.dropWhile isNameChar)
  | [] => ("", [])

mutual

/-- The pieces inside double quotes, and what follows the closing quote. -/
def doubleQuoted : Nat → List Char → Option (Word × List Char)
  | 0, _ => none
  | bound + 1, cs =>
    match cs with
    | [] => none
    | '"' :: rest => some ([], rest)
    | '\\' :: '\n' :: rest => doubleQuoted bound rest
    | '\\' :: c :: rest =>
      if ['$', '"', '\\', '\x60'].contains c then
        (doubleQuoted bound rest).map fun (w, r) => (pushChar c true w, r)
      else
        (doubleQuoted bound (c :: rest)).map fun (w, r) => (pushChar '\\' true w, r)
    | '$' :: rest => do
      let (piece, rest) ← expansion bound true rest
      let (w, rest) ← doubleQuoted bound rest
      pure (piece :: w, rest)
    | c :: rest => (doubleQuoted bound rest).map fun (w, r) => (pushChar c true w, r)

/-- The piece behind a dollar sign. -/
def expansion : Nat → Bool → List Char → Option (Piece × List Char)
  | 0, _, _ => none
  | bound + 1, quoted, cs =>
    match cs with
    | '(' :: '(' :: rest => do
      let (e, rest) ← untilDoubleClose 0 rest
      pure (.arithmetic e quoted, rest)
    | '{' :: '#' :: '}' :: rest => pure (.parameter "#" .plain quoted, rest)
    | '{' :: '#' :: rest => do
      let (name, rest) := splitName rest
      match rest with
      | '}' :: rest => pure (.parameter name .length quoted, rest)
      | _ => none
    | '{' :: rest => do
      let (name, rest) := splitName rest
      let (change, rest) ← changeOf bound rest
      pure (.parameter name change quoted, rest)
    | _ =>
      let (name, rest) := splitName cs
      if name.isEmpty then some (.text ['$'] true, rest)
      else some (.parameter name .plain quoted, rest)

/-- What follows the name between braces, up to the closing brace. -/
def changeOf : Nat → List Char → Option (Change × List Char)
  | 0, _ => none
  | bound + 1, cs =>
    match cs with
    | '}' :: rest => some (.plain, rest)
    | ':' :: '-' :: rest => (braced bound rest).map fun (w, r) => (.orElse true w, r)
    | ':' :: '=' :: rest => (braced bound rest).map fun (w, r) => (.orAssign true w, r)
    | ':' :: '+' :: rest => (braced bound rest).map fun (w, r) => (.instead true w, r)
    | '-' :: rest => (braced bound rest).map fun (w, r) => (.orElse false w, r)
    | '=' :: rest => (braced bound rest).map fun (w, r) => (.orAssign false w, r)
    | '+' :: rest => (braced bound rest).map fun (w, r) => (.instead false w, r)
    | '#' :: '#' :: rest => (braced bound rest).map fun (w, r) => (.dropFront true w, r)
    | '#' :: rest => (braced bound rest).map fun (w, r) => (.dropFront false w, r)
    | '%' :: '%' :: rest => (braced bound rest).map fun (w, r) => (.dropBack true w, r)
    | '%' :: rest => (braced bound rest).map fun (w, r) => (.dropBack false w, r)
    | _ => none

/-- The pieces up to a closing brace. -/
def braced : Nat → List Char → Option (Word × List Char)
  | 0, _ => none
  | bound + 1, cs =>
    match cs with
    | [] => none
    | '}' :: rest => some ([], rest)
    | cs => do
      let (piece, rest) ← pieceOf bound cs
      let (w, rest) ← braced bound rest
      pure (piece ++ w, rest)

/-- The pieces that the first characters of an unquoted word stand for. -/
def pieceOf : Nat → List Char → Option (Word × List Char)
  | 0, _ => none
  | bound + 1, cs =>
    match cs with
    | [] => none
    | '\'' :: rest =>
      match rest.dropWhile (· ≠ '\'') with
      | [] => none
      | _ :: after => some ([.text (rest.takeWhile (· ≠ '\'')) true], after)
    | '"' :: rest => (doubleQuoted bound rest).map fun (w, r) => (.text [] true :: w, r)
    | '\\' :: '\n' :: rest => some ([], rest)
    | '\\' :: c :: rest => some ([.text [c] true], rest)
    | '$' :: rest => (expansion bound false rest).map fun (p, r) => ([p], r)
    | c :: rest => some ([.text [c] false], rest)

end

/-- Joins neighbouring pieces of unquoted text. -/
def joinTexts : Word → Word
  | .text a false :: w =>
    match joinTexts w with
    | .text b false :: w => .text (a ++ b) false :: w
    | w => .text a false :: w
  | p :: w => p :: joinTexts w
  | [] => []

/-- A word, up to a character that ends it. -/
def wordOf : Nat → List Char → Option (Word × List Char)
  | 0, _ => none
  | bound + 1, cs =>
    match cs with
    | [] => some ([], [])
    | c :: _ =>
      if endsWord c then some ([], cs)
      else do
        let (piece, rest) ← pieceOf bound cs
        let (w, rest) ← wordOf bound rest
        pure (piece ++ w, rest)

/-- The text of a word that is one piece of unquoted text. -/
def plain? (w : Word) : Option String :=
  match w with
  | [.text cs false] => some (String.ofList cs)
  | _ => none

/-- The operators, the longer ones first. -/
def operators : List String :=
  [";;", "&&", "||", ">>", "<&", ">&", ";", "&", "|", "(", ")", "<", ">", "\n"]

/-- The words and operators of a script. -/
def lexemes : Nat → List Char → Option (List Lexeme)
  | 0, _ => none
  | bound + 1, cs =>
    match cs with
    | [] => some []
    | ' ' :: rest => lexemes bound rest
    | '\t' :: rest => lexemes bound rest
    | '\\' :: '\n' :: rest => lexemes bound rest
    | '#' :: rest => lexemes bound (rest.dropWhile (· ≠ '\n'))
    | cs =>
      match operators.find? fun op => op.toList.isPrefixOf cs with
      | some op => (lexemes bound (cs.drop op.length)).map (.operator op :: ·)
      | none => do
        let (w, rest) ← wordOf bound cs
        let w := joinTexts w
        let number := (plain? w).bind String.toNat?
        match number, rest.head? with
        | some n, some '<' => (lexemes bound rest).map (.descriptor n :: ·)
        | some n, some '>' => (lexemes bound rest).map (.descriptor n :: ·)
        | _, _ => (lexemes bound rest).map (.word w :: ·)

/-! ## Commands -/

/-- Whether the next lexeme is that unquoted word. -/
def isWord (text : String) : List Lexeme → Bool
  | .word w :: _ => plain? w == some text
  | _ => false

def isOperator (text : String) : List Lexeme → Bool
  | .operator op :: _ => op == text
  | _ => false

def skipLines : List Lexeme → List Lexeme
  | .operator "\n" :: ls => skipLines ls
  | ls => ls

/-- Takes an unquoted word, which must be next. -/
def expectWord (text : String) (ls : List Lexeme) : Option (List Lexeme) :=
  if isWord text ls then some ls.tail else none

/-- An assignment, when a word is one. -/
def assignment? (w : Word) : Option (String × Word) :=
  match w with
  | .text cs false :: rest =>
    let name := cs.takeWhile isNameChar
    match cs.dropWhile isNameChar with
    | '=' :: value =>
      match name with
      | [] => none
      | c :: _ =>
        if c.isDigit then none
        else some (String.ofList name, (if value.isEmpty then [] else [.text value false]) ++ rest)
    | _ => none
  | _ => none

/-- The target of a redirection, by its operator and its word. -/
def target? (op : String) (w : Word) : Option Target :=
  match plain? w with
  | none => none
  | some text =>
    if op = "<&" ∨ op = ">&" then
      if text = "-" then some .close else text.toNat?.map .copy
    else if text = "/dev/null" then some .nowhere
    else none

/-- A redirection, when one is next. -/
def redirection? (ls : List Lexeme) : Option (Redirection × List Lexeme) :=
  let (number, ls) := match ls with
    | .descriptor n :: ls => (some n, ls)
    | ls => (none, ls)
  match ls with
  | .operator op :: .word w :: rest => do
    let default ← if op = "<" ∨ op = "<&" then some 0
      else if op = ">" ∨ op = ">>" ∨ op = ">&" then some 1 else none
    let target ← target? op w
    pure (⟨number.getD default, target⟩, rest)
  | _ => none

def redirections : Nat → List Lexeme → List Redirection × List Lexeme
  | 0, ls => ([], ls)
  | bound + 1, ls =>
    match redirection? ls with
    | some (r, rest) =>
      let (rs, rest) := redirections bound rest
      (r :: rs, rest)
    | none => ([], ls)

/-- The words that end a list of commands. -/
def closers : List String :=
  ["then", "else", "elif", "fi", "do", "done", "esac", "\x7d"]

def closes (ls : List Lexeme) : Bool :=
  ls.isEmpty || closers.any (isWord · ls) || isOperator ")" ls || isOperator ";;" ls

mutual

/-- Commands up to a word that closes them. -/
def commands : Nat → List Lexeme → Option (List Command × List Lexeme)
  | 0, _ => none
  | bound + 1, ls =>
    let ls := skipLines ls
    if closes ls then some ([], ls)
    else do
      let (c, ls) ← chain bound ls
      let ls := if isOperator ";" ls ∨ isOperator "\n" ls ∨ isOperator "&" ls then ls.tail else ls
      let (cs, ls) ← commands bound ls
      pure (c :: cs, ls)

/-- Commands joined by operators on success or failure. -/
def chain : Nat → List Lexeme → Option (Command × List Lexeme)
  | 0, _ => none
  | bound + 1, ls => do
    let (c, ls) ← inverted bound ls
    chainFrom bound c ls

def chainFrom : Nat → Command → List Lexeme → Option (Command × List Lexeme)
  | 0, _, _ => none
  | bound + 1, c, ls =>
    if isOperator "&&" ls ∨ isOperator "||" ls then do
      let onSuccess := isOperator "&&" ls
      let (d, ls) ← inverted bound (skipLines ls.tail)
      chainFrom bound (.both c onSuccess d) ls
    else
      some (c, ls)

def inverted : Nat → List Lexeme → Option (Command × List Lexeme)
  | 0, _ => none
  | bound + 1, ls =>
    if isWord "!" ls then
      (command bound ls.tail).map fun (c, ls) => (.inverted c, ls)
    else
      command bound ls

def command : Nat → List Lexeme → Option (Command × List Lexeme)
  | 0, _ => none
  | bound + 1, ls =>
    match compound bound ls with
    | some (c, rest) =>
      let (rs, rest) := redirections bound rest
      some (if rs.isEmpty then c else .redirected c rs, rest)
    | none => simple bound [] [] [] ls

/-- A command that begins with a word of the language itself. -/
def compound : Nat → List Lexeme → Option (Command × List Lexeme)
  | 0, _ => none
  | bound + 1, ls =>
    if isWord "if" ls then
      conditional bound ls.tail
    else if isWord "while" ls ∨ isWord "until" ls then do
      let untilTrue := isWord "until" ls
      let (test, ls) ← commands bound ls.tail
      let (body, ls) ← block bound ls
      pure (.loop untilTrue test body, ls)
    else if isWord "for" ls then
      match ls.tail with
      | .word w :: rest => do
        let name ← plain? w
        let (items, rest) ←
          if isWord "in" (skipLines rest) then
            (wordsOf bound (skipLines rest).tail).map fun (ws, r) => (some ws, r)
          else
            some (none, rest)
        let rest := if isOperator ";" rest then rest.tail else rest
        let (body, rest) ← block bound (skipLines rest)
        pure (.each name items body, rest)
      | _ => none
    else if isWord "case" ls then
      match ls.tail with
      | .word subject :: rest => do
        let rest ← expectWord "in" (skipLines rest)
        let (as, rest) ← arms bound rest
        pure (.choose subject as, rest)
      | _ => none
    else if isWord "\x7b" ls then do
      let (body, ls) ← commands bound ls.tail
      let ls ← expectWord "\x7d" ls
      pure (.group body, ls)
    else if isOperator "(" ls then do
      let (body, ls) ← commands bound ls.tail
      if isOperator ")" ls then pure (.group body, ls.tail) else none
    else
      match ls with
      | .word w :: .operator "(" :: .operator ")" :: rest => do
        let name ← plain? w
        let (body, rest) ← command bound (skipLines rest)
        pure (.define name body, rest)
      | _ => none

/-- What follows the word for a condition. -/
def conditional : Nat → List Lexeme → Option (Command × List Lexeme)
  | 0, _ => none
  | bound + 1, ls => do
    let (test, ls) ← commands bound ls
    let ls ← expectWord "then" ls
    let (body, ls) ← commands bound ls
    if isWord "elif" ls then do
      let (other, ls) ← conditional bound ls.tail
      pure (.ifElse test body [other], ls)
    else if isWord "else" ls then do
      let (other, ls) ← commands bound ls.tail
      let ls ← expectWord "fi" ls
      pure (.ifElse test body other, ls)
    else do
      let ls ← expectWord "fi" ls
      pure (.ifElse test body [], ls)

/-- The body of a loop. -/
def block : Nat → List Lexeme → Option (List Command × List Lexeme)
  | 0, _ => none
  | bound + 1, ls => do
    let ls ← expectWord "do" ls
    let (body, ls) ← commands bound ls
    let ls ← expectWord "done" ls
    pure (body, ls)

def wordsOf : Nat → List Lexeme → Option (List Word × List Lexeme)
  | 0, _ => none
  | bound + 1, ls =>
    match ls with
    | .word w :: rest => (wordsOf bound rest).map fun (ws, r) => (w :: ws, r)
    | ls => some ([], ls)

/-- The arms of a choice, up to the word that closes it. -/
def arms : Nat → List Lexeme → Option (List (List Word × List Command) × List Lexeme)
  | 0, _ => none
  | bound + 1, ls =>
    let ls := skipLines ls
    if isWord "esac" ls then some ([], ls.tail)
    else do
      let ls := if isOperator "(" ls then ls.tail else ls
      let (ps, ls) ← patterns bound ls
      let (body, ls) ← commands bound ls
      let ls := if isOperator ";;" ls then ls.tail else ls
      let (as, ls) ← arms bound ls
      pure ((ps, body) :: as, ls)

def patterns : Nat → List Lexeme → Option (List Word × List Lexeme)
  | 0, _ => none
  | bound + 1, ls =>
    match ls with
    | .word w :: .operator "|" :: rest => (patterns bound rest).map fun (ws, r) => (w :: ws, r)
    | .word w :: .operator ")" :: rest => some ([w], rest)
    | _ => none

/-- A simple command; what is read of it already is latest first. -/
def simple : Nat → List (String × Word) → List Word → List Redirection → List Lexeme →
    Option (Command × List Lexeme)
  | 0, _, _, _, _ => none
  | bound + 1, assignments, words, redirs, ls =>
    match redirection? ls with
    | some (r, rest) => simple bound assignments words (r :: redirs) rest
    | none =>
      match ls with
      | .word w :: rest =>
        match (if words.isEmpty then assignment? w else none) with
        | some a => simple bound (a :: assignments) words redirs rest
        | none => simple bound assignments (w :: words) redirs rest
      | ls =>
        if assignments.isEmpty ∧ words.isEmpty ∧ redirs.isEmpty then none
        else some (.simple assignments.reverse words.reverse redirs.reverse, ls)

end

end Reader

/-- The commands of a script. -/
def read? (script : List Char) : Option (List Command) := do
  let bound := 4 * script.length + 16
  let ls ← Reader.lexemes bound script
  let (cs, rest) ← Reader.commands bound ls
  if rest.isEmpty then some cs else none

end SmtSession.Engine.Shell
