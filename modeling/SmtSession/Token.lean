import SmtSession.Source
import SmtSession.Text.Blank
import SmtSession.Text.Quoted

/-!
# Tokens

**A token** is a parenthesis, an atom, a quoted symbol or a string literal,
with the range of the source it was read from. Between tokens stand layout
(space, tab, line feed), comments from a semicolon to the end of the line,
and carriage returns that belong to no atom.

`tokenize` splits a whole text. The list ends at the end of the text, at a
string literal that is never closed, or at a malformed quoted symbol; the
`Ending` tells which. What follows a malformed quoted symbol is not read.

Carriage returns are not layout. An atom loses those at its end, and one of
nothing else is no token; elsewhere in an atom they are kept.
-/

namespace SmtSession

/-- What a token says. -/
inductive Lexeme
  | opening
  | closing
  /-- An atom, as it is written. -/
  | plain (text : String)
  /-- A symbol between bars; the name is unescaped. -/
  | quoted (name : String)
  /-- A string literal; the content is unquoted. -/
  | string (content : String)
  deriving DecidableEq, Inhabited

/-- How a token is shown in messages: a quoted symbol without its bars, and
everything else as it is written. -/
def Lexeme.text : Lexeme → String
  | .opening => "("
  | .closing => ")"
  | .plain text => text
  | .quoted name => name
  | .string content => Text.Quoted.encode content

/-- A lexeme and the range of offsets it was read from. -/
structure Token where
  lexeme : Lexeme
  start : Nat
  stop : Nat
  deriving DecidableEq, Inhabited

/-- How a token is shown in messages. -/
def Token.text (t : Token) : String :=
  t.lexeme.text

/-- How the list of tokens ends. -/
inductive Ending
  /-- Nothing more to read from the offset on. -/
  | finished (offset : Nat)
  /-- A quoted symbol with a backslash, in the range, that escapes nothing. -/
  | unknownEscape (start stop : Nat)
  /-- A quoted symbol that runs to the end of the text. -/
  | unclosedSymbol (start stop : Nat)
  deriving DecidableEq, Inhabited

/-- The offset at which the tokens end. -/
def Ending.offset : Ending → Nat
  | .finished offset => offset
  | .unknownEscape start _ => start
  | .unclosedSymbol start _ => start

/-- The tokens of a text, and how they end. -/
structure Tokens where
  list : List Token
  ending : Ending
  deriving Inhabited

/-- The same tokens behind one more. -/
def Tokens.push (t : Token) (ts : Tokens) : Tokens :=
  { ts with list := t :: ts.list }

namespace Token

/-- A character that separates tokens and belongs to none. -/
def isLayout (c : Char) : Bool :=
  c = ' ' || c = '\t' || c = '\n'

/-- A character that no atom contains. -/
def isDelimiter (c : Char) : Bool :=
  isLayout c || c = '(' || c = ')' || c = '|' || c = '"' || c = ';'

mutual

/-- How much layout and how many comments stand in front, and what follows. -/
def skipGap : List Char → Nat × List Char
  | [] => (0, [])
  | c :: cs =>
    if isLayout c then
      let (n, rest) := skipGap cs
      (n + 1, rest)
    else if c = ';' then
      let (n, rest) := skipComment cs
      (n + 1, rest)
    else
      (0, c :: cs)

/-- The same inside a comment, which a line feed ends. -/
def skipComment : List Char → Nat × List Char
  | [] => (0, [])
  | c :: cs =>
    let (n, rest) := if c = '\n' then skipGap cs else skipComment cs
    (n + 1, rest)

end

mutual

theorem skipGap_length : ∀ cs : List Char, (skipGap cs).1 + (skipGap cs).2.length = cs.length
  | [] => by simp [skipGap]
  | c :: cs => by
    have gap := skipGap_length cs
    have comment := skipComment_length cs
    simp only [skipGap]
    split
    · simp only [List.length_cons]; omega
    · split
      · simp only [List.length_cons]; omega
      · simp

theorem skipComment_length :
    ∀ cs : List Char, (skipComment cs).1 + (skipComment cs).2.length = cs.length
  | [] => by simp [skipComment]
  | c :: cs => by
    have gap := skipGap_length cs
    have comment := skipComment_length cs
    simp only [skipComment]
    split <;> simp only [List.length_cons] <;> omega

end

/-- What stands behind a gap. -/
inductive Front
  /-- A token; reading goes on with `rest`, at the offset `next`. -/
  | token (token : Token) (next : Nat) (rest : List Char)
  /-- Carriage returns that belong to no token. -/
  | returns (next : Nat) (rest : List Char)
  | ended (ending : Ending)

/-- Reads the token that starts with `c`, at the offset `start`; `cs` is what
follows `c`. -/
def front (start : Nat) (c : Char) (cs : List Char) : Front :=
  if c = '(' then
    .token ⟨.opening, start, start + 1⟩ (start + 1) cs
  else if c = ')' then
    .token ⟨.closing, start, start + 1⟩ (start + 1) cs
  else if c = '|' then
    match Text.Barred.scan cs with
    | .closed name rest =>
      let stop := start + 1 + (cs.length - rest.length)
      .token ⟨.quoted (String.ofList name), start, stop⟩ stop rest
    | .badEscape behind => .ended (.unknownEscape (start + 1 + behind) (start + 1 + behind + 2))
    | .unclosed => .ended (.unclosedSymbol start (start + 1 + cs.length))
  else if c = '"' then
    match Text.Quoted.scan cs with
    | some (content, rest) =>
      let stop := start + 1 + (cs.length - rest.length)
      .token ⟨.string (String.ofList content), start, stop⟩ stop rest
    | none => .ended (.finished start)
  else
    let run := c :: cs.takeWhile fun d => !isDelimiter d
    let rest := cs.dropWhile fun d => !isDelimiter d
    let atom := Text.dropTrailing (fun d => d = '\r') run
    if atom.isEmpty then
      .returns (start + run.length) rest
    else
      .token ⟨.plain (String.ofList atom), start, start + atom.length⟩ (start + run.length) rest

/-- What follows the characters that `front` reads. -/
def Front.rest : Front → List Char
  | .token _ _ rest => rest
  | .returns _ rest => rest
  | .ended _ => []

theorem front_rest_length (start : Nat) (c : Char) (cs : List Char) :
    (front start c cs).rest.length ≤ cs.length := by
  unfold front
  split
  · exact Nat.le_refl _
  split
  · exact Nat.le_refl _
  split
  · split
    · next h => exact Nat.le_of_lt (Text.Barred.scan_shorter h)
    · exact Nat.zero_le _
    · exact Nat.zero_le _
  split
  · split
    · next h => exact Nat.le_of_lt (Text.Quoted.scan_shorter h)
    · exact Nat.zero_le _
  · have dropped : (cs.dropWhile fun d => !isDelimiter d).length ≤ cs.length :=
      (List.dropWhile_sublist _).length_le
    dsimp only
    split <;> exact dropped

/-- The tokens of `cs`, whose first character has the given offset. -/
def tokenizeFrom (offset : Nat) (cs : List Char) : Tokens :=
  match _gap : skipGap cs with
  | (n, []) => ⟨[], .finished (offset + n)⟩
  | (n, c :: behind) =>
    match _found : front (offset + n) c behind with
    | .token t next rest => (tokenizeFrom next rest).push t
    | .returns next rest => tokenizeFrom next rest
    | .ended ending => ⟨[], ending⟩
termination_by cs.length
decreasing_by
  all_goals
    have total := skipGap_length cs
    have short := front_rest_length (offset + n) c behind
    rw [_gap] at total
    rw [_found] at short
    simp only [Front.rest, List.length_cons] at total short
    omega

end Token

/-- The tokens of the source. -/
def Source.tokenize (s : Source) : Tokens :=
  Token.tokenizeFrom 0 s.text.toList

end SmtSession
