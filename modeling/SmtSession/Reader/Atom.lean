import SmtSession.Reader
import SmtSession.Term
import SmtSession.Text.Digit

/-!
# Atoms

**The class of an atom** is decided by its text alone: numerals without a
leading zero, decimals, hexadecimal and binary literals, keywords, and
symbols. An atom that begins with a digit character of any script, or with a
hash sign, and has none of these forms is refused.

Whatever stands between bars is a symbol, and whatever stands between double
quotes is a string literal.
-/

namespace SmtSession

/-- What an atom is. -/
inductive AtomClass
  | numeral (value : Nat)
  | decimal
  | hex (digits : String)
  | binary (digits : String)
  | keyword
  | invalid
  | symbol
  deriving DecidableEq, Inhabited

namespace AtomClass

/-- One of the ten ASCII digits. -/
def isDecimalDigit (c : Char) : Bool :=
  '0' ≤ c && c ≤ '9'

/-- An ASCII digit, or a letter from A to F in either case. -/
def isHexDigit (c : Char) : Bool :=
  isDecimalDigit c || ('a' ≤ c && c ≤ 'f') || ('A' ≤ c && c ≤ 'F')

/-- A zero alone, or ASCII digits that do not begin with a zero. -/
def isNumeral : List Char → Bool
  | [] => false
  | ['0'] => true
  | c :: cs => c != '0' && isDecimalDigit c && cs.all isDecimalDigit

/-- A numeral, a point, and one or more ASCII digits. -/
def isDecimal (cs : List Char) : Bool :=
  match cs.dropWhile (· != '.') with
  | '.' :: places =>
    isNumeral (cs.takeWhile (· != '.')) && !places.isEmpty && places.all isDecimalDigit
  | _ => false

/-- The number that ASCII digits stand for. -/
def valueOf (digits : List Char) : Nat :=
  digits.foldl (fun n c => 10 * n + (c.toNat - '0'.toNat)) 0

/-- The digits behind the two characters that mark their base, when there is
one at least and all of them are digits of it. -/
def based? (letter : Char) (isDigit : Char → Bool) : List Char → Option (List Char)
  | '#' :: c :: digits =>
    if c = letter && !digits.isEmpty && digits.all isDigit then some digits else none
  | _ => none

/-- The class of an atom's text. -/
def ofChars (cs : List Char) : AtomClass :=
  if isNumeral cs then .numeral (valueOf cs)
  else if isDecimal cs then .decimal
  else match based? 'x' isHexDigit cs with
  | some digits => .hex (String.ofList digits)
  | none =>
    match based? 'b' (fun c => c = '0' || c = '1') cs with
    | some digits => .binary (String.ofList digits)
    | none =>
      match cs with
      | [] => .symbol
      | c :: _ =>
        if c = ':' then .keyword
        else if Text.isDigitChar c || c = '#' then .invalid
        else .symbol

end AtomClass

namespace Reader

/-- The words that are no symbols in a term unless they stand between bars. -/
def reservedWords : List String :=
  ["_", "!", "as", "let", "forall", "exists", "par", "NUMERAL"]

/-- The term that one token stands for. A parenthesis counts as a symbol of
that name; callers that mind look for it first. -/
def atom (t : Token) : Reader Term := do
  let pos ← posOf t
  match t.lexeme with
  | .opening => pure (.symbol ⟨"(", some pos⟩)
  | .closing => pure (.symbol ⟨")", some pos⟩)
  | .quoted name => pure (.symbol ⟨name, some pos⟩)
  | .string content => pure (.string content (some pos))
  | .plain text =>
    match AtomClass.ofChars text.toList with
    | .numeral value => pure (.numeral value (some pos))
    | .decimal => pure (.decimal text (some pos))
    | .hex digits => pure (.hex digits (some pos))
    | .binary digits => pure (.binary digits (some pos))
    | .keyword => pure (.keyword ⟨text, some pos⟩)
    | .invalid => fail (.malformed (.invalidToken text) pos)
    | .symbol => pure (.symbol ⟨text, some pos⟩)

/-- A token that must be a symbol. -/
def symbolOf (t : Token) : Reader Symbol := do
  if t.lexeme = .opening ∨ t.lexeme = .closing then
    refuse (.notASymbol t.text) t
  else
    match ← atom t with
    | .symbol s => pure s
    | _ => refuse (.notASymbol t.text) t

/-- A token that must be a keyword. -/
def keywordOf (t : Token) : Reader Keyword := do
  if t.lexeme = .opening then
    refuse (.notAKeyword t.text) t
  else
    match ← atom t with
    | .keyword k => pure k
    | _ => refuse (.notAKeyword t.text) t

/-- The number of a token that is a plain numeral. -/
def numeral? (t : Token) : Option Nat :=
  match t.lexeme with
  | .plain text =>
    match AtomClass.ofChars text.toList with
    | .numeral value => some value
    | _ => none
  | _ => none

/-- A token that must be a numeral. -/
def numeralOf (t : Token) : Reader Nat :=
  match numeral? t with
  | some value => pure value
  | none => refuse (.notANumeral t.text) t

/-- The next token, which must be a symbol. -/
def symbol (place : String) : Reader Symbol := do
  symbolOf (← next (.within place))

/-- The next token, which must be a keyword. -/
def keyword (place : String) : Reader Keyword := do
  keywordOf (← next (.within place))

end Reader

end SmtSession
