import SmtSession.Reader.SmtSort

/-!
# Reading terms

**A term** is an atom, or stands between parentheses: an indexed or qualified
identifier, a quantified term, a let-term, an annotated term, or an
application. The head of an application is a symbol or another identifier; an
application without arguments is read.

As in sorts, the nesting is bounded by the number of tokens left.
-/

namespace SmtSession.Reader

/-- The term of a token that is no parenthesis. -/
def plainTerm (t : Token) : Reader Term := do
  match ← atom t with
  | .symbol s =>
    if t.lexeme = .plain s.name ∧ s.name ∈ reservedWords then
      refuse (.reservedWord s.name) t
    else
      pure (.symbol s)
  | term => pure term

/-- An index: a numeral, or a symbol. -/
def indexOf (t : Token) : Reader Index :=
  match numeral? t with
  | some value => pure (.number value)
  | none => do
    let s ← symbolOf t
    pure (.name s.name)

/-- An indexed identifier, behind its underscore. -/
def indexedIdentifier (start : Token) : Reader Term := do
  let s ← symbol "an indexed identifier"
  let (indices, close) ← untilClosing "an indexed identifier" indexOf (← remaining)
  if indices.isEmpty then
    refuseSpan .noIndex start close
  else
    let pos ← span start close
    pure (.indexed s indices (some pos))

/-- A qualified identifier, behind its word. -/
def qualifiedIdentifier (start : Token) : Reader Term := do
  let s ← symbol "a qualified identifier"
  let σ ← sort []
  let close ← closing "a qualified identifier"
  let pos ← span start close
  pure (.qualified s σ (some pos))

/-- The head of an application that begins with a parenthesis. -/
def identifier (start : Token) : Reader Term := do
  let head ← next (.within "an identifier")
  if head.lexeme = .plain "_" then
    indexedIdentifier start
  else if head.lexeme = .plain "as" then
    qualifiedIdentifier start
  else
    refuse (.notAnIdentifier head.text) head

/-- The head of an application. -/
def functionOf (head : Token) : Reader Term := do
  if head.lexeme = .opening then
    identifier head
  else
    match ← plainTerm head with
    | .symbol s => pure (.symbol s)
    | _ => refuse (.notAFunction head.text) head

/-- A variable with its sort, behind its parenthesis. -/
def declarationOf (place : String) (t : Token) : Reader Declaration := do
  if t.lexeme = .opening then
    let parameter ← symbol place
    let σ ← sort []
    let _ ← closing place
    pure ⟨parameter, σ⟩
  else
    refuse (.notOpening place t.text) t

/-- Variables with their sorts, between parentheses. -/
def declarations (place : String) : Reader (List Declaration) := do
  let _ ← opening place
  let (ds, _) ← untilClosing place (declarationOf place) (← remaining)
  pure ds

/-- A binding of a let-term; `term` reads the bound term. -/
def bindingOf (term : Token → Reader Term) (t : Token) : Reader Binding := do
  if t.lexeme = .opening then
    let parameter ← symbol "let"
    let bound ← term (← next (.before "a term"))
    let _ ← closing "let"
    pure (.mk parameter bound)
  else
    refuse (.notOpening "let" t.text) t

/-- The value of an attribute: an atom of any kind, also a reserved word, or
an expression that is read as a term. -/
def attributeValue (term : Token → Reader Term) (t : Token) : Reader Term :=
  if t.lexeme = .opening then term t else atom t

/-- A token that begins with a colon outside bars and quotes. -/
def isKeyword (t : Token) : Bool :=
  match t.lexeme with
  | .plain text => text.toList.head? == some ':'
  | _ => false

/-- An attribute: a keyword, and a value unless a keyword or the closing
parenthesis comes next. -/
def attributeOf (term : Token → Reader Term) (t : Token) : Reader Attribute := do
  let k ← keywordOf t
  let ahead ← peek (.within "an annotation")
  if ahead.lexeme = .closing ∨ isKeyword ahead then
    pure (.mk k none)
  else
    let v ← attributeValue term (← next (.within "an annotation"))
    pure (.mk k (some v))

/-- A quantified term, behind its quantifier; `term` reads the body. -/
def quantifiedTerm (term : Token → Reader Term) (q : Quantifier) (start head : Token) :
    Reader Term := do
  let ds ← declarations q.word
  if ds.isEmpty then
    refuse (.noVariable q.word) head
  else
    let body ← term (← next (.before "a term"))
    let last ← closing q.word
    let pos ← span start last
    pure (.quantified q ds body (some pos))

/-- A let-term, behind its word; `term` reads the bound terms and the body. -/
def letTerm (term : Token → Reader Term) (start : Token) : Reader Term := do
  let _ ← opening "let"
  let (bs, close) ← untilClosing "let" (bindingOf term) (← remaining)
  if bs.isEmpty then
    refuse .noBinding close
  else
    let body ← term (← next (.before "a term"))
    let last ← closing "let"
    let pos ← span start last
    pure (.letIn bs body (some pos))

/-- An annotated term, behind its exclamation mark; `term` reads the terms in
it. -/
def annotatedTerm (term : Token → Reader Term) (start : Token) : Reader Term := do
  let body ← term (← next (.before "a term"))
  let (as, close) ← untilClosing "an annotation" (attributeOf term) (← remaining)
  if as.isEmpty then
    refuse .noAttribute close
  else
    let pos ← span start close
    pure (.attributed body as (some pos))

/-- An application, behind its first token; `term` reads the arguments. -/
def application (term : Token → Reader Term) (start head : Token) : Reader Term := do
  let f ← functionOf head
  let (args, close) ← untilClosing "a term" term (← remaining)
  let pos ← span start close
  pure (.apply f args (some pos))

/-- The term that starts with a token. The bound is at least the number of
tokens left. -/
def termOf (bound : Nat) (t : Token) : Reader Term :=
  if t.lexeme = .closing then
    refuse .strayClosing t
  else if t.lexeme ≠ .opening then
    plainTerm t
  else
    match bound with
    | 0 => endOfInput (.within "a term")
    | bound + 1 => do
      let head ← next (.within "a term")
      if head.lexeme = .closing then
        refuseSpan .emptyExpression t head
      else if head.lexeme = .plain "_" then
        indexedIdentifier t
      else if head.lexeme = .plain "as" then
        qualifiedIdentifier t
      else if head.lexeme = .plain "forall" then
        quantifiedTerm (termOf bound) .universal t head
      else if head.lexeme = .plain "exists" then
        quantifiedTerm (termOf bound) .existential t head
      else if head.lexeme = .plain "let" then
        letTerm (termOf bound) t
      else if head.lexeme = .plain "!" then
        annotatedTerm (termOf bound) t
      else
        application (termOf bound) t head

/-- The next term. -/
def term : Reader Term := do
  let t ← next (.before "a term")
  termOf (← remaining) t

end SmtSession.Reader
