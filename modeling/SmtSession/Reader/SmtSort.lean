import SmtSession.Reader.Atom

/-!
# Reading sorts

**A sort** is a symbol, a symbol applied to one sort at least, or an indexed
symbol with one numeral at least. The names in `parameters` are read as sort
parameters where a symbol stands alone, whether it is quoted or not, and this
goes before the reading of a plain `Bool` as the Boolean sort.

Nested sorts are read with a bound on the number of tokens left; a reader
that has used it up has no tokens left either.
-/

namespace SmtSession.Reader

/-- Reads items up to a closing parenthesis, which is given back with them.
The bound is at least the number of tokens left. -/
def untilClosing (place : String) (item : Token → Reader α) : Nat → Reader (List α × Token)
  | 0 => endOfInput (.within place)
  | bound + 1 => do
    let t ← next (.within place)
    if t.lexeme = .closing then
      pure ([], t)
    else
      let a ← item t
      let (as, close) ← untilClosing place item bound
      pure (a :: as, close)

/-- The sort that a symbol stands for. -/
def sortName (parameters : List String) (t : Token) : Reader SmtSort := do
  let s ← symbolOf t
  if s.name ∈ parameters then
    pure (.parameter s.name s.pos)
  else if t.lexeme = .plain "Bool" then
    pure (.bool s.pos)
  else
    pure (.family s.name [] [] s.pos)

/-- An indexed sort, behind its underscore. -/
def indexedSort (start : Token) : Reader SmtSort := do
  let s ← symbol "an indexed sort"
  let (indices, close) ← untilClosing "an indexed sort" numeralOf (← remaining)
  if indices.isEmpty then
    refuseSpan .noIndex start close
  else
    let pos ← span start close
    pure (.family s.name [] (indices.map fun i => .number (Int.ofNat i)) (some pos))

/-- The sort that starts with a token. The bound is at least the number of
tokens left. -/
def sortOf (parameters : List String) (bound : Nat) (t : Token) : Reader SmtSort :=
  if t.lexeme ≠ .opening then
    sortName parameters t
  else
    match bound with
    | 0 => endOfInput (.within "a sort")
    | bound + 1 => do
      let head ← next (.within "a sort")
      if head.lexeme = .plain "_" then
        indexedSort t
      else
        let s ← symbolOf head
        let (args, close) ← untilClosing "a sort" (sortOf parameters bound) bound
        if args.isEmpty then
          refuseSpan (.noSortArgument s.name) t close
        else
          let pos ← span t close
          pure (.family s.name args [] (some pos))

/-- The next sort. -/
def sort (parameters : List String) : Reader SmtSort := do
  let t ← next (.before "a sort")
  sortOf parameters (← remaining) t

end SmtSession.Reader
