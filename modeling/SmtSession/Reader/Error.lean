import SmtSession.Source

/-!
# Why a text is refused

**A reading error** is malformed text, with the cause and the range it is
blamed on, or a command of unknown name. The causes carry the words of the
input that their messages repeat.
-/

namespace SmtSession.Reader

/-- What the text ended in the middle of. -/
inductive Place
  /-- The thing named was about to start. -/
  | before (what : String)
  /-- The thing named was not complete. -/
  | within (what : String)
  deriving DecidableEq, Inhabited

/-- Why a text is malformed. `found` is the token in question. -/
inductive Cause
  | unknownEscape
  | unclosedSymbol
  | endOfInput (place : Place)
  | notACommand (found : String)
  | noOptionValue (key : String)
  | notAString
  | noTermToEvaluate
  | notOpening (place found : String)
  | notClosing (place found : String)
  | notAKeyword (found : String)
  | notASymbol (found : String)
  | notANumeral (found : String)
  | invalidToken (found : String)
  | strayClosing
  | reservedWord (word : String)
  | emptyExpression
  | notAFunction (found : String)
  | notAnIdentifier (found : String)
  | noIndex
  | noVariable (quantifier : String)
  | noBinding
  | noAttribute
  | noSortArgument (name : String)
  | afterEnd (found : String)
  deriving DecidableEq, Inhabited

/-- The message of a cause, without a position. -/
def Cause.message : Cause → String
  | .unknownEscape => "Unknown escaping in quoted symbol"
  | .unclosedSymbol => "Expected '|' to close the quoted symbol"
  | .endOfInput (.before what) => "Unexpected end of input, expected " ++ what
  | .endOfInput (.within what) => "Unexpected end of input in " ++ what
  | .notACommand found => "Expected '(' to start a command, found '" ++ found ++ "'"
  | .noOptionValue key => "Expected a value for " ++ key
  | .notAString => "Expected a string literal"
  | .noTermToEvaluate => "Expected at least one term in get-value"
  | .notOpening place found => "Expected '(' in " ++ place ++ ", found '" ++ found ++ "'"
  | .notClosing place found => "Expected ')' in " ++ place ++ ", found '" ++ found ++ "'"
  | .notAKeyword found => "Expected a keyword, found '" ++ found ++ "'"
  | .notASymbol found => "Expected a symbol, found '" ++ found ++ "'"
  | .notANumeral found => "Expected a numeral, found '" ++ found ++ "'"
  | .invalidToken found => "Invalid token '" ++ found ++ "'"
  | .strayClosing => "Unexpected ')'"
  | .reservedWord word => "Unexpected reserved word '" ++ word ++ "'"
  | .emptyExpression => "Empty expression"
  | .notAFunction found => "Expected a function symbol, found '" ++ found ++ "'"
  | .notAnIdentifier found => "Expected an identifier, found '" ++ found ++ "'"
  | .noIndex => "Expected at least one index"
  | .noVariable quantifier => "Expected at least one variable in " ++ quantifier
  | .noBinding => "Expected at least one binding"
  | .noAttribute => "Expected at least one attribute"
  | .noSortArgument name => "Expected arguments for the sort " ++ name
  | .afterEnd found => "Unexpected '" ++ found ++ "' after the end of the input"

/-- Why reading stopped. -/
inductive Error
  | malformed (cause : Cause) (pos : Pos)
  | unknownCommand (name : String)
  deriving DecidableEq, Inhabited

end SmtSession.Reader
