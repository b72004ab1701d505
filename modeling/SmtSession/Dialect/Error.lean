import SmtSession.Source

/-!
# Why a term cannot be spelled

**A refusal** names the construct that a dialect has no spelling for, or that
has too few arguments for its operator, and the range of the node. A node
that is neither a term nor a sort has no spelling in any dialect; that is a
defect of the tree, not of the input, and kept apart.
-/

namespace SmtSession.Dialect

/-- What a backend cannot handle. -/
inductive Construct
  | decimals
  | strings
  | qualifiedIdentifiers
  | indexedIdentifiers
  | parameterizedSort (name : String)
  | sortAbbreviation (name : String)
  | functionSorts
  | sortParameter (name : String)
  deriving DecidableEq, Inhabited

/-- The words for a construct. -/
def Construct.words : Construct → String
  | .decimals => "decimal literals"
  | .strings => "string literals"
  | .qualifiedIdentifiers => "qualified identifiers"
  | .indexedIdentifiers => "indexed identifiers"
  | .parameterizedSort name => "the parameterized sort " ++ name
  | .sortAbbreviation name => "the sort abbreviation " ++ name
  | .functionSorts => "function sorts"
  | .sortParameter name => "the sort parameter " ++ name

/-- Why a node is refused. -/
inductive Cause
  | unsupported (backend : String) (construct : Construct)
  | hexLiteral
  | binaryLiteral
  | keyword
  | errorTerm (message : String)
  | noArguments
  | shortChain (operator : String)
  | shortDistinct (operator : String)
  | sortArity (backend name : String) (arity : Int)
  | sortParameters (backend name : String)
  deriving DecidableEq, Inhabited

/-- The message of a cause, without a position. -/
def Cause.message : Cause → String
  | .unsupported backend construct =>
    "The " ++ backend ++ " solver cannot handle " ++ construct.words
  | .hexLiteral => "Did not expect a Hex literal in an expression to be translated"
  | .binaryLiteral => "Did not expect a Binary literal in an expression to be translated"
  | .keyword => "Did not expect a Keyword in an expression to be translated"
  | .errorTerm message =>
    "Did not expect an Error token in an expression to be translated: " ++ message
  | .noArguments => "Did not expect an empty argument list"
  | .shortChain operator => "Chainable operator " ++ operator ++ " needs at least two arguments"
  | .shortDistinct operator => operator ++ " needs at least two arguments"
  | .sortArity backend name arity =>
    "The " ++ backend ++ " solver cannot declare the sort " ++ name ++ " of arity "
      ++ toString arity
  | .sortParameters backend name =>
    "The " ++ backend ++ " solver cannot define the parameterized sort " ++ name

/-- The kinds of nodes that are neither terms nor sorts. -/
inductive Part
  | declaration
  | binding
  | attr
  deriving DecidableEq, Inhabited

/-- The word for a kind of node. -/
def Part.word : Part → String
  | .declaration => "Declaration"
  | .binding => "Binding"
  | .attr => "Attribute"

/-- Why a tree has no spelling. -/
inductive Error
  /-- A node is refused, for a cause, at a range. -/
  | refused (cause : Cause) (pos : Option Pos)
  /-- A node stands where only terms and sorts may stand. -/
  | misplaced (part : Part)
  deriving DecidableEq, Inhabited

end SmtSession.Dialect
