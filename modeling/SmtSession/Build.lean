import SmtSession.Term

/-!
# Building terms and sorts

**Constructors** for use in programs. The nodes they build have no position.
A negative number becomes the negation of a numeral, since numerals of the
input language have no sign.
-/

namespace SmtSession

/-- A symbol of the given name. -/
def Symbol.named (name : String) : Symbol :=
  { name := name }

namespace Term

/-- A variable or constant. -/
def var (name : String) : Term :=
  .symbol (.named name)

/-- An integer. -/
def int (n : Int) : Term :=
  if n < 0 then .apply (var "-") [.numeral (-n) none] none else .numeral n none

/-- A truth value. -/
def truth (b : Bool) : Term :=
  var (if b then "true" else "false")

/-- What can be given as an argument of `call`. -/
inductive Operand
  | name (name : String)
  | number (value : Int)
  | truth (value : Bool)
  | term (term : Term)

/-- The term that an operand stands for. -/
def Operand.toTerm : Operand → Term
  | .name n => var n
  | .number v => int v
  | .truth b => Term.truth b
  | .term t => t

/-- A function applied to operands. -/
def call (head : Operand) (args : List Operand) : Term :=
  .apply head.toTerm (args.map Operand.toTerm) none

end Term

namespace SmtSort

/-- The Boolean sort. -/
def boolean : SmtSort :=
  .bool none

/-- A sort of the given name, applied to sorts; the Boolean one for its name
alone. -/
def named (name : String) (args : List SmtSort) : SmtSort :=
  if name = "Bool" ∧ args.isEmpty then boolean else .family name args [] none

/-- The functions from the arguments to the result. -/
def functions (args : List SmtSort) (result : SmtSort) : SmtSort :=
  .function args result none

end SmtSort

end SmtSession
