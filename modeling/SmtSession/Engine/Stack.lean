import SmtSession.Text.Blank

/-!
# An engine in memory

**The stack engine** keeps the assertions of each open scope, and answers the
commands of the Yices input language well enough to hold a conversation. A
check is unsatisfiable when some live assertion mentions `false`. Commands
are told apart by how their text begins.
-/

namespace SmtSession.Engine

/-- The assertions of the open scopes. -/
structure Stack where
  /-- The assertions of the innermost scope, the oldest first. -/
  top : List String := []
  /-- The same for the enclosing scopes, the innermost first. -/
  below : List (List String) := []
  deriving DecidableEq, Inhabited

namespace Stack

/-- The number of open scopes. -/
def depth (s : Stack) : Nat :=
  s.below.length

/-- All scopes, the innermost first. -/
def scopes (s : Stack) : List (List String) :=
  s.top :: s.below

/-- Whether a live assertion mentions `false`. -/
def refuted (s : Stack) : Bool :=
  s.scopes.any fun scope => scope.any fun a => Text.contains a "false"

/-- The assertion that a command makes. -/
def assertion? (command : String) : Option String :=
  match Text.dropStart? "(assert+ " command with
  | none => none
  | some rest => if command.toList.getLast? = some ')' then
      some (String.ofList rest.toList.dropLast) else none

/-- The answer to one command, without the prompt, and the stack after it. -/
def handle (s : Stack) (line : String) : String × Stack :=
  let command := Text.strip line
  match assertion? command with
  | some a => ("", { s with top := s.top ++ [a] })
  | none =>
    if command = "(check)" then
      (if s.refuted then "unsat\n" else "sat\n", s)
    else if command = "(push)" then
      ("", { top := [], below := s.top :: s.below })
    else if command = "(pop)" then
      match s.below with
      | [] => ("Error: pop without matching push\n", s)
      | scope :: below => ("", { top := scope, below := below })
    else if command = "(reset)" then
      ("", {})
    else if (Text.dropStart? "(define" command).isSome then
      ("", s)
    else if (Text.dropStart? "(get-value" command).isSome then
      ("(= x 0)\n", s)
    else
      ("Error: unknown command " ++ command ++ "\n", s)

end Stack

end SmtSession.Engine
