import SmtSession.Table

/-!
# Option rules

**The options** every session starts from, and the rules for some of them:
which take a truth value, which take a numeral, and which are fixed once the
logic is. Values are kept as text.
-/

namespace SmtSession.OptionRules

/-- The values that every session starts from. -/
def defaults : Table :=
  ⟨[(":print-success", "true"),
    (":expand-definitions", "false"),
    (":interactive-mode", "false"),
    (":produce-proofs", "false"),
    (":produce-unsat-cores", "false"),
    (":produce-models", "false"),
    (":produce-assignments", "false"),
    (":regular-output-channel", "\"stdout\""),
    (":diagnostic-output-channel", "\"stderr\""),
    (":random-seed", "0"),
    (":verbosity", "0")]⟩

/-- The options that are either `true` or `false`. -/
def booleans : List String :=
  [":print-success", ":expand-definitions", ":interactive-mode", ":produce-proofs",
   ":produce-unsat-cores", ":produce-models", ":produce-assignments"]

/-- The options that are numerals. -/
def numerals : List String :=
  [":random-seed", ":verbosity"]

/-- The options that can be changed only before the logic is set. -/
def initials : List String :=
  [":interactive-mode", ":produce-proofs", ":produce-unsat-cores", ":produce-models",
   ":produce-assignments"]

/-- The pieces of information that the session answers by itself, and that
nobody can set. -/
def predefinedInfo : List String :=
  [":name", ":version", ":authors", ":error-behavior", ":reason-unknown", ":all-statistics"]

/-- The text of a truth value. -/
def flag (on : Bool) : String :=
  if on then "true" else "false"

end SmtSession.OptionRules
