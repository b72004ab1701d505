import SmtSession.Command
import SmtSession.Dialect
import SmtSession.OptionRules

/-!
# Option and information values

**A value** handed to `set-option` or `set-info` is kept as text: constants
and names as they are, literals as they are written, other terms as the input
language spells them. An absent value counts as `true`.
-/

namespace SmtSession

/-- The text that a term is kept as. -/
def Term.settingText (t : Term) : Except Dialect.Error String :=
  match t with
  | .symbol s => pure s.name
  | .keyword k => pure k.name
  | .numeral value _ => pure (toString value)
  | .decimal text _ => pure text
  | .string content _ => pure (Text.Quoted.encode content)
  | t => Dialect.smtLib.render t

/-- The text that a value is kept as. -/
def Setting.text : Setting → Except Dialect.Error String
  | .absent => pure "true"
  | .flag on => pure (OptionRules.flag on)
  | .number value => pure (toString value)
  | .verbatim text => pure text
  | .term t => t.settingText

end SmtSession
