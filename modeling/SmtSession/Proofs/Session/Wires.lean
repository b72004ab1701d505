import SmtSession.Backend

/-!
# The wires of a session, by what they do

**A wire that is spelled** is one of three kinds: it asserts a term, it asks for
values, or it defines something. The lemmas here read a spelling backwards: from
a wire that came out to the expressions that it is made of. A spelling that did
not come out has no wire, and nothing is said of it.

The kinds are told apart, and apart from the wires with a fixed text, by the letter
that the word of a wire begins with: `letter?_call`.
-/

namespace SmtSession

/-- Two steps that may fail came out when both did. -/
theorem Dialect.bind_eq_ok {first : Except Dialect.Error α} {next : α → Except Dialect.Error β}
    {b : β} : first >>= next = .ok b ↔ ∃ a, first = .ok a ∧ next a = .ok b := by
  cases first with
  | error e => exact ⟨nofun, nofun⟩
  | ok a => exact ⟨fun h => ⟨a, rfl, h⟩, fun ⟨_, same, h⟩ => by cases same; exact h⟩

/-- A step without a failure of its own came out when what it maps did. -/
theorem Dialect.map_eq_ok {first : Except Dialect.Error α} {f : α → β} {b : β} :
    f <$> first = .ok b ↔ ∃ a, first = .ok a ∧ f a = b := by
  cases first with
  | error e => exact ⟨nofun, nofun⟩
  | ok a =>
    refine ⟨fun h => ⟨a, rfl, Except.ok.inj h⟩, ?_⟩
    rintro ⟨_, same, h⟩
    cases same
    rw [← h]
    rfl

namespace Backend

open SExpr (call)

variable (b : Backend) {wire : String}

/-- The wire of an assertion is the text of its term behind one word. -/
theorem assertWire_eq_ok {t : Term} : b.assertWire t = .ok wire ↔
    ∃ e, b.dialect.spell t = .ok e ∧ line (call (.atom "assert+") [e]) = wire := by
  rw [assertWire, Dialect.bind_eq_ok]
  refine exists_congr fun e => and_congr_right fun _ => ?_
  exact ⟨Except.ok.inj, fun same => congrArg Except.ok same⟩

/-- The wire asks for the values of some expressions. -/
def AsksValues (wire : String) : Prop :=
  ∃ es, wire = line (call (.atom "get-value") es)

/-- The wire defines something, in one of the engine's ways. -/
def Defines (wire : String) : Prop :=
  ∃ kind e es, wire = line (call (.atom ("define" ++ kind)) (e :: es))

theorem valueWire_asks {ts : List Term} (spelled : b.valueWire ts = .ok wire) :
    AsksValues wire := by
  obtain ⟨es, -, same⟩ := Dialect.bind_eq_ok.mp spelled
  cases same
  exact ⟨es, rfl⟩

/-- A definition by the bare word. -/
theorem defines_define (e : SExpr) (es : List SExpr) :
    Defines (line (call (.atom "define") (e :: es))) :=
  ⟨"", e, es, by rw [String.append_empty]⟩

/-- A definition of a type. -/
theorem defines_type (e : SExpr) (es : List SExpr) :
    Defines (line (call (.atom "define-type") (e :: es))) :=
  ⟨"-type", e, es, rfl⟩

theorem declareWire_defines {name : Symbol} {args : List SmtSort} {result : SmtSort}
    (spelled : b.declareWire name args result = .ok wire) : Defines wire := by
  obtain ⟨sort, -, same⟩ := Dialect.bind_eq_ok.mp spelled
  cases same
  exact defines_define _ _

theorem defineWire_defines {name : Symbol} {parameters : List Declaration} {result : SmtSort}
    {body : Term} (spelled : b.defineWire name parameters result body = .ok wire) :
    Defines wire := by
  obtain ⟨value, -, spelled⟩ := Dialect.bind_eq_ok.mp spelled
  obtain ⟨sort, -, spelled⟩ := Dialect.bind_eq_ok.mp spelled
  split at spelled
  · cases spelled
    exact defines_define _ _
  · obtain ⟨decls, -, same⟩ := Dialect.bind_eq_ok.mp spelled
    cases same
    exact defines_define _ _

theorem declareSortWire_defines {name : Symbol} {arity : Int}
    (spelled : b.declareSortWire name arity = .ok wire) : Defines wire := by
  unfold declareSortWire at spelled
  split at spelled
  · cases spelled
    exact defines_type _ _
  · cases spelled

theorem defineSortWire_defines {name : Symbol} {parameters : List String} {definition : SmtSort}
    (spelled : b.defineSortWire name parameters definition = .ok wire) : Defines wire := by
  unfold defineSortWire at spelled
  split at spelled
  · obtain ⟨sort, -, same⟩ := Dialect.bind_eq_ok.mp spelled
    cases same
    exact defines_type _ _
  · cases spelled

/-- What is sent of a definition is its wire. -/
theorem ifDefinitions_eq_some {spelling : Except Dialect.Error String}
    (h : b.ifDefinitions spelling = .ok (some wire)) : spelling = .ok wire := by
  unfold ifDefinitions at h
  split at h
  · obtain ⟨_, spelled, same⟩ := Dialect.map_eq_ok.mp h
    cases same
    exact spelled
  · cases h

/-- An engine that is told of definitions is sent the wire of each. -/
theorem ifDefinitions_eq_ok {spelling : Except Dialect.Error String} {sent : Option String}
    (told : b.definitions = true) (h : b.ifDefinitions spelling = .ok sent) :
    ∃ wire, spelling = .ok wire ∧ sent = some wire := by
  rw [ifDefinitions, if_pos told] at h
  obtain ⟨wire, spelled, same⟩ := Dialect.map_eq_ok.mp h
  exact ⟨wire, spelled, same.symm⟩

/-! ## Wires told apart -/

/-- The letter behind the opening parenthesis of a wire. -/
def letter? (wire : String) : Option Char :=
  wire.toList[1]?

/-- The letter of a call is the first of its word. -/
theorem letter?_call {name : String} {c : Char} (first : name.toList.head? = some c)
    (es : List SExpr) : letter? (line (call (.atom name) es)) = some c := by
  obtain ⟨cs, chars⟩ : ∃ cs, name.toList = c :: cs := by
    cases here : name.toList with
    | nil => rw [here] at first; cases first
    | cons d cs =>
      rw [here] at first
      cases first
      exact ⟨cs, rfl⟩
  cases es with
  | nil => simp [letter?, line, call, SExpr.text, SExpr.texts, chars]
  | cons e es => simp [letter?, line, call, SExpr.text, SExpr.texts, chars]

/-- The wire asserts something, by how it begins. -/
def isAssertion (wire : String) : Bool :=
  (Text.dropStart? "(assert+ " wire).isSome

theorem letter?_of_isAssertion (asserts : isAssertion wire = true) : letter? wire = some 'a' := by
  unfold isAssertion Text.dropStart? at asserts
  split at asserts
  · next starts =>
    obtain ⟨rest, chars⟩ := List.isPrefixOf_iff_prefix.mp starts
    rw [letter?, ← chars]
    rfl
  · cases asserts

/-- The wire of an assertion is known as one. -/
theorem isAssertion_assertWire {t : Term} (spelled : b.assertWire t = .ok wire) :
    isAssertion wire = true := by
  obtain ⟨e, -, rfl⟩ := (b.assertWire_eq_ok).mp spelled
  have begins : "(assert+ ".toList.isPrefixOf (line (call (.atom "assert+") [e])).toList = true := by
    simp [line, call, SExpr.text, SExpr.texts, String.intercalate_cons_cons]
  rw [isAssertion, Text.dropStart?, if_pos begins]
  rfl

end Backend

end SmtSession
