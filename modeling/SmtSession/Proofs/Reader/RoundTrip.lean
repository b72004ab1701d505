import SmtSession.Proofs.Reader.Commands
import SmtSession.Proofs.Reader.Writing

/-!
# Reading undoes writing

**What is written can be laid out as a text, and every text that spells it is read as
it**: `readScript_of_shaped`. The shapes of `Command.Shaped` have a spelling, whose
lexemes can all stand in a text; the rest is the reading of spellings.
-/

namespace SmtSession

open Lexeme (ofName ofNumber IsAtomText)

namespace Command

variable {c : Command}

/-- What is written of the arguments spells them and can stand in a text. -/
def ArgumentsWritten (c : Command) : Prop :=
  c.ArgumentsSpelled c.argumentLexemes ∧ ∀ l ∈ c.argumentLexemes, l.Writable

theorem spelledCount_ofNumber {default n : Int} (shaped : 0 ≤ n) :
    SpelledCount default n [ofNumber n] :=
  .inr ⟨_, rfl, counts_ofNumber shaped⟩

theorem name_written {name : String} {ls : List Lexeme} (more : ∀ l ∈ ls, l.Writable) :
    ∀ l ∈ ofName name :: ls, l.Writable :=
  List.forall_mem_cons.mpr ⟨writable_ofName name, more⟩

theorem key_written {k : Keyword} {ls : List Lexeme} (shaped : k.Shaped)
    (more : ∀ l ∈ ls, l.Writable) : ∀ l ∈ .plain k.name :: ls, l.Writable :=
  List.forall_mem_cons.mpr ⟨shaped.2, more⟩

theorem setting_written {v : Setting} (shaped : v.Shaped) :
    v.Spelled v.lexemes ∧ ∀ l ∈ v.lexemes, l.Writable := by
  cases v with
  | term u =>
    obtain ⟨spelled, writable⟩ := Term.written_of_shaped u shaped
    exact ⟨.inl spelled, writable⟩
  | _ => cases shaped

theorem declareFun_written {name : Symbol} {args : List SmtSort} {result : SmtSort}
    (args_shaped : SmtSort.AllShaped [] args) (result_shaped : result.Shaped []) :
    (declareFun name args result).ArgumentsWritten := by
  obtain ⟨spelled, writable⟩ :=
    SmtSort.allWritten (SmtSort.allWritten_of_shaped [] args) args_shaped
  obtain ⟨result_spelled, result_writable⟩ := SmtSort.written_of_shaped [] result result_shaped
  refine ⟨⟨_, _, _, rfl, (names_ofName _).1, spelled, result_spelled⟩, name_written ?_⟩
  exact List.forall_mem_append.mpr ⟨writable_parenthesised.mpr writable, result_writable⟩

theorem defineFun_written {name : Symbol} {parameters : List Declaration} {result : SmtSort}
    {body : Term} (shaped : ∀ decl ∈ parameters, decl.Shaped) (result_shaped : result.Shaped [])
    (body_shaped : body.Shaped) : (defineFun name parameters result body).ArgumentsWritten := by
  obtain ⟨result_spelled, result_writable⟩ := SmtSort.written_of_shaped [] result result_shaped
  obtain ⟨body_spelled, body_writable⟩ := Term.written_of_shaped body body_shaped
  have declared : SpelledAll Declaration.Spelled parameters
      (parameters.flatMap Declaration.lexemes) :=
    spelledAll_flatMap fun decl is => Declaration.spelled_of_shaped (shaped decl is)
  refine ⟨⟨_, _, _, _, rfl, (names_ofName _).1, declared, result_spelled, body_spelled⟩,
    name_written ?_⟩
  rw [List.forall_mem_append, List.forall_mem_append, writable_parenthesised]
  exact ⟨writable_flatMap fun decl is => Declaration.writable_of_shaped (shaped decl is),
    result_writable, body_writable⟩

theorem defineSort_written {name : Symbol} {parameters : List Symbol} {definition : SmtSort}
    (shaped : definition.Shaped (parameters.map Symbol.name)) :
    (defineSort name parameters definition).ArgumentsWritten := by
  obtain ⟨spelled, writable⟩ :=
    SmtSort.written_of_shaped (parameters.map Symbol.name) definition shaped
  have listed : SpelledEach (fun p l => l.Names p.name) parameters
      (parameters.map fun p => ofName p.name) :=
    spelledEach_map fun p _ => (names_ofName p.name).1
  refine ⟨⟨_, _, _, rfl, (names_ofName _).1, listed, spelled⟩, name_written ?_⟩
  rw [List.forall_mem_append, writable_parenthesised]
  exact ⟨writable_map fun p _ => writable_ofName p.name, writable⟩

/-- **What is written of the arguments of a command spells them.** -/
theorem argumentsWritten_of_shaped (shaped : c.Shaped) : c.ArgumentsWritten := by
  cases c with
  | setLogic logic => exact ⟨⟨_, rfl, (names_ofName _).1⟩, name_written nofun⟩
  | setOption k v =>
    obtain ⟨spelled, writable⟩ := setting_written shaped.2
    exact ⟨⟨_, _, rfl, Keyword.spelled_of_shaped shaped.1, spelled⟩, key_written shaped.1 writable⟩
  | getOption k => exact ⟨⟨_, rfl, Keyword.spelled_of_shaped shaped⟩, key_written shaped nofun⟩
  | setInfo k v =>
    cases v with
    | absent => exact ⟨⟨_, rfl, Keyword.spelled_of_shaped shaped⟩, key_written shaped nofun⟩
    | term v =>
      obtain ⟨spelled, writable⟩ := setting_written shaped.2
      exact ⟨⟨_, _, rfl, Keyword.spelled_of_shaped shaped.1, spelled⟩,
        key_written shaped.1 writable⟩
    | _ => exact absurd shaped.2 id
  | getInfo k => exact ⟨⟨_, rfl, Keyword.spelled_of_shaped shaped⟩, key_written shaped nofun⟩
  | declareFun name args result => exact declareFun_written shaped.1 shaped.2
  | declareConst name sort =>
    obtain ⟨spelled, writable⟩ := SmtSort.written_of_shaped [] sort shaped
    exact ⟨⟨_, _, rfl, (names_ofName _).1, spelled⟩, name_written writable⟩
  | defineFun name parameters result body =>
    exact defineFun_written shaped.1 shaped.2.1 shaped.2.2
  | declareSort name arity =>
    exact ⟨⟨_, _, rfl, (names_ofName _).1, spelledCount_ofNumber shaped⟩,
      name_written (List.forall_mem_singleton.mpr (writable_ofNumber shaped))⟩
  | defineSort name parameters definition => exact defineSort_written shaped
  | assert term => exact Term.written_of_shaped term shaped
  | push count | pop count =>
    exact ⟨spelledCount_ofNumber shaped, List.forall_mem_singleton.mpr (writable_ofNumber shaped)⟩
  | getValue terms =>
    obtain ⟨spelled, writable⟩ := Term.allWritten_of_shaped terms shaped.2
    exact ⟨⟨shaped.1, _, rfl, spelled⟩, writable_parenthesised.mpr writable⟩
  | echo message =>
    cases message with
    | string content pos => exact ⟨rfl, List.forall_mem_singleton.mpr trivial⟩
    | _ => cases shaped
  | other name => cases shaped
  | _ => exact ⟨rfl, nofun⟩

theorem isAtomText_name (shaped : c.Shaped) : IsAtomText c.name.toList := by
  cases c with
  | other name => cases shaped
  | _ =>
    rw [name]
    decide

theorem spelled_of_shaped (shaped : c.Shaped) : c.Spelled c.lexemes :=
  ⟨_, rfl, (argumentsWritten_of_shaped shaped).1⟩

theorem writable_of_shaped (shaped : c.Shaped) : ∀ l ∈ c.lexemes, l.Writable := by
  rw [lexemes, writable_parenthesised]
  exact List.forall_mem_cons.mpr ⟨isAtomText_name shaped, (argumentsWritten_of_shaped shaped).2⟩

end Command

/-- **Reading undoes writing.** Commands of the shapes have a spelling that some text
lays out. And whichever way they are spelled, and however that is laid out, the
script is read as these commands: one by one up to the end, and all at once. -/
theorem readScript_of_shaped {cs : List Command} (shaped : ∀ c ∈ cs, c.Shaped) :
    (SpelledAll Command.Spelled cs (cs.flatMap Command.lexemes) ∧
      ∃ text : String, Laid (cs.flatMap Command.lexemes) text.toList) ∧
    ∀ (ls : List Lexeme) (text : String) (location : Option String),
      SpelledAll Command.Spelled cs ls → Laid ls text.toList →
      (Script.ofSource ⟨text, location⟩).Gives cs ∧
        ∃ cs', readScript ⟨text, location⟩ = .ok cs' ∧
          cs'.map Command.bare = cs.map Command.bare := by
  have writable := writable_flatMap (f := Command.lexemes) fun c is =>
    Command.writable_of_shaped (shaped c is)
  refine ⟨⟨?_, String.ofList (spaced (cs.flatMap Command.lexemes)), ?_⟩, ?_⟩
  · exact spelledAll_flatMap fun c is => Command.spelled_of_shaped (shaped c is)
  · rw [String.toList_ofList]
    exact laid_spaced writable
  · exact fun ls text location spelled laid => readScript_of_spelled spelled laid location

/-- An assertion about a function whose name is a reserved word, and about a constant
whose name is a numeral. -/
theorem readScript_of_shaped_quoted :
    let cs := [Command.assert (.apply (.symbol { name := "let" }) [.symbol { name := "0" }] none)]
    (∀ c ∈ cs, c.Shaped) ∧
    ∃ text : String, Laid [.opening, .plain "assert", .opening, .quoted "let", .quoted "0",
        .closing, .closing] text.toList ∧
      (Script.ofSource ⟨text, none⟩).Gives cs ∧
        ∃ cs', readScript ⟨text, none⟩ = .ok cs' ∧
          cs'.map Command.bare = cs.map Command.bare := by
  intro cs
  have shaped : ∀ c ∈ cs, c.Shaped := by
    intro c is
    cases List.mem_singleton.mp is
    exact ⟨trivial, trivial, trivial, trivial⟩
  obtain ⟨⟨spelled, text, laid⟩, reads⟩ := readScript_of_shaped shaped
  exact ⟨shaped, text, laid, reads _ text none spelled laid⟩

end SmtSession
