import SmtSession.Proofs.Dialect.Framing
import SmtSession.Proofs.Reader.Extent
import SmtSession.Proofs.Session.Conduct
import SmtSession.Execution
import SmtSession.Transport.Scripted

/-!
# What a script hands to the engine

**Every wire of a script is framed**, as long as the names between bars can stand in a
line: `framed_of_readScript`. All else that a wire is made of is an atom of the text, a
number, or a word of the dialect, and these have neither parentheses nor line feeds.

The condition is needed. The reader drops the bars of a quoted symbol and the dialect
writes its name as it is, so a name with line feeds in it makes several lines of one
command: `not_framed_of_lines_in_bars`.
-/

namespace SmtSession

open Transport (Use)
open Text (InlineName)

/-- The wire that a use hands over. -/
def Transport.Use.wire? : Use → Option String
  | .send wire _ => some wire
  | .exchange wire _ => some wire
  | .start _ | .finish _ => none

namespace Session

/-! ## The wires of operations -/

/-- A row hands over one wire again and again. -/
theorem Row.wire {b : Backend} {moved : String} {n acknowledged : Nat} {us : List Use}
    {failure : Option Failure} (row : Row b moved n us acknowledged failure) :
    ∀ u ∈ us, u.wire? = some moved := by
  induction row with
  | done => exact nofun
  | stopped read => exact List.forall_mem_singleton.mpr rfl
  | went read rest ih => exact List.forall_mem_cons.mpr ⟨rfl, ih⟩

/-- What an operation hands over is the wire of its request, or one of four words. -/
theorem Conduct.wire {b : Backend} {relaxed : Bool} {s s' : State} {op : Operation}
    {us : List Use} {answer : Answer} (conduct : Conduct b relaxed s op us answer s') {u : Use}
    {wire : String} (is : u ∈ us) (hands : u.wire? = some wire) :
    (∃ r, op.request? b = some r ∧ r.wire = .ok (some wire)) ∨
      ∃ name ∈ ["exit", "push", "pop", "reset"], wire = Backend.word name := by
  have of_row {moved : String} {n acknowledged : Nat} {failure : Option Failure}
      (row : Row b moved n us acknowledged failure) : wire = moved := by
    have same := row.wire u is
    rw [hands] at same
    exact Option.some.inj same
  cases conduct with
  | request isRequest carried =>
    cases carried with
    | misplaced | refused | unsent => cases is
    | failed spelled | acknowledged spelled =>
      cases List.mem_singleton.mp is
      cases hands
      exact .inl ⟨_, isRequest, spelled⟩
  | pushed check row => exact .inr ⟨"push", by decide, of_row row⟩
  | popped check row => exact .inr ⟨"pop", by decide, of_row row⟩
  | logicReset check fixed carried =>
    cases carried with
    | misplaced | refused | unsent => cases is
    | failed spelled | acknowledged spelled =>
      cases List.mem_singleton.mp is
      cases hands
      cases spelled
      exact .inr ⟨"reset", by decide, rfl⟩
  | started | notStarted =>
    cases List.mem_singleton.mp is
    cases hands
  | notEnded | endedUnsent | endedWithError | ended =>
    simp only [List.mem_cons, List.not_mem_nil, or_false] at is
    rcases is with rfl | rfl
    · cases hands
      exact .inr ⟨"exit", by decide, rfl⟩
    · cases hands
  | violated | logicSet | optionMisplaced | optionRefused | optionSet | infoMisplaced | infoRefused
  | infoSet | optionAnswered | infoAnswered => cases is

/-- The request of a command whose names can stand in a line has a framed wire. -/
theorem framed_of_request {b : Backend} (plain : b.dialect.Plain) {c : Command} {op : Operation}
    {r : Request} {wire : String} (named : c.NamesAre InlineName) (is : c.operation? = some op)
    (request : op.request? b = some r) (spelled : r.wire = .ok (some wire)) :
    Backend.Framed wire := by
  cases c with
  | assert t =>
    cases is
    cases request
    obtain ⟨_, spelled, same⟩ := Dialect.map_eq_ok.mp spelled
    cases same
    exact Backend.assertWire_framed plain named spelled
  | declareConst name sort =>
    cases is
    cases request
    obtain ⟨_, spelled, same⟩ := Dialect.map_eq_ok.mp spelled
    cases same
    have none : ∀ s ∈ ([] : List SmtSort), s.NamesAre InlineName := nofun
    exact Backend.declareWire_framed plain named.1 none named.2 spelled
  | declareFun name args result =>
    cases is
    cases request
    obtain ⟨_, spelled, same⟩ := Dialect.map_eq_ok.mp spelled
    cases same
    exact Backend.declareWire_framed plain named.1 named.2.1 named.2.2 spelled
  | declareSort name arity =>
    cases is
    cases request
    exact Backend.declareSortWire_framed named (Backend.ifDefinitions_eq_some b spelled)
  | defineFun name parameters result body =>
    cases is
    cases request
    obtain ⟨own, parameters_named, result_named, body_named⟩ := named
    exact Backend.defineWire_framed plain own parameters_named result_named body_named
      (Backend.ifDefinitions_eq_some b spelled)
  | defineSort name parameters definition =>
    cases is
    cases request
    exact Backend.defineSortWire_framed plain named.1 named.2
      (Backend.ifDefinitions_eq_some b spelled)
  | getValue terms =>
    cases is
    cases request
    obtain ⟨_, spelled, same⟩ := Dialect.map_eq_ok.mp spelled
    cases same
    exact Backend.valueWire_framed plain named spelled
  | checkSat | getProof | getUnsatCore | getAssignment =>
    cases is
    cases request
    cases spelled
    exact Backend.framed_word (by decide)
  | setLogic | setOption | getOption | setInfo | getInfo | push | pop | exit =>
    cases is
    cases request
  | echo | getModel | getAssertions | reset | resetAssertions | other => cases is

/-! ## The wires of commands -/

/-- The wires that a command hands over, in order. -/
def wires (setup : Setup σ) (c : Command) (s : Session σ) : List String :=
  ((execute setup.watched c).run (s.watch [])).2.link.2.filterMap Use.wire?

/-- Only the operation of a command hands anything over. -/
theorem wires_eq (setup : Setup σ) (c : Command) (s : Session σ) :
    wires setup c s = match c.operation? with
      | some op => (uses setup op s).filterMap Use.wire?
      | none => [] := by
  unfold wires execute
  cases c.operation? with
  | some op => rfl
  | none => rfl

theorem framed_of_named {setup : Setup σ} (plain : setup.backend.dialect.Plain) {c : Command}
    (named : c.NamesAre InlineName) (s : Session σ) :
    ∀ wire ∈ wires setup c s, Backend.Framed wire := by
  intro wire is
  rw [wires_eq] at is
  cases found : c.operation? with
  | none => simp [found] at is
  | some op =>
    simp only [found] at is
    obtain ⟨u, is, hands⟩ := List.mem_filterMap.mp is
    rcases (perform_uses setup op s).wire is hands with ⟨r, request, spelled⟩ | ⟨name, word, rfl⟩
    · exact framed_of_request plain named found request spelled
    · refine Backend.framed_word ?_
      have all : ∀ name ∈ ["exit", "push", "pop", "reset"], Text.isPlain name = true := by decide
      exact all name word

end Session

/-- What a text names can stand in a line when what it has between bars can. -/
theorem namesAre_inline_of_quoted {source : Source}
    (quoted : ∀ t ∈ source.tokenize.list, ∀ name, t.lexeme = .quoted name → InlineName name) :
    ∀ t ∈ source.tokenize.list, t.lexeme.NamesAre InlineName := by
  intro t is
  cases lexeme : t.lexeme with
  | opening | closing | string => trivial
  | quoted name => exact quoted t is name lexeme
  | plain text =>
    have inner := Token.isDelimiter_of_plain is lexeme
    refine Text.Inline.of_forall fun c there => ?_
    have delimiter := inner c there
    refine ⟨?_, ?_, ?_⟩ <;> rintro rfl <;> cases delimiter

/-- A session with an engine that acknowledges everything. -/
def Session.Setup.agreeable : Session.Setup Transport.Played :=
  ⟨.yices, .scripted { name := "yices", prompt := "yices > " }, false, false⟩

/-- The same session, started. -/
def Session.agreed : Session Transport.Played :=
  { state := { started := true }, link := { running := true } }

/-- **The wires of a script are framed.** Whatever a text has between bars, as long as it
can stand in a line: each wire that a command of it hands over, in any session with an
engine of the Yices dialect, is one parenthesised expression on a line of its own. -/
theorem framed_of_readScript {source : Source} {cs : List Command}
    (read : readScript source = .ok cs)
    (quoted : ∀ t ∈ source.tokenize.list, ∀ name, t.lexeme = .quoted name → InlineName name)
    {setup : Session.Setup σ} (yices : setup.backend.dialect = .yices) (s : Session σ) :
    ∀ c ∈ cs, ∀ wire ∈ Session.wires setup c s, Backend.Framed wire := by
  intro c is
  have plain : setup.backend.dialect.Plain := yices ▸ Dialect.plain_yices
  have named := names_of_readScript read (namesAre_inline_of_quoted quoted)
  exact Session.framed_of_named plain (named c is) s

/-- A name with a space in it can stand in a line. -/
theorem framed_of_readScript_space :
    let source : Source := ⟨"(declare-const |a b| Int)", none⟩
    ∃ cs, readScript source = .ok cs ∧
      (∀ t ∈ source.tokenize.list, ∀ name, t.lexeme = .quoted name → InlineName name) ∧
      (cs.flatMap fun c => Session.wires .agreeable c .agreed) = ["(define a b::int)\n"] ∧
      ∀ c ∈ cs, ∀ wire ∈ Session.wires .agreeable c .agreed, Backend.Framed wire := by
  intro source
  have sent : (readScript source).toOption.map
      (fun cs => cs.flatMap fun c => Session.wires .agreeable c .agreed) =
        some ["(define a b::int)\n"] := by decide +kernel
  obtain ⟨cs, read, wires⟩ := exists_of_readScript sent
  have lexemes : source.tokenize.list.map Token.lexeme =
      [.opening, .plain "declare-const", .quoted "a b", .plain "Int", .closing] := by
    decide +kernel
  have quoted : ∀ t ∈ source.tokenize.list, ∀ name, t.lexeme = .quoted name → InlineName name := by
    intro t is name bars
    have here := List.mem_map_of_mem (f := Token.lexeme) is
    rw [lexemes, bars] at here
    have same : name = "a b" := by simpa using here
    rw [same]
    exact Text.Inline.of_isPlain (by decide)
  exact ⟨cs, read, quoted, wires, framed_of_readScript read quoted rfl .agreed⟩

/-- **A name of three lines makes three commands of one.** -/
theorem not_framed_of_lines_in_bars :
    ¬ ∀ (source : Source) (cs : List Command), readScript source = .ok cs →
      ∀ (setup : Session.Setup Transport.Played) (s : Session Transport.Played),
        setup.backend = .yices → s.state.started = true →
        ∀ c ∈ cs, ∀ wire ∈ Session.wires setup c s, Backend.Framed wire := by
  intro framed
  let source : Source := ⟨"(declare-const |x::int)\n(reset)\n(define y| Int)", none⟩
  have sent : (readScript source).toOption.map
      (fun cs => cs.flatMap fun c => Session.wires .agreeable c .agreed) =
        some ["(define x::int)\n(reset)\n(define y::int)\n"] := by decide +kernel
  obtain ⟨cs, read, wires⟩ := exists_of_readScript sent
  have here : "(define x::int)\n(reset)\n(define y::int)\n"
      ∈ cs.flatMap fun c => Session.wires .agreeable c .agreed := by simp [wires]
  obtain ⟨c, is, hands⟩ := List.mem_flatMap.mp here
  have one := (framed source cs read .agreeable .agreed rfl rfl c is _ hands).count_feeds
  exact absurd one (by decide)

end SmtSession
