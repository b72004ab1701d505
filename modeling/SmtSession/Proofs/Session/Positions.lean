import SmtSession.Proofs.Dialect.Positions
import SmtSession.Proofs.Session.Scripts

/-!
# Positions do not matter to a session

**Where a command was read makes no difference** but to the range that its response blames:
`execute_bare`. The wires are spelled without positions, the state holds none, and the
records that a command makes name none. So two commands that are the same without positions
have the same effect (`execute_of_bare`), and the same is printed of them (`printed_of_bare`).
-/

namespace SmtSession

open Dialect (mapError_bind)

/-- The response without the range that it blames. -/
def Response.bare (r : Response) : Response :=
  { r with pos := none }

/-! ## Wires -/

namespace Dialect

variable {f : Error → Error} {x : Except Error α}

/-- Errors are changed behind a step without a failure of its own as in front of it. -/
theorem mapError_map {g : α → β} : (g <$> x).mapError f = g <$> x.mapError f := by
  cases x <;> rfl

theorem render_bare (d : Dialect) (t : Term) :
    d.render t.bare = (d.render t).mapError Error.bare := by
  rw [render, render, mapError_bind, spell_bare]
  rfl

end Dialect

open Dialect (mapError_map)

namespace Backend

variable (b : Backend)

theorem assertWire_bare (t : Term) :
    b.assertWire t.bare = (b.assertWire t).mapError Dialect.Error.bare := by
  rw [assertWire, assertWire, mapError_bind, Dialect.spell_bare]
  rfl

theorem valueWire_bare (ts : List Term) :
    b.valueWire (Term.bareAll ts) = (b.valueWire ts).mapError Dialect.Error.bare := by
  rw [valueWire, valueWire, mapError_bind, Dialect.spellAll_bare]
  rfl

theorem signature_bare (args : List SmtSort) (result : SmtSort) :
    b.signature (SmtSort.bareAll args) result.bare =
      (b.signature args result).mapError Dialect.Error.bare := by
  have empty : (SmtSort.bareAll args).isEmpty = args.isEmpty := by cases args <;> rfl
  rw [signature, signature, empty]
  split
  · exact b.dialect.spellSort_bare result
  · simp only [mapError_bind, Dialect.spellSorts_bare, Dialect.spellSort_bare]
    rfl

theorem declareWire_bare (name : Symbol) (args : List SmtSort) (result : SmtSort) :
    b.declareWire name.bare (SmtSort.bareAll args) result.bare =
      (b.declareWire name args result).mapError Dialect.Error.bare := by
  rw [declareWire, declareWire, mapError_bind, signature_bare]
  rfl

theorem defineWire_bare (name : Symbol) (parameters : List Declaration) (result : SmtSort)
    (body : Term) :
    b.defineWire name.bare (parameters.map Declaration.bare) result.bare body.bare =
      (b.defineWire name parameters result body).mapError Dialect.Error.bare := by
  have sorts : (parameters.map Declaration.bare).map Declaration.sort =
      SmtSort.bareAll (parameters.map Declaration.sort) := by
    rw [Reader.bareAll_eq_map, List.map_map, List.map_map]
    rfl
  have empty : (parameters.map Declaration.bare).isEmpty = parameters.isEmpty := List.isEmpty_map
  rw [defineWire, defineWire, mapError_bind, Dialect.spell_bare, sorts, signature_bare, empty]
  congr 1
  funext value
  rw [mapError_bind]
  congr 1
  funext sort
  split
  · rfl
  · rw [mapError_bind, Dialect.spellDeclarations_bare]
    rfl

theorem declareSortWire_bare (name : Symbol) (arity : Int) :
    b.declareSortWire name.bare arity =
      (b.declareSortWire name arity).mapError Dialect.Error.bare := by
  unfold declareSortWire
  split <;> rfl

theorem defineSortWire_bare (name : Symbol) (parameters : List String) (definition : SmtSort) :
    b.defineSortWire name.bare parameters definition.bare =
      (b.defineSortWire name parameters definition).mapError Dialect.Error.bare := by
  unfold defineSortWire
  split
  · rw [mapError_bind, Dialect.spellSort_bare]
    rfl
  · rfl

theorem ifDefinitions_mapError (f : Dialect.Error → Dialect.Error)
    (wire : Except Dialect.Error String) :
    b.ifDefinitions (wire.mapError f) = (b.ifDefinitions wire).mapError f := by
  unfold ifDefinitions
  split
  · exact mapError_map.symm
  · rfl

end Backend

/-! ## Values -/

theorem Term.settingText_bare (t : Term) :
    t.bare.settingText = t.settingText.mapError Dialect.Error.bare := by
  cases t with
  | binding b =>
    obtain ⟨s, t⟩ := b
    exact Dialect.render_bare _ _
  | attr a =>
    obtain ⟨k, v⟩ := a
    cases v <;> exact Dialect.render_bare _ (.attr (.mk k _))
  | symbol | keyword | numeral | decimal | string => rfl
  | hex | binary | qualified | indexed | apply | quantified | letIn | attributed | error | sort
  | declaration => exact Dialect.render_bare _ _

theorem Setting.text_bare (v : Setting) :
    v.bare.text = v.text.mapError Dialect.Error.bare := by
  cases v with
  | term t => exact t.settingText_bare
  | _ => rfl

namespace Session

variable (setup : Setup σ)

/-! ## Answers -/

/-- The answer without the range that it blames. -/
def bareAnswer (answer : Answer) : Answer :=
  answer.map Response.bare

/-- Both acts do the same, and answer the same but for the range that is blamed. -/
def DoAlike (x y : Act σ Answer) : Prop :=
  ∀ s, bareAnswer (x.run s).1 = bareAnswer (y.run s).1 ∧ (x.run s).2 = (y.run s).2

theorem DoAlike.refl (x : Act σ Answer) : DoAlike x x :=
  fun _ => ⟨rfl, rfl⟩

theorem DoAlike.symm {x y : Act σ Answer} (alike : DoAlike x y) : DoAlike y x :=
  fun s => ⟨(alike s).1.symm, (alike s).2.symm⟩

theorem DoAlike.trans {x y z : Act σ Answer} (first : DoAlike x y) (next : DoAlike y z) :
    DoAlike x z :=
  fun s => ⟨(first s).1.trans (next s).1, (first s).2.trans (next s).2⟩

/-- A failure has the same response, whatever range there is to blame. -/
theorem fail_alike (command : String) (failure : Failure) (pos pos' : Option Pos) :
    DoAlike (do return .ok (← fail setup command failure pos))
      (do return .ok (← fail setup command failure pos')) := by
  cases failure <;> exact fun _ => ⟨rfl, rfl⟩

/-- What is refused is refused for the same cause. -/
theorem refused_alike (command : String) (cause : Dialect.Cause) (at? at?' pos pos' : Option Pos) :
    DoAlike (do return .ok (← fail setup command (.refused cause at?) pos))
      (do return .ok (← fail setup command (.refused cause at?') pos')) :=
  fun _ => ⟨rfl, rfl⟩

theorem DoAlike.bind {act : Act σ α} {x y : α → Act σ Answer}
    (next : ∀ a, DoAlike (x a) (y a)) : DoAlike (act >>= x) (act >>= y) := by
  intro s
  rw [StateT.run_bind, StateT.run_bind]
  exact next (act.run s).1 (act.run s).2

/-- The requests are the same, but for the ranges that are blamed. -/
structure Request.Alike (r' r : Request) : Prop where
  command : r'.command = r.command
  wire : r'.wire = r.wire.mapError Dialect.Error.bare
  accept : r'.accept = r.accept
  respond : r'.respond = r.respond

theorem carryOut_alike {r r' : Request} (alike : r'.Alike r) :
    DoAlike (carryOut setup r') (carryOut setup r) := by
  unfold carryOut
  rw [alike.command, alike.wire, alike.accept, alike.respond]
  cases r.wire with
  | error e =>
    cases e with
    | misplaced part => exact .refl _
    | refused cause at? => exact refused_alike setup _ cause none at? r'.pos r.pos
  | ok wire =>
    cases wire with
    | none => exact .refl _
    | some wire =>
      refine DoAlike.bind fun outcome => ?_
      cases outcome with
      | error failure => exact fail_alike setup _ failure r'.pos r.pos
      | ok reply => exact .refl _

/-! ## Operations -/

theorem setLogic_alike (logic : Symbol) :
    DoAlike (setLogic setup logic.bare) (setLogic setup logic) := by
  refine DoAlike.bind fun state => ?_
  dsimp only [Symbol.bare]
  split
  · exact fun _ => ⟨rfl, rfl⟩
  · split
    · exact carryOut_alike setup (r := resetRequest logic) ⟨rfl, rfl, rfl, rfl⟩
    · exact .refl _

theorem setOption_alike (key : Keyword) (value : Setting) :
    DoAlike (setOption key.bare value.bare : Act σ Answer) (setOption key value) := by
  unfold setOption
  rw [value.text_bare]
  cases value.text with
  | error e => cases e <;> exact fun _ => ⟨rfl, rfl⟩
  | ok text =>
    refine DoAlike.bind fun s => ?_
    dsimp only [Keyword.bare]
    split <;> exact fun _ => ⟨rfl, rfl⟩

theorem setInfo_alike (key : Keyword) (value : Setting) :
    DoAlike (setInfo key.bare value.bare : Act σ Answer) (setInfo key value) := by
  unfold setInfo
  rw [value.text_bare]
  dsimp only [Keyword.bare]
  split
  · exact fun _ => ⟨rfl, rfl⟩
  · cases value.text with
    | error e => cases e <;> exact fun _ => ⟨rfl, rfl⟩
    | ok text => exact .refl _

/-- A command that is one request is that request without its positions, too. -/
theorem request_bare {b : Backend} {c : Command} {op : Operation} {r : Request}
    (is : c.operation? = some op) (request : op.request? b = some r) :
    ∃ op' r', c.bare.operation? = some op' ∧ op'.request? b = some r' ∧ r'.Alike r := by
  have wire {w : Except Dialect.Error String} :
      some <$> w.mapError Dialect.Error.bare = (some <$> w).mapError Dialect.Error.bare :=
    mapError_map.symm
  cases c with
  | assert t =>
    cases is
    cases request
    exact ⟨_, _, rfl, rfl, rfl, by rw [b.assertWire_bare, wire], rfl, rfl⟩
  | getValue terms =>
    cases is
    cases request
    exact ⟨_, _, rfl, rfl, rfl, by rw [b.valueWire_bare, wire], rfl, rfl⟩
  | declareConst name sort =>
    cases is
    cases request
    refine ⟨_, _, rfl, rfl, rfl, ?_, rfl, rfl⟩
    exact (congrArg (some <$> ·) (b.declareWire_bare name [] sort)).trans wire
  | declareFun name args result =>
    cases is
    cases request
    refine ⟨_, _, rfl, rfl, rfl, ?_, rfl, rfl⟩
    exact (congrArg (some <$> ·) (b.declareWire_bare name args result)).trans wire
  | defineFun name parameters result body =>
    cases is
    cases request
    refine ⟨_, _, rfl, rfl, rfl, ?_, rfl, rfl⟩
    exact (congrArg b.ifDefinitions (b.defineWire_bare name parameters result body)).trans
      (b.ifDefinitions_mapError _ _)
  | declareSort name arity =>
    cases is
    cases request
    refine ⟨_, _, rfl, rfl, rfl, ?_, rfl, rfl⟩
    exact (congrArg b.ifDefinitions (b.declareSortWire_bare name arity)).trans
      (b.ifDefinitions_mapError _ _)
  | defineSort name parameters definition =>
    cases is
    cases request
    have names : (parameters.map Symbol.bare).map Symbol.name = parameters.map Symbol.name := by
      rw [List.map_map]
      rfl
    refine ⟨_, _, rfl, rfl, rfl, ?_, rfl, rfl⟩
    rw [names]
    exact (congrArg b.ifDefinitions (b.defineSortWire_bare name _ definition)).trans
      (b.ifDefinitions_mapError _ _)
  | checkSat | getProof | getUnsatCore | getAssignment =>
    cases is
    cases request
    exact ⟨_, _, rfl, rfl, rfl, rfl, rfl, rfl⟩
  | setLogic | setOption | getOption | setInfo | getInfo | push | pop | exit =>
    cases is
    cases request
  | echo | getModel | getAssertions | reset | resetAssertions | other => cases is

/-- **Without its positions a command does what it did**, and answers the same but for the
range that is blamed. -/
theorem execute_bare (c : Command) : DoAlike (execute setup c.bare) (execute setup c) := by
  cases is : c.operation? with
  | none => cases c <;> first | exact .refl _ | cases is
  | some op =>
    cases request : op.request? setup.backend with
    | some r =>
      obtain ⟨op', r', is', request', alike⟩ := request_bare is request
      simp only [execute, is, is', perform_of_request setup request,
        perform_of_request setup request']
      exact carryOut_alike setup alike
    | none =>
      cases c with
      | setLogic logic => exact setLogic_alike setup logic
      | setOption key value => exact setOption_alike key value
      | setInfo key value => exact setInfo_alike key value
      | getOption | getInfo | push | pop | exit => exact .refl _
      | echo | getModel | getAssertions | reset | resetAssertions | other => cases is
      | _ =>
        cases is
        cases request

/-! ## Commands that are the same without positions -/

/-- **Commands that are the same without positions do the same** in sessions that are the
same but for what was reported. -/
theorem execute_of_bare {c c' : Command} (same : c.bare = c'.bare) {s s' : Session σ}
    (alike : Alike s s') :
    bareAnswer ((execute setup c).run s).1 = bareAnswer ((execute setup c').run s').1 ∧
      Alike ((execute setup c).run s).2 ((execute setup c').run s').2 := by
  have bare : DoAlike (execute setup c) (execute setup c') :=
    (execute_bare setup c).symm.trans (same ▸ execute_bare setup c')
  obtain ⟨answers, behind⟩ := bare s
  obtain ⟨same, alike⟩ := execute_alike setup c' alike
  rw [answers, behind, same]
  exact ⟨rfl, alike⟩

/-- The range that an answer blames is not printed. -/
theorem printed_of_bare {answer answer' : Answer} (same : bareAnswer answer = bareAnswer answer')
    (s : State) : printed s answer = printed s answer' := by
  have bare (answer : Answer) : printed s (bareAnswer answer) = printed s answer := by
    cases answer <;> rfl
  rw [← bare, same, bare]

end Session

end SmtSession
