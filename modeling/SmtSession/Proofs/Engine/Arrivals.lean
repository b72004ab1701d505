import SmtSession.Engine
import SmtSession.Proofs.Channel.Pieces

/-!
# What arrives from engines

An engine is known only by what it does, so what it writes is what arrives from it while
somebody waits. `Engine.Brings` is one wait, up to a deadline; `Engine.Goes` is the whole
course of a conversation, in which the engine is also handed bytes and its input ended.

`Engine.played` does what is written down: every stream, in every cut into chunks and with
deadlines anywhere in between, is what some engine brings.
-/

namespace SmtSession.Engine

open Channel (Arrival Bytes EndsOnce received)

variable {ε : Type} {engine : Engine ε}

/-- What happens while somebody waits for an engine, up to a deadline. -/
inductive Brings (engine : Engine ε) (deadline : Option Nat) : ε → List Arrival → ε → Prop
  | nil (e : ε) : Brings engine deadline e [] e
  | cons {e e' e'' : ε} {arrival : Arrival} {arrivals : List Arrival}
      (gives : engine.next deadline e = (some arrival, e'))
      (rest : Brings engine deadline e' arrivals e'') :
      Brings engine deadline e (arrival :: arrivals) e''

/-- What happens to an engine in the course of a conversation: it is handed bytes, and
somebody waits for it now and then. When its input is ended it may write some more. -/
inductive Goes (engine : Engine ε) : ε → List Arrival → ε → Prop
  | still (e : ε) : Goes engine e [] e
  | fed {e e' e'' : ε} {bytes : Bytes} {arrivals : List Arrival}
      (takes : engine.feed bytes e = some e') (rest : Goes engine e' arrivals e'') :
      Goes engine e arrivals e''
  | brought {e e' e'' : ε} {deadline : Option Nat} {arrival : Arrival} {arrivals : List Arrival}
      (gives : engine.next deadline e = (some arrival, e')) (rest : Goes engine e' arrivals e'') :
      Goes engine e (arrival :: arrivals) e''
  | shut {e e' e'' : ε} {deadline : Nat} {bytes : Bytes} {arrivals : List Arrival}
      (writes : engine.close deadline e = (bytes, e')) (rest : Goes engine e' arrivals e'') :
      Goes engine e (.chunk bytes :: arrivals) e''

theorem Goes.append {e e' e'' : ε} {first second : List Arrival}
    (goes : engine.Goes e first e') (goes' : engine.Goes e' second e'') :
    engine.Goes e (first ++ second) e'' := by
  induction goes with
  | still => exact goes'
  | fed takes _ ih => exact .fed takes (ih goes')
  | brought gives _ ih => exact .brought gives (ih goes')
  | shut writes _ ih => exact .shut writes (ih goes')

theorem Brings.goes {deadline : Option Nat} {e e' : ε} {arrivals : List Arrival}
    (brings : engine.Brings deadline e arrivals e') : engine.Goes e arrivals e' := by
  induction brings with
  | nil e => exact .still e
  | cons gives _ ih => exact .brought gives ih

/-! ## Engines that play -/

/-- An engine that does what is written down while somebody waits for it, and after that
writes no more. -/
def played : Engine (List Arrival) where
  launch _ _ _ := .ok []
  feed _ script := some script
  clock _ := 0
  next _ script :=
    match script with
    | [] => (some .closed, [])
    | arrival :: more => (some arrival, more)
  close _ script := (received script, [])
  kill _ := []
  exitCode? script := if script.isEmpty then some 0 else none

variable {first arrivals script : List Arrival}

theorem played_silent (goes : played.Goes [] arrivals script) : received arrivals = [] := by
  generalize start : ([] : List Arrival) = first at goes
  induction goes with
  | still => rfl
  | fed takes rest ih =>
    cases takes
    exact ih start
  | brought gives rest ih =>
    subst start
    cases gives
    exact ih rfl
  | shut writes rest ih =>
    subst start
    cases writes
    exact ih rfl

/-- **What is played ends once**, behind what is written down. -/
theorem played_endsOnce (runs : .closed ∉ first) (goes : played.Goes first arrivals script) :
    EndsOnce arrivals := by
  induction goes with
  | still first => exact Channel.endsOnce_of_silent rfl
  | fed takes rest ih =>
    cases takes
    exact ih runs
  | @brought first _ _ _ arrival arrivals gives rest ih =>
    cases first with
    | nil => exact Channel.endsOnce_of_silent (played_silent (.brought gives rest))
    | cons written more =>
      have here : written ≠ .closed := fun is => runs (is ▸ List.mem_cons_self)
      have later : .closed ∉ more := fun is => runs (List.mem_cons_of_mem written is)
      cases gives
      exact (ih later).cons here
  | shut writes rest ih =>
    cases writes
    exact (Channel.endsOnce_of_silent (played_silent rest)).cons nofun

end SmtSession.Engine
