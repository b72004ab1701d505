import SmtSession.Proofs.Engine.Arrivals

/-!
# Engines that answer

**An engine answers** when it writes its greeting and then one reply for each command, in
the order of the commands: `Engine.Answers`. It may take its time, and bring a reply in any
chunks; but it does not write what it was not asked for, and every reply is one piece of
the stream.

`Engine.Dialogue` is the course of a conversation with the commands in it, and
`Engine.answering` an engine that answers as it is written down, with arrivals and
deadlines anywhere.
-/

namespace SmtSession.Engine

open Channel (Arrival Bytes EndsOnce Single received)

variable {ε : Type} {engine : Engine ε}

/-- What happens to an engine that is told some commands, while somebody waits for it now
and then. -/
inductive Dialogue (engine : Engine ε) : ε → List Bytes → List Arrival → ε → Prop
  | still (e : ε) : Dialogue engine e [] [] e
  | told {e e' e'' : ε} {command : Bytes} {said : List Bytes} {arrivals : List Arrival}
      (takes : engine.feed command e = some e') (rest : Dialogue engine e' said arrivals e'') :
      Dialogue engine e (command :: said) arrivals e''
  | brought {e e' e'' : ε} {deadline : Option Nat} {arrival : Arrival} {said : List Bytes}
      {arrivals : List Arrival} (gives : engine.next deadline e = (some arrival, e'))
      (rest : Dialogue engine e' said arrivals e'') :
      Dialogue engine e said (arrival :: arrivals) e''

theorem Dialogue.append {e e' e'' : ε} {said said' : List Bytes} {first second : List Arrival}
    (here : engine.Dialogue e said first e') (there : engine.Dialogue e' said' second e'') :
    engine.Dialogue e (said ++ said') (first ++ second) e'' := by
  induction here with
  | still => exact there
  | told takes _ ih => exact .told takes (ih there)
  | brought gives _ ih => exact .brought gives (ih there)

/-- One wait is a dialogue in which nothing is said. -/
theorem Brings.dialogue {deadline : Option Nat} {e e' : ε} {arrivals : List Arrival}
    (brings : engine.Brings deadline e arrivals e') : engine.Dialogue e [] arrivals e' := by
  induction brings with
  | nil e => exact .still e
  | cons gives _ ih => exact .brought gives ih

/-! ## Answers -/

/-- The replies to some commands said behind others, when each depends on all commands up
to it. -/
def repliesTo (reply : List Bytes → Bytes) (past : List Bytes) : List Bytes → List Bytes
  | [] => []
  | command :: said =>
    reply (past ++ [command]) :: repliesTo reply (past ++ [command]) said

/-- The reply to the command at a place. -/
theorem getElem?_repliesTo {reply : List Bytes → Bytes} {past said : List Bytes} {k : Nat}
    {piece : Bytes} (there : (repliesTo reply past said)[k]? = some piece) :
    piece = reply (past ++ said.take (k + 1)) := by
  induction said generalizing past k with
  | nil => simp [repliesTo] at there
  | cons command said ih =>
    cases k with
    | zero => simpa [repliesTo] using there.symm
    | succ k =>
      have later := ih (by simpa [repliesTo] using there)
      rwa [List.append_assoc] at later

theorem forall_mem_repliesTo {reply : List Bytes → Bytes} {P : Bytes → Prop}
    (all : ∀ said, P (reply said)) (past said : List Bytes) :
    ∀ piece ∈ repliesTo reply past said, P piece := by
  induction said generalizing past with
  | nil => exact nofun
  | cons command said ih => exact List.forall_mem_cons.mpr ⟨all _, ih _⟩

/-- **The engine answers**: behind the greeting, each command with one reply that ends in
the prompt and contains it nowhere else. -/
structure Answers (engine : Engine ε) (prompt : Bytes) (greeting : List Bytes)
    (reply : List Bytes → Bytes) (e : ε) : Prop where
  greets : ∀ piece ∈ greeting, Single prompt piece
  single : ∀ said, Single prompt (reply said)
  /-- It takes every command. -/
  takes : ∀ {said arrivals e'}, engine.Dialogue e said arrivals e' →
    ∀ command, (engine.feed command e').isSome = true
  /-- What it writes are the greeting and the replies to what it was told, as far as they
  have arrived. -/
  writes : ∀ {said arrivals e'}, engine.Dialogue e said arrivals e' →
    received arrivals <+: (greeting ++ repliesTo reply [] said).flatten
  /-- Nothing arrives behind the end of the stream. -/
  closes : ∀ {said arrivals e'}, engine.Dialogue e said arrivals e' → EndsOnce arrivals

/-! ## Engines that answer as it is written down -/

/-- An engine that remembers what it was told. Behind the greeting it does for each
command what is written down for it, one arrival for each time somebody waits. When
nothing is left to do it keeps silent up to the deadline. -/
def answering (greeting : List Arrival) (answer : List Bytes → List Arrival) :
    Engine (List Bytes × List Arrival) where
  launch _ _ _ := .ok ([], greeting)
  feed command e := some (e.1 ++ [command], e.2 ++ answer (e.1 ++ [command]))
  clock _ := 0
  next deadline e :=
    match e.2 with
    | [] => (deadline.map fun _ => .deadline, e)
    | arrival :: more => (some arrival, (e.1, more))
  close _ e := (received e.2, (e.1, []))
  kill e := (e.1, [])
  exitCode? e := if e.2.isEmpty then some 0 else none

section

variable {greeting : List Arrival} {answer : List Bytes → List Arrival}
  {e e' : List Bytes × List Arrival} {said : List Bytes} {arrivals : List Arrival}

/-- What arrived and what is left to do are what was to do first and the answers to what
was said since. -/
theorem answering_conserves (dialogue : (answering greeting answer).Dialogue e said arrivals e') :
    received arrivals ++ received e'.2 =
      received e.2 ++ (repliesTo (fun said => received (answer said)) e.1 said).flatten := by
  induction dialogue with
  | still => simp [received, repliesTo]
  | told takes _ ih =>
    cases takes
    rw [ih, Channel.received_append, repliesTo, List.flatten_cons, List.append_assoc]
  | @brought e _ _ deadline arrival _ _ gives _ ih =>
    obtain ⟨past, now⟩ := e
    cases now with
    | nil =>
      cases deadline with
      | none => cases gives
      | some time =>
        cases gives
        exact ih
    | cons first more =>
      cases gives
      simp only [received, List.flatMap_cons, List.append_assoc] at ih ⊢
      rw [ih]

/-- An engine that answers without an end does not end. -/
theorem answering_runs (open_answers : ∀ said, .closed ∉ answer said) (runs : .closed ∉ e.2)
    (dialogue : (answering greeting answer).Dialogue e said arrivals e') :
    .closed ∉ arrivals := by
  induction dialogue with
  | still => exact List.not_mem_nil
  | told takes _ ih =>
    cases takes
    exact ih (by simp [runs, open_answers])
  | @brought e _ _ deadline arrival _ _ gives _ ih =>
    obtain ⟨past, now⟩ := e
    cases now with
    | nil =>
      cases deadline with
      | none => cases gives
      | some time =>
        cases gives
        simpa using ih runs
    | cons first more =>
      cases gives
      obtain ⟨here, later⟩ := not_or.mp (mt List.mem_cons.mpr runs)
      simpa [here] using ih later

/-- **Any answers are those of an engine**, with any timing: single pieces that arrive in
any chunks and with deadlines anywhere in between. -/
theorem answering_answers {prompt : Bytes} {pieces : List Bytes}
    (greets : ∀ piece ∈ pieces, Single prompt piece) (whole : received greeting = pieces.flatten)
    (single : ∀ said, Single prompt (received (answer said)))
    (open_greeting : .closed ∉ greeting) (open_answers : ∀ said, .closed ∉ answer said) :
    (answering greeting answer).Answers prompt pieces (fun said => received (answer said))
      ([], greeting) where
  greets := greets
  single := single
  takes _ _ := rfl
  writes dialogue := by
    have conserves := answering_conserves dialogue
    rw [whole, ← List.flatten_append] at conserves
    exact ⟨_, conserves⟩
  closes dialogue := Channel.endsOnce_of_open (answering_runs open_answers open_greeting dialogue)

end

end SmtSession.Engine
