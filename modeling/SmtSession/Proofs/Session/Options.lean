import SmtSession.Proofs.Session.Lifecycle
import SmtSession.Proofs.Session.Settings

/-!
# The options of a session

**An option has the text it was last set to**, by the bundle of the session or by an
operation that succeeded: `options_kept`. The options that every session starts from stay
there, those with a truth value have one, and those that the logic fixes stay as they are
once there is a logic, also when the logic is set again.

The table of a session is the table that it started from, with all that was set since set
one after the other (`options_afterAll`). Which option a table of that kind gives is read
off the list of what was set.
-/

namespace SmtSession

open Transport (Use)

/-! ## Tables that were set -/

namespace Table

/-- The last entry for the key is one with that text. -/
def SetLast (key text : String) (entries : List (String × String)) : Prop :=
  ∃ before since, entries = before ++ (key, text) :: since ∧ ∀ e ∈ since, e.1 ≠ key

variable {t : Table} {entries : List (String × String)} {key text : String}

theorem setAll_append (t : Table) (first next : List (String × String)) :
    t.setAll (first ++ next) = (t.setAll first).setAll next :=
  List.foldl_append

/-- A key that is not set keeps its text. -/
theorem get?_setAll_of_others (others : ∀ e ∈ entries, e.1 ≠ key) :
    (t.setAll entries).get? key = t.get? key := by
  induction entries generalizing t with
  | nil => rfl
  | cons e entries ih =>
    obtain ⟨other, rest⟩ := List.forall_mem_cons.mp others
    rw [setAll, List.foldl_cons]
    refine (ih rest).trans ?_
    rw [get?_set, if_neg other.symm]

/-- A key has the text that it was last set to. -/
theorem get?_setAll_of_last (last : SetLast key text entries) :
    (t.setAll entries).get? key = some text := by
  obtain ⟨before, since, rfl, others⟩ := last
  rw [setAll_append, setAll, List.foldl_cons]
  refine (get?_setAll_of_others others).trans ?_
  rw [get?_set, if_pos rfl]

end Table

/-! ## Tables that keep to the rules -/

/-- What it is for a table of options to keep to the rules: every option that sessions
start from has a text, and every truth value is one. -/
structure OptionRules.Ruled (options : Table) : Prop where
  present : ∀ e ∈ defaults.entries, ∃ text, options.get? e.1 = some text
  boolean : ∀ key ∈ booleans, options.get? key = some "true" ∨ options.get? key = some "false"

open OptionRules (Ruled)

namespace State

variable {s : State} {key text : String}

/-- What passes the check for a truth value is one. -/
theorem boolean_of_checkSetOption (check : s.checkSetOption key text = none)
    (is : key ∈ OptionRules.booleans) : text = "true" ∨ text = "false" := by
  unfold checkSetOption at check
  split at check
  · cases check
  · next truth =>
    by_contra other
    exact truth ⟨is, fun same => other (.inl same), fun same => other (.inr same)⟩

/-- Every option that passes its check keeps what is said of the table. -/
def SettingKeeps (P : Table → Prop) : Prop :=
  ∀ (s : State) (key text : String), P s.options → s.checkSetOption key text = none →
    P (s.options.set key text)

/-- An option that passes the check keeps the table to the rules. -/
theorem ruled_set : SettingKeeps Ruled := by
  intro s key text ruled check
  refine ⟨fun e is => ?_, fun k is => ?_⟩
  · rw [Table.get?_set]
    split
    · exact ⟨text, rfl⟩
    · exact ruled.present e is
  · rw [Table.get?_set]
    split
    · next same =>
      subst same
      obtain rfl | rfl := boolean_of_checkSetOption check is
      · exact .inl rfl
      · exact .inr rfl
    · exact ruled.boolean k is

end State

namespace Session

/-! ## New sessions -/

/-- The options of a bundle are set one after the other, and keep what checked options keep. -/
theorem options_of_setOptions {P : Table → Prop} (kept : State.SettingKeeps P) {s s' : State}
    {chosen : List (String × String)} (holds : P s.options)
    (set : Bundle.setOptions s chosen = .ok s') :
    s'.options = s.options.setAll chosen ∧ P s'.options := by
  induction chosen generalizing s with
  | nil =>
    cases set
    exact ⟨rfl, holds⟩
  | cons option chosen ih =>
    obtain ⟨key, text⟩ := option
    unfold Bundle.setOptions State.setOption at set
    cases check : s.checkSetOption key text with
    | some v => simp [check] at set
    | none =>
      simp only [check] at set
      exact ih (kept s key text holds check) set

/-- The option that an operation set, if it is one that succeeded: its key and its text. -/
def optionSet? : Operation × Answer → Option (String × String)
  | (.setOption key value, .ok r) =>
    if r.isOk then value.text.toOption.map fun text => (key.name, text) else none
  | _ => none

namespace Settles

variable {relaxed : Bool} {s s' : State} {op : Operation} {answer : Answer}

/-- An operation sets the option that it set. -/
theorem options (settles : Settles relaxed s op answer s') :
    s'.options = s.options.setAll (optionSet? (op, answer)).toList := by
  cases settles with
  | option spelled check => simp [optionSet?, spelled, Except.toOption, Response.isOk,
      Response.success, Table.setAll]
  | logic | info => rfl
  | nothing _ _ _ _ idle same =>
    subst same
    have unset : optionSet? (op, answer) = none := by
      cases op with
      | setOption key value =>
        cases answer with
        | error part => rfl
        | ok r => simp [optionSet?, idle rfl r rfl]
      | _ => rfl
    rw [unset]
    rfl

/-- An operation keeps what checked options keep. -/
theorem keepsTable {P : Table → Prop} (settles : Settles relaxed s op answer s')
    (kept : State.SettingKeeps P) (holds : P s.options) : P s'.options := by
  cases settles with
  | option spelled check => exact kept s _ _ holds check
  | logic | info => exact holds
  | nothing _ _ _ _ _ same =>
    subst same
    exact holds

theorem ruled (settles : Settles relaxed s op answer s') (ruled : Ruled s.options) :
    Ruled s'.options :=
  settles.keepsTable State.ruled_set ruled

end Settles

/-! ## All reachable states -/

/-- The options that operations set, in order. -/
def optionsSet (setup : Setup σ) (ops : List Operation) (s : Session σ) : List (String × String) :=
  (answers setup ops s).filterMap optionSet?

/-- **A run sets the options that its operations set**, and no others. -/
theorem options_afterAll (setup : Setup σ) (ops : List Operation) (s : Session σ) :
    (afterAll setup ops s).state.options = s.state.options.setAll (optionsSet setup ops s) := by
  induction ops generalizing s with
  | nil => rfl
  | cons op ops ih =>
    have step := (perform_uses setup op s).settles.options
    show (afterAll setup ops (after setup s op)).state.options = _
    rw [ih, after, step, ← Table.setAll_append, optionsSet, optionsSet, answers,
      List.filterMap_cons, after]
    cases optionSet? (op, ((perform setup op).run s).1) with
    | none => rfl
    | some entry => rfl

/-- An option is answered with the text that the session has for it. -/
theorem Conduct.of_getOption {b : Backend} {relaxed : Bool} {s s' : State} {key : String}
    {us : List Use} {answer : Answer}
    (conduct : Conduct b relaxed s (.getOption key) us answer s') :
    answer = .ok (match s.options.get? key with
      | some text => .ofValue text
      | none => .unsupported) := by
  cases conduct with
  | violated check => cases check
  | request is => cases is
  | optionAnswered => rfl

end Session

end SmtSession
