import SmtSession.Proofs.Dialect.PrintedValues
import SmtSession.Proofs.Reader.Pointing
import SmtSession.Proofs.Session.Options
import SmtSession.Proofs.Session.Printing

/-!
# Values that are set and asked for

**What was set is answered** until it is set again, whatever a session does in between: an option
as well as a piece of information, unless the session has an answer of its own for the key
(`afterAll_keeps`, `answered_of_kept`).

The answer is the text that the value was kept as. What that text gives where it is read as the
value of the key is told by `Store.Printed`; with it, `values_survive` says how much of a value
comes back that was read from a text, set, and asked for.
-/

namespace SmtSession

/-! ## Commands that are read from a text -/

/-- A command that is read is spelled by tokens of the text. -/
theorem Script.tokens_of_next {source : Source} {n : Nat} {c : Command}
    (read : ((ofSource source).after n).next.1 = .ok (some c)) :
    ∃ taken : List Token, c.Spelled (taken.map Token.lexeme) ∧
      ∀ t ∈ taken, t ∈ source.tokenize.list := by
  obtain ⟨taken, split, spelled⟩ := Reader.Takes.command? _ _ _ (command_of_next read).1
  obtain ⟨-, gone, whole⟩ := (ofSource source).exists_of_after n
  refine ⟨taken, spelled, fun t is => ?_⟩
  have inside : t ∈ (ofSource source).pending := by
    rw [whole, split]
    simp [is]
  exact inside

/-- What is read of a text is spelled by lexemes that stand in it. -/
theorem Script.spelled_of_next {source : Source} {n : Nat} {c : Command}
    (read : ((ofSource source).after n).next.1 = .ok (some c)) :
    ∃ ls, c.Spelled ls ∧ ∀ l ∈ ls, l.Writable := by
  obtain ⟨taken, spelled, inside⟩ := tokens_of_next read
  obtain ⟨_, _, -, placed, -⟩ := Token.exists_placed 0 source.text.toList
  exact ⟨_, spelled, List.forall_mem_map.mpr fun t is => placed.writable t (inside t is)⟩

/-! ## Tables of a session -/

namespace Store

/-- What is kept, by key. -/
def table : Store → State → Table
  | options => State.options
  | info => State.info

/-- What sets a key when a value is handed to it. -/
def setting : Store → Keyword → Setting → Session.Operation
  | options => .setOption
  | info => .setInfo

/-- The operation sets the key, if it succeeds. -/
def Sets (store : Store) (key : String) (op : Session.Operation) : Prop :=
  ∃ k v, op = store.setting k v ∧ k.name = key

/-- The session has an answer of its own to a question for the key. -/
def Answers : Store → String → Prop
  | options, _ => False
  | info, key => key = ":status" ∨ key ∈ OptionRules.predefinedInfo

theorem operation?_set (store : Store) (k : Keyword) (v : Setting) :
    (store.set k v).operation? = some (store.setting k v) := by
  cases store <;> rfl

end Store

namespace Session

variable {store : Store} {relaxed : Bool} {s s' : State} {op : Operation} {answer : Answer}

/-- What is not set stays. -/
theorem Settles.keeps {key : String} (settles : Settles relaxed s op answer s')
    (other : ¬ store.Sets key op) : (store.table s').get? key = (store.table s).get? key := by
  cases settles with
  | logic => cases store <;> rfl
  | nothing _ _ _ _ _ same =>
    subst same
    cases store <;> rfl
  | @option k v =>
    cases store with
    | options =>
      have differs : key ≠ k.name := fun same => other ⟨k, v, rfl, same.symm⟩
      exact (Table.get?_set ..).trans (if_neg differs)
    | info => rfl
  | @info k v =>
    cases store with
    | options => rfl
    | info =>
      have differs : key ≠ k.name := fun same => other ⟨k, v, rfl, same.symm⟩
      exact (Table.get?_set ..).trans (if_neg differs)

/-- What is set with success has the text of its value. -/
theorem Settles.stored {k : Keyword} {v : Setting} {r : Response}
    (settles : Settles relaxed s (store.setting k v) (.ok r) s') (success : r.isOk = true) :
    ∃ text, v.text = .ok text ∧ (store.table s').get? k.name = some text ∧
      (store = .info → State.checkSetInfo k.name = none) := by
  cases store with
  | options =>
    cases settles with
    | option spelled check =>
      exact ⟨_, spelled, (Table.get?_set ..).trans (if_pos rfl), nofun⟩
    | nothing _ _ _ _ idle => exact absurd success (by simp [idle rfl r rfl])
  | info =>
    cases settles with
    | info spelled check =>
      exact ⟨_, spelled, (Table.get?_set ..).trans (if_pos rfl), fun _ => check⟩
    | nothing _ _ _ _ idle => exact absurd success (by simp [idle rfl r rfl])

/-- **A key keeps its text over operations that do not set it.** -/
theorem afterAll_keeps (setup : Setup σ) {key : String} {ops : List Operation}
    (others : ∀ op ∈ ops, ¬ store.Sets key op) (s : Session σ) :
    (store.table (afterAll setup ops s).state).get? key = (store.table s.state).get? key := by
  induction ops generalizing s with
  | nil => rfl
  | cons op ops ih =>
    obtain ⟨other, rest⟩ := List.forall_mem_cons.mp others
    exact (ih rest (after setup s op)).trans ((perform_uses setup op s).settles.keeps other)

/-- Information is answered from the table, but for what the session answers by itself. -/
theorem information_of_get? {b : Backend} {key text : String} (kept : s.info.get? key = some text)
    (free : ¬ Store.info.Answers key) : information b s key = .ofValue text := by
  simp only [Store.Answers, OptionRules.predefinedInfo, List.mem_cons, not_or] at free
  unfold information
  split <;> simp_all

/-- **What is kept is answered.** -/
theorem answered_of_kept (setup : Setup σ) {k : Keyword} {text : String} {s : Session σ}
    (kept : (store.table s.state).get? k.name = some text) (free : ¬ store.Answers k.name) :
    ((execute setup (store.get k)).run s).1 = .ok (.ofValue text) := by
  cases store with
  | options =>
    have answer := (perform_uses setup (.getOption k.name) s).of_getOption
    rw [show s.state.options.get? k.name = some text from kept] at answer
    exact answer
  | info =>
    show Except.ok (information setup.backend s.state k.name) = _
    rw [information_of_get? kept free]

/-! ## Values that come back -/

/-- **A value that was read and set comes back as text** when it is asked for, in every session,
over every transport, and behind any operations that do not set the key again. Where the text is
read as the value of the key, an atom is read that is the same, but for a symbol whose name is no
word; and of a legible expression, what it is desugared to. -/
theorem values_survive {source : Source} {n : Nat} {store : Store} {k : Keyword} {v : Setting}
    (read : ((Script.ofSource source).after n).next.1 = .ok (some (store.set k v)))
    (asked : store = .info → k.name ≠ ":status") {setup : Setup σ} {s : Session σ} {r : Response}
    (set : ((execute setup (store.set k v)).run s).1 = .ok r) (success : r.isOk = true)
    {ops : List Operation} (others : ∀ op ∈ ops, ¬ store.Sets k.name op) :
    ∃ t printed, v.StandsFor t ∧ store.Printed k t printed ∧
      ((execute setup (store.get k)).run
        (afterAll setup ops ((execute setup (store.set k v)).run s).2)).1 =
          .ok (.ofValue printed) := by
  obtain ⟨ls, spelled, writable⟩ := Script.spelled_of_next read
  obtain ⟨shaped, t, vs, stands, value, standing⟩ := Store.exists_of_spelled spelled writable
  have run : (execute setup (store.set k v)).run s =
      (perform setup (store.setting k v)).run s := by
    rw [execute, store.operation?_set]
  rw [run] at set ⊢
  have settles := (perform_uses setup (store.setting k v) s).settles
  rw [set] at settles
  obtain ⟨text, printed, stored, permitted⟩ := settles.stored success
  have free : ¬ store.Answers k.name := by
    cases store with
    | options => exact id
    | info =>
      rintro (status | predefined)
      · exact asked rfl status
      · have check := permitted rfl
        rw [State.checkSetInfo, if_pos predefined] at check
        cases check
  refine ⟨t, text, stands, Store.printed_of_spelled shaped value standing
    (stands.text ▸ printed), answered_of_kept setup ?_ free⟩
  rw [afterAll_keeps setup others]
  exact stored

/-- What can be computed of the first piece of information that a script sets: its key, whether it
is set with success, and the answer to a question for it behind some operations. -/
def setAndAsked (ops : List Operation) : Command → Option (String × Option Bool × Option Response)
  | .setInfo k v =>
    let ran := (execute .agreeable (Store.info.set k v)).run .agreed
    let asked := ((execute .agreeable (Store.info.get k)).run (afterAll .agreeable ops ran.2)).1
    some (k.name, ran.1.toOption.map Response.isOk, asked.toOption)
  | _ => none

theorem ok_of_toOption {x : Except ε α} {a : α} (is : x.toOption = some a) : x = .ok a := by
  cases x with
  | error e => cases is
  | ok b => exact congrArg Except.ok (Option.some.inj is)

theorem exists_of_setAndAsked {script : Script} {ops : List Operation} {key : String}
    {asked : Response}
    (computed : script.next.1.toOption.map (fun c? => c?.bind (setAndAsked ops)) =
      some (some (key, some true, some asked))) :
    ∃ k v r, script.next.1 = .ok (some (Store.info.set k v)) ∧ k.name = key ∧
      ((execute .agreeable (Store.info.set k v)).run .agreed).1 = .ok r ∧ r.isOk = true ∧
      ((execute .agreeable (Store.info.get k)).run (afterAll .agreeable ops
        ((execute .agreeable (Store.info.set k v)).run .agreed).2)).1 = .ok asked := by
  cases read : script.next.1 with
  | error e =>
    rw [read] at computed
    cases computed
  | ok c? =>
    rw [read] at computed
    have computed := Option.some.inj computed
    obtain ⟨c, rfl, found⟩ := Option.bind_eq_some_iff.mp computed
    cases c with
    | setInfo k v =>
      obtain ⟨name, rest⟩ := Prod.mk.inj (Option.some.inj found)
      obtain ⟨set, answered⟩ := Prod.mk.inj rest
      obtain ⟨r, set, success⟩ := Option.map_eq_some_iff.mp set
      exact ⟨k, v, r, rfl, name, ok_of_toOption set, success, ok_of_toOption answered⟩
    | _ => cases found

/-- A let-term with a name between bars that need not be there, asked for behind a check and
another piece of information. -/
theorem values_survive_let :
    let source : Source := ⟨"(set-info :note (let ((y 1)) (and y |z|)))", none⟩
    let ops : List Operation := [.checkSat, .setInfo ⟨":other", none⟩ .absent]
    ∃ k v r, ((Script.ofSource source).after 0).next.1 = .ok (some (Store.info.set k v)) ∧
      k.name ≠ ":status" ∧
      ((execute .agreeable (Store.info.set k v)).run .agreed).1 = .ok r ∧ r.isOk = true ∧
      (∀ op ∈ ops, ¬ Store.info.Sets k.name op) ∧
      ∃ t, v.StandsFor t ∧ Store.info.Printed k t "(let ((y 1)) (and y z))" ∧
        ((execute .agreeable (Store.info.get k)).run
          (afterAll .agreeable ops ((execute .agreeable (Store.info.set k v)).run .agreed).2)).1 =
            .ok (.ofValue "(let ((y 1)) (and y z))") := by
  intro source ops
  have computed : ((Script.ofSource source).after 0).next.1.toOption.map
      (fun c? => c?.bind (setAndAsked ops)) =
        some (some (":note", some true, some (.ofValue "(let ((y 1)) (and y z))"))) := by
    decide +kernel
  obtain ⟨k, v, r, read, name, set, success, asked⟩ := exists_of_setAndAsked computed
  have differs : k.name ≠ ":status" := by simp [name]
  have others : ∀ op ∈ ops, ¬ Store.info.Sets k.name op := by
    simp [ops, Store.Sets, Store.setting, name]
  obtain ⟨t, printed, stands, prints, answer⟩ :=
    values_survive read (fun _ => differs) set success others
  have same : printed = "(let ((y 1)) (and y z))" := by
    rw [asked] at answer
    simpa [Response.ofValue] using answer.symm
  subst same
  exact ⟨k, v, r, read, differs, set, success, others, t, stands, prints, asked⟩

/-- **The bars of a symbol are lost**: with a space in its name, it is not read back. -/
theorem not_read_back_without_bars :
    ¬ ∀ (source : Source) (n : Nat) (store : Store) (k : Keyword) (v : Setting),
      ((Script.ofSource source).after n).next.1 = .ok (some (store.set k v)) →
      (store = .info → k.name ≠ ":status") →
      ∀ (setup : Setup Transport.Played) (s : Session Transport.Played) (r : Response),
        ((execute setup (store.set k v)).run s).1 = .ok r → r.isOk = true →
        ∃ t printed, v.StandsFor t ∧ store.Reads k printed t ∧
          ((execute setup (store.get k)).run ((execute setup (store.set k v)).run s).2).1 =
            .ok (.ofValue printed) := by
  intro survives
  let source : Source := ⟨"(set-info :k |a b|)\n(get-info :k)", none⟩
  have computed : ((Script.ofSource source).after 0).next.1.toOption.map
      (fun c? => c?.bind (setAndAsked [])) =
        some (some (":k", some true, some (.ofValue "a b"))) := by
    decide +kernel
  obtain ⟨k, v, r, read, name, set, success, asked⟩ := exists_of_setAndAsked computed
  obtain ⟨t, printed, -, reads, answer⟩ :=
    survives source 0 .info k v read (by simp [name]) .agreeable .agreed r set success
  have same : printed = "a b" := by
    have asked := asked.symm.trans answer
    simpa [Response.ofValue] using asked.symm
  obtain ⟨c, back, -⟩ := reads none
  rw [name, same] at back
  have refused : (readScript ⟨Store.info.script ":k" "a b", none⟩).toOption.isNone = true := by
    decide +kernel
  rw [back] at refused
  cases refused

end Session

end SmtSession
