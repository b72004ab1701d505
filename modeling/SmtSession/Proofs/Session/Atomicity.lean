import SmtSession.Proofs.Session.Conduct

/-!
# Failing operations leave the session intact

**An operation is all or nothing**, with two exceptions. Opening or closing
several scopes goes wire by wire, so the scopes acknowledged before a failure
stay counted; and the end of a session may be an end with an error.

`Operation.MayLeave` is what a failing operation may leave behind,
`Operation.Changes` is what a successful one changes, each as the old state
with the fields named that differ. `perform_atomic` says that these hold over
every transport, from every state, and that an operation refused by a rule or
by the dialect does not use the transport at all.
-/

namespace SmtSession

open Transport (Use)

/-- The use is an exchange of the wire whose reply acknowledges it. -/
def Transport.Use.acknowledges (b : Backend) (wire : String) : Use → Bool
  | .exchange w (.ok reply) => w == wire && !b.reportsError reply
  | _ => false

namespace Session

/-! ## What operations leave -/

/-- What a failing operation may leave behind, when it made these uses. -/
def Operation.MayLeave (b : Backend) (us : List Use) (s s' : State) : Operation → Prop
  | .push _ =>
    let opened := us.countP (Use.acknowledges b Backend.pushWire)
    s' = if opened = 0 then s
      else { s with scopeDepth := s.scopeDepth + opened, lastVerdict := none }
  | .pop _ =>
    let closed := us.countP (Use.acknowledges b Backend.popWire)
    s' = if closed = 0 then s
      else { s with scopeDepth := s.scopeDepth - closed, lastVerdict := none }
  | .exit => s' = s ∨ s' = { s with terminated := true }
  | _ => s' = s

/-- What a successful operation changes. -/
def Operation.Changes (s s' : State) : Operation → Prop
  | .start => s' = { s with started := true }
  | .exit => s' = { s with terminated := true }
  | .assert _ => s' = { s with lastVerdict := none }
  | .checkSat => ∃ v, s' = { s with lastVerdict := some v }
  | .push count => ∃ v, s' = { s with scopeDepth := s.scopeDepth + count, lastVerdict := v }
  | .pop count => ∃ v, s' = { s with scopeDepth := s.scopeDepth - count, lastVerdict := v }
  | .setLogic logic =>
    s' = if s.logicFixed then
        { s with logicFixed := true, logic := some logic.name, scopeDepth := 0, lastVerdict := none }
      else
        { s with logicFixed := true, logic := some logic.name }
  | .setOption key _ =>
    (∃ text, s' = { s with options := s.options.set key.name text }) ∧
      ∀ k, k ≠ key.name → s'.options.get? k = s.options.get? k
  | .setInfo key _ =>
    (∃ text, s' = { s with info := s.info.set key.name text }) ∧
      ∀ k, k ≠ key.name → s'.info.get? k = s.info.get? k
  | _ => s' = s

/-- The operation is refused before anything is sent: it violates a rule, or
its payload has no spelling. -/
def Operation.Refused (b : Backend) (relaxed : Bool) (s : State) (op : Operation) : Prop :=
  (∃ v, op.violation? relaxed s = some v) ∨
    ∃ cause pos, op.refusal? b = some (.refused cause pos)

/-! ## Requests -/

variable {b : Backend} {relaxed : Bool} {s s' : State} {op : Operation} {r : Request}

/-- A request answers with no error of its own. -/
theorem isError_respond (is : op.request? b = some r) (reply : String) :
    (r.respond reply).isError = false := by
  cases op <;> cases is <;> rfl

/-- A request is not checked against the state. -/
theorem violation?_of_request (is : op.request? b = some r) : op.violation? relaxed s = none := by
  cases op with
  | start | exit | push | pop | setLogic | setOption | getOption | setInfo | getInfo => cases is
  | _ => rfl

/-- The payload of a request is what its wire spells. -/
theorem refusal?_of_request (is : op.request? b = some r) :
    op.refusal? b = refusalOf r.wire := by
  cases op with
  | setOption | setInfo => cases is
  | _ => exact congrArg (Option.bind · fun r => refusalOf r.wire) is

/-- What an acknowledged request changes. -/
theorem changes_of_request (is : op.request? b = some r) (reply : String) :
    op.Changes s (r.accept reply s) := by
  cases op with
  | checkSat => cases is; exact ⟨_, rfl⟩
  | start | exit | push | pop | setLogic | setOption | getOption | setInfo | getInfo => cases is
  | _ => cases is; rfl

/-- A request that sends nothing changes nothing. -/
theorem changes_of_unsent (is : op.request? b = some r) (unsent : r.wire = .ok none) :
    op.Changes s s := by
  cases op with
  | assert t =>
    cases is
    cases spelled : b.assertWire t with
    | error e => simp only [spelled] at unsent; cases unsent
    | ok wire => simp only [spelled] at unsent; cases unsent
  | checkSat => cases is; cases unsent
  | start | exit | push | pop | setLogic | setOption | getOption | setInfo | getInfo => cases is
  | _ => rfl

/-- The state itself is what any operation may leave, except one that moves
scopes and had some acknowledged. -/
theorem mayLeave_of_request (is : op.request? b = some r) (us : List Use) :
    op.MayLeave b us s s := by
  cases op with
  | start | exit | push | pop | setLogic | setOption | getOption | setInfo | getInfo => cases is
  | _ => rfl

/-! ## Rows of wires -/

theorem isError_response (failure : Failure) (command : String) (pos : Option Pos) :
    (failure.response b command pos).isError = true := by
  cases failure <;> rfl

/-- A row answers with an error exactly when a wire of it failed. -/
theorem isError_scopesResponse (command : String) (count : Int) (acknowledged : Nat)
    (failure : Option Failure) :
    (scopesResponse b command count acknowledged failure).isError = failure.isSome := by
  cases failure with
  | none => rfl
  | some failure =>
    simp only [scopesResponse, Option.isSome_some]
    split
    · exact isError_response failure command none
    · rfl

/-- A reply without the error mark acknowledges its wire. -/
theorem acknowledges_of_clean {wire reply : String} (clean : b.reportsError reply = false) :
    Use.acknowledges b wire (.exchange wire (.ok reply)) = true := by
  simp [Use.acknowledges, clean]

/-- A wire that failed is not acknowledged. -/
theorem not_acknowledges_of_failed {wire : String} {outcome : Except Fault String}
    {failure : Failure} (read : reading b outcome = .error failure) :
    Use.acknowledges b wire (.exchange wire outcome) = false := by
  cases outcome with
  | error f => rfl
  | ok reply =>
    cases marked : b.reportsError reply with
    | true => simp [Use.acknowledges, marked]
    | false => rw [reading_of_clean marked] at read; cases read

namespace Row

variable {wire : String} {n acknowledged : Nat} {us : List Use} {failure : Option Failure}

/-- The acknowledgements of a row are counted right. -/
theorem countP_acknowledges (row : Row b wire n us acknowledged failure) :
    us.countP (Use.acknowledges b wire) = acknowledged := by
  induction row with
  | done => rfl
  | stopped read => simp [not_acknowledges_of_failed read]
  | went read _ ih => rw [List.countP_cons_of_pos (acknowledges_of_clean read), ih]

/-- A row without a failure was acknowledged to its end. -/
theorem acknowledged_of_done (row : Row b wire n us acknowledged failure)
    (fine : failure = none) : acknowledged = n := by
  induction row with
  | done => rfl
  | stopped read => cases fine
  | went read _ ih => rw [ih fine]

/-- A row for a count that is not negative and without a failure had that many
acknowledgements. -/
theorem count_of_done {count : Int} (row : Row b wire count.toNat us acknowledged failure)
    (fine : failure = none) (natural : ¬ count < 0) : (acknowledged : Int) = count := by
  have all := row.acknowledged_of_done fine
  omega

/-- A row that used nothing failed at nothing. -/
theorem failure_of_unused (row : Row b wire n us acknowledged failure) (unused : us = []) :
    failure = none := by
  cases row with
  | done => rfl
  | stopped read => cases unused
  | went read rest => cases unused

end Row

/-! ## All or nothing -/

/-- What it is for an operation to be all or nothing: the uses it makes, its
answer and the state afterwards fit the state before. -/
structure Operation.Atomic (b : Backend) (relaxed : Bool) (s : State) (op : Operation)
    (us : List Use) (answer : Answer) (s' : State) : Prop where
  /-- A payload with a node out of place has no response and no effect. -/
  misplaced : answer.isOk = false → us = [] ∧ s' = s
  /-- An error leaves the state as it was, but for the two exceptions. -/
  failed : ∀ r, answer = .ok r → r.isError = true → op.MayLeave b us s s'
  /-- A refused operation answers with an error and does not use the
  transport. -/
  refused : op.Refused b relaxed s →
    (∃ r, answer = .ok r ∧ r.isError = true) ∧ us = [] ∧ s' = s
  /-- An error without any use of the transport is a refusal. -/
  unused : ∀ r, answer = .ok r → r.isError = true → us = [] → op.Refused b relaxed s
  /-- A success changes the fields of the operation and no others. -/
  succeeded : ∀ r, answer = .ok r → r.isError = false → op.Changes s s'

variable {us : List Use} {answer : Answer}

/-- An operation whose payload is spelled and which violates no rule is not
refused. -/
theorem not_refused (rules : op.violation? relaxed s = none)
    (spelled : ∀ cause pos, op.refusal? b ≠ some (.refused cause pos)) :
    ¬ op.Refused b relaxed s := by
  rintro (⟨v, violated⟩ | ⟨cause, pos, refused⟩)
  · rw [rules] at violated
    cases violated
  · exact spelled cause pos refused

/-- An operation whose payload has a node out of place is all or nothing. -/
theorem atomic_of_misplaced {part : Dialect.Part} (rules : op.violation? relaxed s = none)
    (misplaced : op.refusal? b = some (.misplaced part)) (answered : answer = .error part) :
    op.Atomic b relaxed s [] answer s := by
  subst answered
  refine ⟨fun _ => ⟨rfl, rfl⟩, fun _ same => (nomatch same), fun refused => ?_,
    fun _ same => (nomatch same), fun _ same => (nomatch same)⟩
  refine absurd refused (not_refused rules fun cause pos h => ?_)
  rw [misplaced] at h
  cases h

/-- What a session tells about itself is never an error. -/
theorem isError_information (b : Backend) (s : State) (key : String) :
    (information b s key).isError = false := by
  unfold information
  split
  case h_2 => cases s.lastVerdict <;> rfl
  case h_6 => cases s.info.get? key <;> rfl
  all_goals rfl

/-- An operation refused with an error is all or nothing. -/
theorem atomic_of_refused (refused : op.Refused b relaxed s) (response : Response)
    (wrong : response.isError = true) (leaves : op.MayLeave b [] s s) :
    op.Atomic b relaxed s [] (.ok response) s := by
  refine ⟨nofun, fun _ _ _ => leaves, fun _ => ⟨⟨_, rfl, wrong⟩, rfl, rfl⟩, fun _ _ _ _ => refused,
    fun _ h fine => ?_⟩
  cases h
  rw [wrong] at fine
  cases fine

/-- An operation that is spelled and violates no rule is all or nothing when
its two outcomes are. -/
theorem atomic_of_clean (rules : op.violation? relaxed s = none) (spelled : op.refusal? b = none)
    (response : Response) (used : response.isError = true → us ≠ [])
    (leaves : response.isError = true → op.MayLeave b us s s')
    (changes : response.isError = false → op.Changes s s') :
    op.Atomic b relaxed s us (.ok response) s' := by
  have clean : ¬ op.Refused b relaxed s :=
    not_refused rules fun cause pos h => by rw [spelled] at h; cases h
  refine ⟨nofun, fun _ h => ?_, fun refused => absurd refused clean, fun _ h wrong unused => ?_,
    fun _ h => ?_⟩
  · cases h
    exact leaves
  · cases h
    exact absurd unused (used wrong)
  · cases h
    exact changes

/-- A success is all or nothing when it changes what it may. -/
theorem atomic_of_success (rules : op.violation? relaxed s = none)
    (spelled : op.refusal? b = none) (response : Response) (fine : response.isError = false)
    (changes : op.Changes s s') : op.Atomic b relaxed s us (.ok response) s' := by
  have never : ¬ response.isError = true := by simp [fine]
  exact atomic_of_clean rules spelled response (fun wrong => absurd wrong never)
    (fun wrong => absurd wrong never) fun _ => changes

/-- A failure that used the transport is all or nothing when it leaves what it may. -/
theorem atomic_of_failure (rules : op.violation? relaxed s = none)
    (spelled : op.refusal? b = none) (response : Response) (wrong : response.isError = true)
    (used : us ≠ []) (leaves : op.MayLeave b us s s') :
    op.Atomic b relaxed s us (.ok response) s' := by
  have never : ¬ response.isError = false := by simp [wrong]
  exact atomic_of_clean rules spelled response (fun _ => used) (fun _ => leaves)
    fun fine => absurd fine never

/-- A request carried out is all or nothing, for any operation that changes
what the request accepts. -/
theorem Carried.atomic (carried : Carried b r s us answer s')
    (rules : op.violation? relaxed s = none) (payload : op.refusal? b = refusalOf r.wire)
    (leaves : ∀ us, op.MayLeave b us s s) (responds : ∀ reply, (r.respond reply).isError = false)
    (accepts : ∀ reply, op.Changes s (r.accept reply s))
    (unsent : r.wire = .ok none → op.Changes s s) : op.Atomic b relaxed s us answer s' := by
  have spelled {wire : Option String} (h : r.wire = .ok wire) : op.refusal? b = none := by
    rw [payload, h]
    rfl
  cases carried with
  | misplaced wire =>
    refine atomic_of_misplaced rules ?_ rfl
    rw [payload, wire]
    rfl
  | @refused cause pos wire =>
    refine atomic_of_refused (.inr ⟨cause, pos, ?_⟩) _ (isError_response _ _ _) (leaves _)
    rw [payload, wire]
    rfl
  | unsent wire => exact atomic_of_success rules (spelled wire) _ (responds "") (unsent wire)
  | failed wire read =>
    exact atomic_of_failure rules (spelled wire) _ (isError_response _ _ _)
      (List.cons_ne_nil _ _) (leaves _)
  | @acknowledged _ reply wire =>
    exact atomic_of_success rules (spelled wire) _ (responds reply) (accepts reply)

/-- A row that moved scopes is all or nothing, for an operation that a whole row
fulfils. -/
theorem atomic_of_moved {wire command : String} {count change : Int} {acknowledged : Nat}
    {failure : Option Failure} (rules : op.violation? relaxed s = none)
    (spelled : op.refusal? b = none) (natural : ¬ count < 0)
    (row : Row b wire count.toNat us acknowledged failure)
    (leaves : op.MayLeave b us s (s.moveScopes change))
    (whole : (acknowledged : Int) = count → op.Changes s (s.moveScopes change)) :
    op.Atomic b relaxed s us (.ok (scopesResponse b command count acknowledged failure))
      (s.moveScopes change) := by
  refine atomic_of_clean rules spelled _ (fun wrong unused => ?_) (fun _ => leaves) fun fine => ?_
  · rw [isError_scopesResponse, row.failure_of_unused unused] at wrong
    cases wrong
  · rw [isError_scopesResponse, Option.isSome_eq_false_iff, Option.isNone_iff_eq_none] at fine
    exact whole (row.count_of_done fine natural)

/-- A row that opened scopes, as `push` asks for them, is all or nothing. -/
theorem atomic_of_pushed {count : Int} {acknowledged : Nat} {failure : Option Failure}
    (check : State.checkPush count = none)
    (row : Row b Backend.pushWire count.toNat us acknowledged failure) :
    Operation.Atomic b relaxed s (.push count) us
      (.ok (scopesResponse b "push" count acknowledged failure)) (s.moveScopes acknowledged) := by
  have natural : ¬ count < 0 := fun negative => by simp [State.checkPush, negative] at check
  refine atomic_of_moved check rfl natural row ?_ fun whole => ?_
  · simp only [Operation.MayLeave, row.countP_acknowledges, State.moveScopes, Int.natCast_eq_zero]
  · exact ⟨_, by rw [State.moveScopes_eq, whole]⟩

/-- A row that closed scopes, as `pop` asks for them, is all or nothing. -/
theorem atomic_of_popped {count : Int} {acknowledged : Nat} {failure : Option Failure}
    (check : s.checkPop count = none)
    (row : Row b Backend.popWire count.toNat us acknowledged failure) :
    Operation.Atomic b relaxed s (.pop count) us
      (.ok (scopesResponse b "pop" count acknowledged failure)) (s.moveScopes (-acknowledged)) := by
  have natural : ¬ count < 0 := fun negative => by simp [State.checkPop, negative] at check
  refine atomic_of_moved check rfl natural row ?_ fun whole => ?_
  · simp only [Operation.MayLeave, row.countP_acknowledges, State.moveScopes, Int.neg_eq_zero,
      Int.natCast_eq_zero, Int.sub_eq_add_neg]
  · exact ⟨_, by rw [State.moveScopes_eq, whole, Int.sub_eq_add_neg]⟩

/-- **Every way an operation can go is all or nothing.** -/
theorem Conduct.atomic (conduct : Conduct b relaxed s op us answer s') :
    op.Atomic b relaxed s us answer s' := by
  cases conduct with
  | @violated _ v check =>
    refine atomic_of_refused (.inl ⟨v, check⟩) _ rfl ?_
    cases op with
    | exit => exact .inl rfl
    | _ => rfl
  | @request _ r _ _ _ is carried =>
    exact carried.atomic (violation?_of_request is) (refusal?_of_request is)
      (mayLeave_of_request is) (isError_respond is) (changes_of_request is) (changes_of_unsent is)
  | started check =>
    refine atomic_of_success ?_ rfl _ rfl rfl
    exact check
  | notStarted check =>
    refine atomic_of_failure ?_ rfl _ rfl (List.cons_ne_nil _ _) rfl
    exact check
  | notEnded => exact atomic_of_failure rfl rfl _ rfl (List.cons_ne_nil _ _) (.inl rfl)
  | endedUnsent => exact atomic_of_failure rfl rfl _ rfl (List.cons_ne_nil _ _) (.inr rfl)
  | endedWithError error =>
    exact atomic_of_failure rfl rfl _ rfl (List.cons_ne_nil _ _) (.inr rfl)
  | ended clean => exact atomic_of_success rfl rfl _ rfl rfl
  | pushed check row => exact atomic_of_pushed check row
  | popped check row => exact atomic_of_popped check row
  | @logicSet logic check free =>
    refine atomic_of_success ?_ rfl _ rfl ?_
    · exact check
    · simp only [Operation.Changes, free, State.withLogic]
      rfl
  | @logicReset logic _ _ _ check fixed carried =>
    refine carried.atomic ?_ rfl (fun _ => rfl) (fun _ => rfl) (fun reply => ?_) nofun
    · exact check
    · simp only [Operation.Changes, fixed, resetRequest, State.withLogic, State.afterReset]
      rfl
  | @optionMisplaced key value part text =>
    refine atomic_of_misplaced ?_ ?_ rfl
    · simp only [Operation.violation?, text]
    · simp only [Operation.refusal?, text, refusalOf]
  | @optionRefused key value cause pos text =>
    refine atomic_of_refused (.inr ⟨cause, pos, ?_⟩) _ rfl rfl
    simp only [Operation.refusal?, text, refusalOf]
  | @optionSet key value text spelled check =>
    refine atomic_of_success ?_ ?_ _ rfl ⟨⟨text, rfl⟩, fun k other => ?_⟩
    · simpa only [Operation.violation?, spelled] using check
    · simp only [Operation.refusal?, spelled, refusalOf]
    · rw [Table.get?_set, if_neg other]
  | @infoMisplaced key value part check text =>
    refine atomic_of_misplaced check ?_ rfl
    simp only [Operation.refusal?, text, refusalOf]
  | @infoRefused key value cause pos check text =>
    refine atomic_of_refused (.inr ⟨cause, pos, ?_⟩) _ rfl rfl
    simp only [Operation.refusal?, text, refusalOf]
  | @infoSet key value text check spelled =>
    refine atomic_of_success ?_ ?_ _ rfl ⟨⟨text, rfl⟩, fun k other => ?_⟩
    · exact check
    · simp only [Operation.refusal?, spelled, refusalOf]
    · rw [State.setInfo, Table.get?_set, if_neg other]
  | @optionAnswered key =>
    refine atomic_of_success rfl rfl _ ?_ rfl
    cases s.options.get? key with
    | some text => rfl
    | none => rfl
  | @infoAnswered key =>
    exact atomic_of_success rfl rfl _ (isError_information b s key) rfl

/-- **Failing operations leave the session intact.** Over every transport and
from every session, an operation is all or nothing: an error leaves the state as
it was, except that scopes acknowledged before a failure stay counted and that
an end may be an end with an error; an operation that violates a rule or has no
spelling makes no use of the transport; a success changes its own fields only.
The uses are those of the watched transport, and watching changes nothing. -/
theorem perform_atomic (setup : Setup σ) (op : Operation) (s : Session σ) :
    op.Atomic setup.backend setup.relaxed s.state (uses setup op s) ((perform setup op).run s).1
        ((perform setup op).run s).2.state ∧
      (perform setup.watched op).run (s.watch []) =
        (((perform setup op).run s).1, ((perform setup op).run s).2.watch (uses setup op s)) := by
  refine ⟨(perform_uses setup op s).atomic, ?_⟩
  rw [perform_watch setup op [] s]
  rfl

end Session

end SmtSession
