import SmtSession.Channel

/-!
# A stream cut behind each prompt

**The pieces of a stream** are what it is cut into behind each occurrence of the
prompt, from the left and without overlaps. `Pieces` says so of a whole stream, with
occurrences described by position and not by a way to look for them; a stream has
one such cut and no other (`Pieces.unique`, `exists_pieces`).

The channel sees a stream bit by bit. What makes this harmless is that the first
occurrence stays the first when more bytes come: `FirstAt.append`. So each reply is the
next piece of the whole stream (`listen_settles`), and a run of listening hands out
the pieces in order, with nothing lost in between: `Listened.conserves` and
`Listened.replies_prefix`.
-/

namespace SmtSession.Channel

variable {prompt stream front rest pending pending' : Bytes}

/-! ## Occurrences of the prompt -/

/-- The first prompt in the stream stands behind `front`. -/
structure FirstAt (prompt stream front : Bytes) : Prop where
  here : front ++ prompt <+: stream
  first : ∀ shorter, shorter ++ prompt <+: stream → front.length ≤ shorter.length

/-- There is no prompt in the stream. -/
def Promptless (prompt stream : Bytes) : Prop :=
  ∀ front, ¬ front ++ prompt <+: stream

namespace FirstAt

/-- **The first prompt stays the first** when the stream goes on. -/
theorem append (at? : FirstAt prompt stream front) (more : Bytes) :
    FirstAt prompt (stream ++ more) front := by
  refine ⟨at?.here.trans (List.prefix_append stream more), ?_⟩
  intro shorter there
  by_cases less : shorter.length < front.length
  · -- An earlier prompt would end before this one, so it would not need what is new.
    have ends := at?.here.length_le
    simp only [List.length_append] at ends
    have fits : (shorter ++ prompt).length ≤ stream.length := by
      rw [List.length_append]
      omega
    exact at?.first shorter (List.prefix_of_prefix_length_le there (List.prefix_append _ _) fits)
  · exact Nat.le_of_not_lt less

theorem unique {front' : Bytes} (at? : FirstAt prompt stream front)
    (at' : FirstAt prompt stream front') : front = front' := by
  have length : front.length = front'.length :=
    Nat.le_antisymm (at?.first front' at'.here) (at'.first front at?.here)
  have one := (List.prefix_append front prompt).trans at?.here
  have other := (List.prefix_append front' prompt).trans at'.here
  exact (List.prefix_of_prefix_length_le one other (Nat.le_of_eq length)).eq_of_length length

/-- A byte in front of a stream that does not begin with the prompt moves it back by one. -/
theorem cons {b : UInt8} (at? : FirstAt prompt stream front) (begins : ¬ prompt <+: b :: stream) :
    FirstAt prompt (b :: stream) (b :: front) := by
  refine ⟨(List.prefix_cons_inj b).mpr at?.here, ?_⟩
  intro shorter there
  cases shorter with
  | nil => exact absurd there begins
  | cons c shorter =>
    obtain ⟨-, there⟩ := List.cons_prefix_cons.mp there
    exact Nat.succ_le_succ (at?.first shorter there)

end FirstAt

theorem Promptless.cons {b : UInt8} (promptless : Promptless prompt stream)
    (begins : ¬ prompt <+: b :: stream) : Promptless prompt (b :: stream) := by
  intro front there
  cases front with
  | nil => exact begins there
  | cons c front =>
    obtain ⟨-, there⟩ := List.cons_prefix_cons.mp there
    exact promptless front there

/-- No prompt is in what begins a stream without one. -/
theorem Promptless.of_append {more : Bytes} (promptless : Promptless prompt (stream ++ more)) :
    Promptless prompt stream :=
  fun front there => promptless front (there.trans (List.prefix_append stream more))

/-- What is cut off ends behind the first prompt. -/
theorem cut?_eq_some {reply : Bytes} (cut : cut? prompt stream = some (reply, rest)) :
    ∃ front, reply = front ++ prompt ∧ stream = reply ++ rest ∧ FirstAt prompt stream front := by
  induction stream generalizing reply with
  | nil =>
    unfold cut? at cut
    split at cut
    · next empty =>
      cases cut
      have nothing : prompt = [] := by simpa using empty
      subst nothing
      exact ⟨[], rfl, rfl, List.prefix_rfl, fun _ _ => Nat.zero_le _⟩
    · cases cut
  | cons b bs ih =>
    unfold cut? at cut
    split at cut
    · next begins =>
      cases cut
      have here := List.isPrefixOf_iff_prefix.mp begins
      obtain ⟨behind, whole⟩ := here
      refine ⟨[], rfl, ?_, ⟨behind, whole⟩, fun _ _ => Nat.zero_le _⟩
      rw [← whole, List.drop_left]
    · next begins =>
      obtain ⟨⟨reply', rest'⟩, found, same⟩ := Option.map_eq_some_iff.mp cut
      cases same
      obtain ⟨front, rfl, whole, at?⟩ := ih found
      have not_here : ¬ prompt <+: b :: bs := fun is => begins (List.isPrefixOf_iff_prefix.mpr is)
      exact ⟨b :: front, rfl, by rw [List.cons_append, ← whole], at?.cons not_here⟩

/-- Nothing is cut off a stream without a prompt. -/
theorem cut?_eq_none (cut : cut? prompt stream = none) : Promptless prompt stream := by
  induction stream with
  | nil =>
    unfold cut? at cut
    split at cut
    · cases cut
    · next nonempty =>
      intro front there
      have empty := List.append_eq_nil_iff.mp (List.prefix_nil.mp there)
      exact nonempty (by simp [empty.2])
  | cons b bs ih =>
    unfold cut? at cut
    split at cut
    · cases cut
    · next begins =>
      have not_here : ¬ prompt <+: b :: bs := fun is => begins (List.isPrefixOf_iff_prefix.mpr is)
      exact (ih (Option.map_eq_none_iff.mp cut)).cons not_here

theorem cut?_of_promptless (promptless : Promptless prompt stream) : cut? prompt stream = none := by
  cases cut : cut? prompt stream with
  | none => rfl
  | some found =>
    obtain ⟨reply, rest⟩ := found
    obtain ⟨front, -, -, first⟩ := cut?_eq_some cut
    exact absurd first.here (promptless front)

/-! ## Pieces -/

/-- **The pieces of a stream**, each up to the next prompt with the prompt included, and
what is left behind the last one. -/
inductive Pieces (prompt : Bytes) : Bytes → List Bytes → Bytes → Prop
  | last {stream : Bytes} (promptless : Promptless prompt stream) : Pieces prompt stream [] stream
  | piece {front rest left : Bytes} {pieces : List Bytes}
      (first : FirstAt prompt (front ++ prompt ++ rest) front)
      (more : Pieces prompt rest pieces left) :
      Pieces prompt (front ++ prompt ++ rest) ((front ++ prompt) :: pieces) left

namespace Pieces

variable {left : Bytes} {pieces : List Bytes}

theorem of_promptless (cuts : Pieces prompt stream pieces left)
    (promptless : Promptless prompt stream) : pieces = [] ∧ left = stream := by
  cases cuts with
  | last => exact ⟨rfl, rfl⟩
  | piece first => exact absurd first.here (promptless _)

/-- The first piece ends behind the first prompt. -/
theorem of_firstAt (cuts : Pieces prompt (front ++ prompt ++ rest) pieces left)
    (at? : FirstAt prompt (front ++ prompt ++ rest) front) :
    ∃ more, pieces = (front ++ prompt) :: more ∧ Pieces prompt rest more left := by
  generalize whole : front ++ prompt ++ rest = stream at cuts at?
  cases cuts with
  | last promptless => exact absurd at?.here (promptless front)
  | @piece front' rest' _ pieces first more =>
    have same := at?.unique first
    subst same
    have same := List.append_cancel_left whole
    subst same
    exact ⟨pieces, rfl, more⟩

/-- A stream is cut in one way. -/
theorem unique {left' : Bytes} {pieces' : List Bytes} (cuts : Pieces prompt stream pieces left)
    (cuts' : Pieces prompt stream pieces' left') : pieces = pieces' ∧ left = left' := by
  induction cuts generalizing pieces' with
  | last promptless =>
    obtain ⟨rfl, rfl⟩ := cuts'.of_promptless promptless
    exact ⟨rfl, rfl⟩
  | piece first more ih =>
    obtain ⟨pieces', rfl, more'⟩ := cuts'.of_firstAt first
    obtain ⟨rfl, rfl⟩ := ih more'
    exact ⟨rfl, rfl⟩

/-- The pieces and what is left are the stream. -/
theorem flatten_append (cuts : Pieces prompt stream pieces left) :
    pieces.flatten ++ left = stream := by
  induction cuts with
  | last => rfl
  | piece first more ih => rw [List.flatten_cons, List.append_assoc, ih]

end Pieces

/-- Every stream has its pieces, for a prompt that is not empty. -/
theorem exists_pieces (nonempty : prompt ≠ []) (stream : Bytes) :
    ∃ pieces left, Pieces prompt stream pieces left := by
  induction length : stream.length using Nat.strongRecOn generalizing stream with
  | ind n ih =>
    cases cut : cut? prompt stream with
    | none => exact ⟨[], stream, .last (cut?_eq_none cut)⟩
    | some found =>
      obtain ⟨reply, rest⟩ := found
      obtain ⟨front, rfl, rfl, first⟩ := cut?_eq_some cut
      have positive := List.length_pos_iff.mpr nonempty
      simp only [List.length_append] at length
      obtain ⟨pieces, left, more⟩ := ih rest.length (by omega) rest rfl
      exact ⟨_, left, .piece first more⟩

/-- The bytes are one piece: they end behind the first prompt in them. -/
def Single (prompt piece : Bytes) : Prop :=
  ∃ front, piece = front ++ prompt ∧ FirstAt prompt piece front

theorem Single.of_cut {piece : Bytes} (cut : cut? prompt piece = some (piece, [])) :
    Single prompt piece := by
  obtain ⟨front, ends, -, first⟩ := cut?_eq_some cut
  exact ⟨front, ends, first⟩

/-- **What begins a row of single pieces is cut into the first of them.** -/
theorem Pieces.prefix_of_singles {row pieces : List Bytes} {left : Bytes} (nonempty : prompt ≠ [])
    (cuts : Pieces prompt stream pieces left) (singles : ∀ piece ∈ row, Single prompt piece)
    (begins : stream <+: row.flatten) : pieces <+: row := by
  induction cuts generalizing row with
  | last => exact List.nil_prefix
  | @piece front rest left pieces first more ih =>
    obtain ⟨behind, whole⟩ := begins
    cases row with
    | nil =>
      have nothing := (List.append_eq_nil_iff.mp whole).1
      exact absurd (List.append_eq_nil_iff.mp (List.append_eq_nil_iff.mp nothing).1).2 nonempty
    | cons piece row =>
      obtain ⟨⟨front', rfl, first'⟩, others⟩ := List.forall_mem_cons.mp singles
      -- Both end behind the first prompt of the row.
      have one := first.append behind
      have other := first'.append row.flatten
      rw [whole, List.flatten_cons] at one
      obtain rfl := one.unique other
      rw [List.flatten_cons, List.append_assoc, List.append_cancel_left_eq] at whole
      exact (List.prefix_cons_inj _).mpr (ih others ⟨behind, whole⟩)

/-! ## Listening once -/

/-- The bytes of an arrival. -/
def Arrival.bytes : Arrival → Bytes
  | .chunk bytes => bytes
  | .deadline => []
  | .closed => []

/-- The bytes of some arrivals, one behind the other. -/
def received (arrivals : List Arrival) : Bytes :=
  arrivals.flatMap Arrival.bytes

theorem received_append (first second : List Arrival) :
    received (first ++ second) = received first ++ received second :=
  List.flatMap_append

/-- The bytes that are given away when listening ends: a reply, and at the end of the
stream what was left. What was there at a deadline is shown and kept. -/
def Heard.handed : Heard → Bytes
  | .reply bytes => bytes
  | .timedOut _ => []
  | .ended left => left

/-- How listening ends with the bytes there are: what is heard, and what is kept. -/
inductive Settles (prompt : Bytes) : Bytes → Heard → Bytes → Prop
  | reply {front rest : Bytes} (first : FirstAt prompt (front ++ prompt ++ rest) front) :
      Settles prompt (front ++ prompt ++ rest) (.reply (front ++ prompt)) rest
  | timedOut {stream : Bytes} (promptless : Promptless prompt stream) :
      Settles prompt stream (.timedOut stream) stream
  | ended {stream : Bytes} (promptless : Promptless prompt stream) :
      Settles prompt stream (.ended stream) []

theorem Settles.conserves {stream : Bytes} {heard : Heard}
    (settles : Settles prompt stream heard rest) : heard.handed ++ rest = stream := by
  cases settles with
  | reply => rfl
  | timedOut => rfl
  | ended => exact List.append_nil _

theorem Settles.of_cut {reply : Bytes} (cut : cut? prompt stream = some (reply, rest)) :
    Settles prompt stream (.reply reply) rest := by
  obtain ⟨front, rfl, rfl, first⟩ := cut?_eq_some cut
  exact .reply first

variable {arrivals later : List Arrival} {heard : Heard} {heards : List Heard}

/-- **Listening ends with what was pending and what arrived**, however it arrived. -/
theorem listen_settles (ends : listen prompt pending arrivals = some (heard, pending', later)) :
    ∃ used, arrivals = used ++ later ∧ Settles prompt (pending ++ received used) heard pending' ∧
      ∀ left, heard = .ended left → .closed ∈ used := by
  fun_induction listen prompt pending arrivals with
  | case1 pending arrivals reply rest cut =>
    cases ends
    refine ⟨[], rfl, ?_, nofun⟩
    simpa [received] using Settles.of_cut cut
  | case2 => cases ends
  | case3 pending bytes more cut ih =>
    obtain ⟨used, rfl, settles, closed⟩ := ih ends
    refine ⟨.chunk bytes :: used, rfl, ?_, fun left is => List.mem_cons_of_mem _ (closed left is)⟩
    simpa [received, Arrival.bytes] using settles
  | case4 pending more cut =>
    cases ends
    refine ⟨[.deadline], rfl, ?_, nofun⟩
    simpa [received, Arrival.bytes] using Settles.timedOut (cut?_eq_none cut)
  | case5 pending more cut =>
    cases ends
    refine ⟨[.closed], rfl, ?_, fun _ _ => List.mem_singleton_self _⟩
    simpa [received, Arrival.bytes] using Settles.ended (cut?_eq_none cut)

/-- What listening does when nothing arrives. -/
theorem listen_nil (prompt pending : Bytes) : listen prompt pending [] =
    (cut? prompt pending).map fun (reply, rest) => (.reply reply, rest, []) := by
  unfold listen
  cases cut? prompt pending with
  | none => rfl
  | some found => rfl

theorem listen_eq_none (promptless : Promptless prompt pending) :
    listen prompt pending [] = none := by
  rw [listen_nil, cut?_of_promptless promptless, Option.map_none]

/-- When nothing can be cut off yet, the next arrival decides. -/
theorem listen_cons (uncut : listen prompt pending [] = none) (arrival : Arrival)
    (more : List Arrival) : listen prompt pending (arrival :: more) =
      match arrival with
      | .chunk bytes => listen prompt (pending ++ bytes) more
      | .deadline => some (.timedOut pending, pending, more)
      | .closed => some (.ended pending, [], more) := by
  rw [listen_nil, Option.map_eq_none_iff] at uncut
  rw [listen.eq_def prompt pending, uncut]
  cases arrival with
  | chunk | deadline | closed => rfl

/-! ## Listening again and again -/

/-- Listening some times, from the bytes pending first to those pending last. Each time
takes the arrivals that it needs. -/
inductive Listened (prompt : Bytes) : Bytes → List Arrival → List Heard → Bytes → Prop
  | nil (pending : Bytes) : Listened prompt pending [] [] pending
  | cons {pending middle pending' : Bytes} {here later : List Arrival} {heard : Heard}
      {heards : List Heard} (settles : Settles prompt (pending ++ received here) heard middle)
      (closed : ∀ left, heard = .ended left → .closed ∈ here)
      (rest : Listened prompt middle later heards pending') :
      Listened prompt pending (here ++ later) (heard :: heards) pending'

/-- The replies among what was heard. -/
def replies (heards : List Heard) : List Bytes :=
  heards.filterMap fun
    | .reply bytes => some bytes
    | _ => none

/-- Nothing is received behind the end of the stream. -/
def EndsOnce (arrivals : List Arrival) : Prop :=
  ∀ front behind, arrivals = front ++ .closed :: behind → received behind = []

/-- What comes behind the arrivals that closed the stream is nothing. -/
theorem EndsOnce.of_closed {here behind : List Arrival} (ends : EndsOnce (here ++ behind))
    (closed : .closed ∈ here) : received behind = [] := by
  obtain ⟨front, back, rfl⟩ := List.append_of_mem closed
  have nothing := ends front (back ++ behind) (by simp)
  rw [received_append] at nothing
  exact (List.append_eq_nil_iff.mp nothing).2

theorem EndsOnce.of_append {here behind : List Arrival} (ends : EndsOnce (here ++ behind)) :
    EndsOnce behind := by
  intro front back whole
  exact ends (here ++ front) back (by rw [whole, List.append_assoc])

theorem EndsOnce.cons {arrival : Arrival} (ends : EndsOnce arrivals) (runs : arrival ≠ .closed) :
    EndsOnce (arrival :: arrivals) := by
  intro front behind whole
  cases front with
  | nil => exact absurd (List.head_eq_of_cons_eq whole) runs
  | cons first front => exact ends front behind (List.tail_eq_of_cons_eq whole)

/-- Where no bytes come, none come behind the end. -/
theorem endsOnce_of_silent (silent : received arrivals = []) : EndsOnce arrivals := by
  intro front behind whole
  rw [whole, received_append, List.append_eq_nil_iff] at silent
  exact silent.2

/-- A stream that does not end has no end to come behind. -/
theorem endsOnce_of_open (runs : .closed ∉ arrivals) : EndsOnce arrivals := by
  intro front behind whole
  rw [whole] at runs
  exact absurd (List.mem_append_right front List.mem_cons_self) runs

namespace Listened

theorem append {middle : Bytes} {heards' : List Heard}
    (run : Listened prompt pending arrivals heards middle)
    (run' : Listened prompt middle later heards' pending') :
    Listened prompt pending (arrivals ++ later) (heards ++ heards') pending' := by
  induction run with
  | nil => exact run'
  | cons settles closed _ ih =>
    rw [List.append_assoc]
    exact .cons settles closed (ih run')

/-- Listening that takes all arrivals is listening once. -/
theorem once (ends : listen prompt pending arrivals = some (heard, pending', [])) :
    Listened prompt pending arrivals [heard] pending' := by
  obtain ⟨used, whole, settles, closed⟩ := listen_settles ends
  rw [List.append_nil] at whole
  subst whole
  have run := Listened.cons settles closed (.nil pending')
  rwa [List.append_nil] at run

/-- **No byte is lost and none is given twice.** -/
theorem conserves (run : Listened prompt pending arrivals heards pending') :
    heards.flatMap Heard.handed ++ pending' = pending ++ received arrivals := by
  induction run with
  | nil pending => simp [received]
  | cons settles closed rest ih =>
    rw [List.flatMap_cons, List.append_assoc, ih, ← List.append_assoc, settles.conserves,
      received_append, List.append_assoc]

/-- **The replies are the first pieces of the stream**, in order, whatever comes later. -/
theorem replies_prefix {left : Bytes} {pieces : List Bytes} (nonempty : prompt ≠ [])
    (run : Listened prompt pending arrivals heards pending') (ends : EndsOnce (arrivals ++ later))
    (cuts : Pieces prompt (pending ++ received (arrivals ++ later)) pieces left) :
    replies heards <+: pieces := by
  induction run generalizing pieces left with
  | nil => exact List.nil_prefix
  | @cons pending middle pending' here more heard heards settles closed rest ih =>
    rw [List.append_assoc] at ends cuts
    have ends' := ends.of_append
    rw [received_append, ← List.append_assoc] at cuts
    generalize whole : pending ++ received here = stream at settles cuts
    cases settles with
    | reply first =>
      rw [List.append_assoc _ middle] at cuts
      have first' := first.append (received (more ++ later))
      rw [List.append_assoc _ middle] at first'
      obtain ⟨pieces, rfl, rest_cuts⟩ := cuts.of_firstAt first'
      exact (List.prefix_cons_inj _).mpr (ih ends' rest_cuts)
    | timedOut => exact ih ends' cuts
    | ended promptless =>
      -- Nothing comes any more, so nothing can be a reply any more.
      have nothing := ends.of_closed (closed _ rfl)
      rw [nothing, List.append_nil] at cuts
      obtain ⟨rfl, -⟩ := cuts.of_promptless promptless
      have no_prompt : Promptless prompt [] := by
        intro front there
        exact nonempty (List.append_eq_nil_iff.mp (List.prefix_nil.mp there)).2
      have last : Pieces prompt ([] ++ received (more ++ later)) [] [] := by
        rw [nothing]
        exact .last no_prompt
      exact ih ends' last

/-- **The end of the stream gives what was not given yet**: what is left of the stream
behind its last piece. Nothing is left for later. -/
theorem pieces_of_ended {left : Bytes} {before after : List Heard}
    (run : Listened prompt pending arrivals (before ++ .ended left :: after) pending')
    (ends : EndsOnce arrivals) (first : ∀ b, .ended b ∉ before) :
    Pieces prompt (pending ++ received arrivals) (replies before) left ∧
      after.flatMap Heard.handed ++ pending' = [] := by
  induction before generalizing pending arrivals with
  | nil =>
    cases run with
    | @cons _ middle _ here more _ _ settles closed rest =>
      have nothing := ends.of_closed (closed _ rfl)
      have conserved := rest.conserves
      generalize whole : pending ++ received here = stream at settles
      cases settles with
      | ended promptless =>
        rw [received_append, nothing, List.append_nil, whole]
        rw [nothing, List.append_nil] at conserved
        exact ⟨.last promptless, conserved⟩
  | cons heard before ih =>
    cases run with
    | @cons _ middle _ here more _ _ settles closed rest =>
      have first' : ∀ b, .ended b ∉ before := fun b is => first b (List.mem_cons_of_mem _ is)
      obtain ⟨pieces, conserved⟩ := ih rest ends.of_append first'
      refine ⟨?_, conserved⟩
      rw [received_append, ← List.append_assoc]
      generalize whole : pending ++ received here = stream at settles
      cases settles with
      | reply at? =>
        have first := at?.append (received more)
        rw [List.append_assoc _ middle] at first ⊢
        exact .piece first pieces
      | timedOut => exact pieces
      | ended => exact absurd List.mem_cons_self (first _)

end Listened

end SmtSession.Channel
