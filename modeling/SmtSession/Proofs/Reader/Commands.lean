import SmtSession.Proofs.Reader.Layout
import SmtSession.Proofs.Reader.Terms

/-!
# Reading scripts as they are spelled

**A script is read as the commands it spells**, under any layout and positions
apart: `readScript_of_spelled`. Each command has the layout of its name, so there
is one case for each of them; the script is their list.

The text is known to the reader by its lexemes alone. So a layout matters only where
the tokenizer finds them, and the two halves meet in the last theorem.
-/

namespace SmtSession.Reader

variable {after ls : List Lexeme} {word : String}

/-! ## Arguments -/

/-- Items between parentheses. -/
theorem listOf_reads {item : Token → Reader α} {f : α → γ} {g : β → γ}
    {spells : β → List Lexeme → Prop} {bs : List β} (spelled : SpelledAll spells bs ls)
    (each : ∀ b ∈ bs, ∀ here later, spells b here →
      ReadsAt item here (later ++ .closing :: after) fun a => f a = g b) :
    Reads (listOf word item) (parenthesised ls) after fun (as, close) =>
      as.map f = bs.map g ∧ close.lexeme = .closing := by
  refine Reads.opening_bind fun _ _ => Reads.remaining_bind ?_
  exact until_reads spelled _ (length_lt_closed _ _) fun b is _ here later spells _ _ =>
    each b is here later spells

/-- A count that may be left out. -/
theorem optionalNumeral_reads {default : Nat} {n : Int} (spelled : SpelledCount default n ls) :
    Reads (optionalNumeral word default) ls (.closing :: after) fun value => (value : Int) = n := by
  rcases spelled with ⟨rfl, rfl⟩ | ⟨l, rfl, counts⟩
  · refine Reads.peek_bind rfl ?_
    intro t is
    rw [if_pos is]
    exact Reads.pure rfl
  · refine Reads.peek_bind rfl ?_
    intro t is
    rw [if_neg (by rw [is]; exact not_closing_of_counts counts)]
    exact Reads.next_bind fun u is => numeralOf_reads (is ▸ counts)

/-- A string literal. -/
theorem stringLiteral_reads (content : String) :
    Reads (stringLiteral word) [.string content] after fun r => r.bare = .string content none := by
  refine Reads.next_bind ?_
  intro t is
  have one : ∀ pos, (Term.string content pos).Spelled [.string content] := fun _ => rfl
  refine Reads.silent_bind ((atom_reads (.inl (one none))).2 t is _) ?_
  intro r same
  cases r with
  | string found pos => exact Reads.pure same
  | binding b =>
    obtain ⟨s, t⟩ := b
    cases same
  | attr a =>
    obtain ⟨k, v⟩ := a
    cases v <;> cases same
  | _ => cases same

/-- A keyword without a value, where it may be left out. -/
theorem setting_reads_absent {k : Keyword} {l : Lexeme} (spelled : k.Spelled l) :
    Reads (setting word true) [l] (.closing :: after) fun (k', v) =>
      k'.bare = k.bare ∧ v = .absent := by
  refine Reads.one_bind (keyword_reads spelled) ?_
  intro r named
  refine Reads.peek_bind rfl ?_
  intro t is
  rw [if_pos is, if_pos rfl]
  exact Reads.pure ⟨by rw [Keyword.bare, Keyword.bare, named], rfl⟩

/-- A keyword with its value. -/
theorem setting_reads {k : Keyword} {v : Setting} {l : Lexeme} {vs : List Lexeme} {optional : Bool}
    (key : k.Spelled l) (spelled : v.Spelled vs) :
    Reads (setting word optional) (l :: vs) (.closing :: after) fun (k', v') =>
      k'.bare = k.bare ∧ v'.bare = v.bare := by
  cases v with
  | term u =>
    have value : ReadsAt (fun t => remaining >>= fun bound => attributeValue (termOf bound) t) vs
        (.closing :: after) fun r => r.bare = u.bare :=
      ReadsAt.bounded fun bound fits => attributeValue_reads spelled fun spelled =>
        term_reads u vs _ bound spelled fits
    obtain ⟨ahead, vs', rfl, closing, -⟩ := id value
    refine Reads.one_bind (keyword_reads key) ?_
    intro r named
    refine Reads.peek_bind rfl ?_
    intro t is
    rw [if_neg (by rw [is]; exact closing)]
    have rest := value.bind (f := fun v => pure (r, Setting.term v))
      (Q := fun (k', v') => k'.bare = k.bare ∧ v'.bare = (Setting.term u).bare)
      fun v same => Reads.pure ⟨by rw [Keyword.bare, Keyword.bare, named], by
        rw [Setting.bare, Setting.bare, same]⟩
    exact rest.next
  | _ => cases spelled

/-! ## Commands -/

/-- A reader for the arguments of a command. -/
def ArgumentsRead (c : Command) : Prop :=
  ∀ ls after, c.ArgumentsSpelled ls →
    ∃ r, arguments? c.name = some r ∧ Reads r ls (.closing :: after) fun c' => c'.bare = c.bare

theorem bare_of_name {s r : Symbol} (named : r.name = s.name) : r.bare = s.bare := by
  rw [Symbol.bare, Symbol.bare, named]

theorem keyword_bare_of_name {k r : Keyword} (named : r.name = k.name) : r.bare = k.bare := by
  rw [Keyword.bare, Keyword.bare, named]

theorem declareFun_read (name : Symbol) (args : List SmtSort) (result : SmtSort) :
    ArgumentsRead (.declareFun name args result) := by
  rintro _ after ⟨l, as, rs, rfl, names, args_spelled, result_spelled⟩
  refine ⟨_, rfl, Reads.one_bind (symbol_reads names) fun r named => ?_⟩
  refine Reads.bind (listOf_reads (f := SmtSort.bare) (g := SmtSort.bare)
    (sorts_spelled.mp args_spelled) fun s _ here later spells => sortAt_reads spells) ?_
  rintro ⟨sorts, close⟩ ⟨same_args, -⟩
  refine Reads.last_bind (nextSort_reads result_spelled) fun σ same => Reads.pure ?_
  rw [Command.bare, Command.bare, bare_of_name named, bareAll_eq_map, bareAll_eq_map, same_args,
    same]

theorem defineFun_read (name : Symbol) (parameters : List Declaration) (result : SmtSort)
    (body : Term) : ArgumentsRead (.defineFun name parameters result body) := by
  rintro _ after ⟨l, ds, rs, bs, rfl, names, declared, result_spelled, body_spelled⟩
  refine ⟨_, rfl, Reads.one_bind (symbol_reads names) fun r named => ?_⟩
  refine Reads.bind (declarations_reads declared) ?_
  intro decls same_decls
  refine Reads.bind (nextSort_reads result_spelled) ?_
  intro σ same
  refine Reads.last_bind (nextTerm_reads body_spelled) fun t same_body => Reads.pure ?_
  rw [Command.bare, Command.bare, bare_of_name named, same_decls, same, same_body]

/-- The names of a list of symbols are all that is left of them without positions. -/
theorem bare_of_names {ss rs : List Symbol} (named : rs.map Symbol.name = ss.map Symbol.name) :
    rs.map Symbol.bare = ss.map Symbol.bare := by
  have by_name (ss : List Symbol) :
      ss.map Symbol.bare = (ss.map Symbol.name).map fun name => { name := name } := by
    rw [List.map_map]
    rfl
  rw [by_name, by_name, named]

theorem defineSort_read (name : Symbol) (parameters : List Symbol) (definition : SmtSort) :
    ArgumentsRead (.defineSort name parameters definition) := by
  rintro _ after ⟨l, ps, ds, rfl, names, listed, spelled⟩
  refine ⟨_, rfl, Reads.one_bind (symbol_reads names) fun r named => ?_⟩
  have symbols : Reads (listOf "define-sort" symbolOf) (parenthesised ps) (ds ++ .closing :: after)
      fun r => r.1.map Symbol.name = parameters.map Symbol.name := by
    refine Reads.opening_bind fun _ _ => Reads.remaining_bind ?_
    refine Reads.mono (until_each_reads (f := Symbol.name) (g := Symbol.name) listed _
      (length_lt_closed _ _) ?_) ?_
    · intro p _ l t names is
      exact ⟨(not_or.mp (not_parenthesis_of_names names)).2,
        fun _ => symbolOf_reads (is ▸ names)⟩
    · rintro ⟨rs, close⟩ ⟨same, -⟩
      exact same
  refine Reads.bind symbols ?_
  rintro ⟨rs, close⟩ same_names
  have sorts : Reads (sort (rs.map Symbol.name)) ds (.closing :: after) fun r =>
      r.bare = definition.bare := by
    rw [same_names]
    exact nextSort_reads spelled
  refine Reads.last_bind sorts fun σ same => Reads.pure ?_
  rw [Command.bare, Command.bare, bare_of_name named, bare_of_names same_names, same]

theorem getValue_read (terms : List Term) : ArgumentsRead (.getValue terms) := by
  rintro _ after ⟨some, ts, rfl, spelled⟩
  refine ⟨_, rfl, Reads.last_bind (listOf_reads (f := Term.bare) (g := Term.bare)
    (terms_spelled.mp spelled) fun t _ here later spells => termAt_reads spells) ?_⟩
  rintro ⟨values, close⟩ ⟨same, -⟩
  show Reads (if values.isEmpty then _ else _) _ _ _
  rw [if_neg (isEmpty_of_map (by simpa using some) same)]
  exact Reads.pure (by rw [Command.bare, Command.bare, termsBare_eq_map, termsBare_eq_map, same])

theorem setInfo_read (k : Keyword) (v : Setting) : ArgumentsRead (.setInfo k v) := by
  intro ls after spelled
  cases v with
  | absent =>
    obtain ⟨l, rfl, key⟩ := spelled
    refine ⟨_, rfl, Reads.last_bind (setting_reads_absent key) ?_⟩
    rintro ⟨k', v'⟩ ⟨same, rfl⟩
    exact Reads.pure (by rw [Command.bare, Command.bare, same])
  | _ =>
    obtain ⟨l, vs, rfl, key, spelled⟩ := spelled
    refine ⟨_, rfl, Reads.last_bind (setting_reads key spelled) ?_⟩
    rintro ⟨k', v'⟩ ⟨same, same_value⟩
    exact Reads.pure (by rw [Command.bare, Command.bare, same, same_value])

/-- **The arguments of a command are read** in front of its closing parenthesis. -/
theorem arguments_read (c : Command) : ArgumentsRead c := by
  intro ls after spelled
  cases c with
  | setLogic logic =>
    obtain ⟨l, rfl, names⟩ := spelled
    refine ⟨_, rfl, Reads.one_bind (symbol_reads names) fun r named => Reads.pure ?_⟩
    rw [Command.bare, Command.bare, bare_of_name named]
  | setOption k v =>
    obtain ⟨l, vs, rfl, key, spelled⟩ := spelled
    refine ⟨_, rfl, Reads.last_bind (setting_reads key spelled) ?_⟩
    rintro ⟨k', v'⟩ ⟨same, same_value⟩
    exact Reads.pure (by rw [Command.bare, Command.bare, same, same_value])
  | getOption k =>
    obtain ⟨l, rfl, key⟩ := spelled
    refine ⟨_, rfl, Reads.one_bind (keyword_reads key) fun r named => Reads.pure ?_⟩
    rw [Command.bare, Command.bare, keyword_bare_of_name named]
  | setInfo k v => exact setInfo_read k v ls after spelled
  | getInfo k =>
    obtain ⟨l, rfl, key⟩ := spelled
    refine ⟨_, rfl, Reads.one_bind (keyword_reads key) fun r named => Reads.pure ?_⟩
    rw [Command.bare, Command.bare, keyword_bare_of_name named]
  | declareFun name args result => exact declareFun_read name args result ls after spelled
  | declareConst name sort =>
    obtain ⟨l, ss, rfl, names, spelled⟩ := spelled
    refine ⟨_, rfl, Reads.one_bind (symbol_reads names) fun r named => ?_⟩
    refine Reads.last_bind (nextSort_reads spelled) fun σ same => Reads.pure ?_
    rw [Command.bare, Command.bare, bare_of_name named, same]
  | defineFun name parameters result body =>
    exact defineFun_read name parameters result body ls after spelled
  | declareSort name arity =>
    obtain ⟨l, ns, rfl, names, spelled⟩ := spelled
    refine ⟨_, rfl, Reads.one_bind (symbol_reads names) fun r named => ?_⟩
    refine Reads.last_bind (optionalNumeral_reads spelled) fun n same => Reads.pure ?_
    rw [Command.bare, Command.bare, bare_of_name named, same]
  | defineSort name parameters definition =>
    exact defineSort_read name parameters definition ls after spelled
  | assert term =>
    refine ⟨_, rfl, Reads.last_bind (nextTerm_reads spelled) fun t same => Reads.pure ?_⟩
    rw [Command.bare, Command.bare, same]
  | push count =>
    refine ⟨_, rfl, Reads.last_bind (optionalNumeral_reads spelled) fun n same => Reads.pure ?_⟩
    rw [same]
  | pop count =>
    refine ⟨_, rfl, Reads.last_bind (optionalNumeral_reads spelled) fun n same => Reads.pure ?_⟩
    rw [same]
  | getValue terms => exact getValue_read terms ls after spelled
  | echo message =>
    cases message with
    | string content pos =>
      cases spelled
      refine ⟨_, rfl, Reads.last_bind (stringLiteral_reads content) fun t same => Reads.pure ?_⟩
      rw [Command.bare, Command.bare, same, Term.bare]
    | _ => cases spelled
  | other => cases spelled
  | _ =>
    cases spelled
    exact ⟨_, rfl, Reads.pure rfl⟩

/-- **A spelling of a command is read as that command.** -/
theorem command_reads (c : Command) (spelled : c.Spelled ls) :
    Reads command? ls after fun r => ∃ c', r = some c' ∧ c'.bare = c.bare := by
  obtain ⟨args, rfl, spelled⟩ := spelled
  have first : Reads next? [.opening] ((.plain c.name :: (args ++ [.closing])) ++ after)
      fun r => ∃ t : Token, r = some t ∧ t.lexeme = .opening := by
    intro input ts rest here _
    obtain ⟨t, rfl, is⟩ : ∃ t, ts = [t] ∧ t.lexeme = .opening := by simpa using here
    exact ⟨some t, rfl, t, rfl, is⟩
  refine Reads.one_bind first ?_
  rintro _ ⟨t, rfl, is⟩
  show Reads (if t.lexeme = .opening then _ else _) _ _ _
  rw [if_pos is]
  refine Reads.next_bind ?_
  intro name name_is
  obtain ⟨r, found, reads⟩ := arguments_read c args after spelled
  have known : argumentsAt? name = some r := by
    unfold argumentsAt? Token.text
    rw [name_is]
    exact found
  simp only [known]
  refine Reads.bind reads ?_
  intro c' same
  exact Reads.closing_bind fun _ _ => Reads.pure ⟨c', rfl, same⟩

/-! ## Scripts -/

/-- There is no command at the end of tokens that end well. -/
theorem command_at_end {input : Input} (ends : input.malformed? = none) :
    command? input [] = .done none [] := by
  have no_more : next? input [] = .done none [] := by rw [next?, ends]
  exact bind_of_done no_more

/-- There is no more command only at the end of tokens that end well. -/
theorem ended_of_command {input : Input} {ts left : List Token}
    (found : command? input ts = .done none left) :
    ts = [] ∧ left = [] ∧ input.malformed? = none := by
  obtain ⟨start?, middle, start, later⟩ := done_of_bind found
  cases ts with
  | nil =>
    cases broken : input.malformed? with
    | some e =>
      rw [next?, broken] at start
      cases start
    | none =>
      rw [next?, broken] at start
      cases start
      cases later
      exact ⟨rfl, rfl, rfl⟩
  | cons t ts =>
    -- Behind a token comes a command or an error.
    cases start
    dsimp only at later
    split at later
    · obtain ⟨name, _, -, later⟩ := done_of_bind later
      cases is : argumentsAt? name with
      | none =>
        rw [is] at later
        cases later
      | some arguments =>
        rw [is] at later
        obtain ⟨c, _, -, later⟩ := done_of_bind later
        obtain ⟨close, _, -, later⟩ := done_of_bind later
        cases later
    · cases later

/-- Commands are read up to the end of tokens that end well. -/
theorem commands_read {input : Input} (ends : input.malformed? = none) {cs : List Command}
    {ts : List Token} {bound : Nat} (spelled : SpelledAll Command.Spelled cs (ts.map Token.lexeme))
    (enough : cs.length < bound) :
    ∃ cs', commands bound input ts = .done cs' [] ∧ cs'.map Command.bare = cs.map Command.bare := by
  induction cs generalizing ts bound with
  | nil =>
    obtain ⟨bound, rfl⟩ := Nat.exists_eq_add_one_of_ne_zero (Nat.ne_of_gt enough)
    obtain rfl := List.map_eq_nil_iff.mp spelled
    refine ⟨[], ?_, rfl⟩
    exact bind_of_done (command_at_end ends)
  | cons c cs ih =>
    obtain ⟨bound, rfl⟩ : ∃ n, bound = n + 1 := ⟨bound - 1, by omega⟩
    obtain ⟨here, later, split, spelled_here, spelled_later⟩ := spelled
    obtain ⟨us, vs, rfl, rfl, rfl⟩ := List.map_eq_append_iff.mp split
    obtain ⟨_, done, c', rfl, same⟩ := command_reads c spelled_here input us vs rfl rfl
    obtain ⟨cs', done', same'⟩ := ih spelled_later (Nat.lt_of_succ_lt_succ enough)
    refine ⟨c' :: cs', ?_, by rw [List.map_cons, List.map_cons, same, same']⟩
    exact (bind_of_done done).trans (bind_of_done done')

/-- Each command takes some tokens. -/
theorem length_le_of_spelled {cs : List Command} (spelled : SpelledAll Command.Spelled cs ls) :
    cs.length ≤ ls.length := by
  induction cs generalizing ls with
  | nil => exact Nat.zero_le _
  | cons c cs ih =>
    obtain ⟨_, later, rfl, ⟨args, rfl, -⟩, spelled⟩ := spelled
    have shorter := ih spelled
    simp only [parenthesised, List.length_append, List.length_cons]
    omega

/-- A reader that takes all tokens of a text reads the text. -/
theorem readAll_of_done {r : Reader α} {s : Source} {a : α}
    (ends : (⟨s, s.tokenize.ending⟩ : Input).malformed? = none)
    (done : r ⟨s, s.tokenize.ending⟩ s.tokenize.list = .done a []) : readAll r s = .ok a := by
  have no_more : next? ⟨s, s.tokenize.ending⟩ [] = .done none [] := by rw [next?, ends]
  have whole : (do let a ← r; finished; pure a : Reader α) ⟨s, s.tokenize.ending⟩ s.tokenize.list =
      .done a [] := by
    rw [bind_of_done done]
    exact bind_of_done (bind_of_done no_more)
  rw [readAll, whole]

/-- A text is read whole when all its lexemes are read. -/
theorem readAll_of_reads {r : Reader α} {ls : List Lexeme} {P : α → Prop} {text : String}
    (reads : Reads r ls [] P) (laid : Laid ls text.toList) (location : Option String) :
    ∃ a, readAll r ⟨text, location⟩ = .ok a ∧ P a := by
  obtain ⟨lexemes, ending⟩ := Source.tokenize_laid laid location
  have ends : (⟨⟨text, location⟩, (Source.tokenize ⟨text, location⟩).ending⟩ :
      Input).malformed? = none := by
    rw [Input.malformed?, ending]
  obtain ⟨a, done, holds⟩ := reads _ _ [] lexemes rfl
  rw [List.append_nil] at done
  exact ⟨a, readAll_of_done ends done, holds⟩

end SmtSession.Reader

namespace SmtSession

/-- The script gives these commands, one each time it is asked, and then none. -/
def Script.Gives : List Command → Script → Prop
  | [], s => s.next.1 = .ok none
  | c :: cs, s => ∃ c', s.next.1 = .ok (some c') ∧ c'.bare = c.bare ∧ Gives cs s.next.2

/-- A script gives the commands that its pending tokens spell. -/
theorem Script.gives_of_spelled {s : Script} (ends : s.input.malformed? = none) {cs : List Command}
    (spelled : SpelledAll Command.Spelled cs (s.pending.map Token.lexeme)) : s.Gives cs := by
  induction cs generalizing s with
  | nil =>
    have none_left := Reader.command_at_end ends
    rw [← List.map_eq_nil_iff.mp spelled] at none_left
    rw [Gives, next, none_left]
  | cons c cs ih =>
    obtain ⟨here, later, split, spelled_here, spelled_later⟩ := spelled
    obtain ⟨us, vs, pending, rfl, rfl⟩ := List.map_eq_append_iff.mp split
    obtain ⟨_, done, c', rfl, same⟩ := Reader.command_reads c spelled_here s.input us vs rfl rfl
    have next : s.next = (.ok (some c'), { s with pending := vs }) := by
      rw [Script.next, pending, done]
    refine ⟨c', by rw [next], same, ?_⟩
    rw [next]
    exact ih ends spelled_later

/-- **A script is read as the commands that it spells**, under any layout: one by
one, and all at once. -/
theorem readScript_of_spelled {cs : List Command} {ls : List Lexeme} {text : String}
    (spelled : SpelledAll Command.Spelled cs ls) (laid : Laid ls text.toList)
    (location : Option String) :
    (Script.ofSource ⟨text, location⟩).Gives cs ∧
      ∃ cs', readScript ⟨text, location⟩ = .ok cs' ∧
        cs'.map Command.bare = cs.map Command.bare := by
  obtain ⟨lexemes, ending⟩ := Source.tokenize_laid laid location
  have ends : (⟨⟨text, location⟩, (Source.tokenize ⟨text, location⟩).ending⟩ :
      Reader.Input).malformed? = none := by
    rw [Reader.Input.malformed?, ending]
  have enough : cs.length < (Source.tokenize ⟨text, location⟩).list.length + 1 := by
    have shorter := Reader.length_le_of_spelled spelled
    rw [← lexemes, List.length_map] at shorter
    omega
  refine ⟨Script.gives_of_spelled ends (lexemes ▸ spelled), ?_⟩
  obtain ⟨cs', done, same⟩ := Reader.commands_read ends (lexemes ▸ spelled) enough
  exact ⟨cs', Reader.readAll_of_done ends done, same⟩

end SmtSession
