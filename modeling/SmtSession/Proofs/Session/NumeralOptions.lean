import SmtSession.Proofs.Dialect.Sole
import SmtSession.Proofs.Session.Creation
import SmtSession.Proofs.Session.KeptValues

/-!
# Options that are numerals

**A numeral option holds digit characters** in every state that is reached, whatever reaches it
(`numerals_kept`). The check does not ask for a numeral: digit characters of other scripts pass it
too, and zeros in front of other digits, and such a text is not read back.

What the session writes by itself are numerals. So a text that is none was handed over as it is: in
the bundle, as a text, or as the name of an expression that is printed as that name. If the
expression was read from a source, the name stands between bars there.
-/

namespace SmtSession

open Text (isDigitChar isDigits)
open AtomClass (isNumeral valueOf)

/-! ## Values of a bundle -/

namespace Decimal

open Binary64

/-- A floating-point number is laid out with a point or an exponent. -/
theorem exists_mem_layOut (l : Layout) (c : Nat) (g : Int) :
    ∃ d ∈ (layOut l c g).toList, isDigitChar d = false := by
  have point : isDigitChar '.' = false := by decide
  have exponent : isDigitChar 'e' = false := by decide
  have sign (small : Prop) [Decidable small] : 'e' ∈ (if small then "e-" else "e+").toList := by
    split <;> decide
  unfold layOut
  simp only
  split
  · exact ⟨'.', by decide, point⟩
  split
  · split
    · exact ⟨'.', by simp, point⟩
    split
    · exact ⟨'.', by simp, point⟩
    · exact ⟨'.', by simp, point⟩
  · refine ⟨'e', ?_, exponent⟩
    split <;> simp [sign]

theorem not_isDigits_floatText (d : Decimal) : ¬ isDigits d.floatText = true := by
  have other : ∃ c ∈ d.toBinary64.text.toList, isDigitChar c = false := by
    cases d.toBinary64 with
    | infinite => exact ⟨'i', by decide, by decide⟩
    | finite f q =>
      by_cases zero : f = 0
      · simp only [Binary64.text, if_pos zero]
        exact exists_mem_layOut _ _ _
      · simp only [Binary64.text, if_neg zero]
        exact exists_mem_layOut _ _ _
  obtain ⟨c, is, none⟩ := other
  refine Text.not_isDigits_of_mem ?_ none
  rw [floatText, String.toList_append]
  exact List.mem_append_right _ is

end Decimal

/-- **A value that is written in digit characters** is a text or a number. -/
theorem Bundle.Value.eq_of_isDigits {v : Value} (digits : isDigits v.toText = true) :
    v = .text v.toText ∨ ∃ n, 0 ≤ n ∧ v = .int n := by
  cases v with
  | text t => exact .inl rfl
  | int n => exact .inr ⟨n, (Text.isDigits_toString n).mp digits, rfl⟩
  | null => exact absurd digits (by decide)
  | bool b => cases b <;> exact absurd digits (by decide)
  | real d => exact absurd digits d.not_isDigits_floatText
  | list items =>
    have bracket : '[' ∈ (Value.list items).toText.toList := by simp [toText, shown]
    exact absurd digits (Text.not_isDigits_of_mem bracket (by decide))
  | dict entries =>
    have brace : '\x7b' ∈ (Value.dict entries).toText.toList := by simp [toText, shown]
    exact absurd digits (Text.not_isDigits_of_mem brace (by decide))

/-- The settings but for the seed stand for truth values. -/
theorem OptionRules.numerals_ne {key : String} (is : key ∈ numerals) :
    key ≠ ":produce-models" ∧ key ≠ ":produce-proofs" ∧ key ≠ ":produce-unsat-cores" ∧
      key ≠ ":produce-assignments" := by
  revert key
  decide

/-- **A numeral option that a bundle chose is a numeral, or a text that is listed for it.** -/
theorem Bundle.numeral_or_listed {b : Bundle} {chosen : List (String × String)}
    (options : b.options = .ok chosen) {key text : String} (is : key ∈ OptionRules.numerals)
    (there : (key, text) ∈ chosen) (digits : isDigits text = true) :
    isNumeral text.toList = true ∨
      ∃ pairs, b.solverOptions.pairs? = some pairs ∧ (key, .text text) ∈ pairs := by
  rw [options_eq] at options
  cases first : firstError? b.settingChecks with
  | some e =>
    rw [first] at options
    cases options
  | none =>
    rw [first] at options
    obtain rfl := Except.ok.inj options
    rcases List.mem_append.mp there with setting | listed
    · have seed : (key, text) ∈ b.seed := by
        simpa [named, OptionRules.numerals_ne is] using setting
      have known : isSeed b.randomSeed = true :=
        firstError?_eq_none.mp first
          ⟨isSeed b.randomSeed, .invalid "random_seed" b.randomSeed.toText⟩ (by simp [settingChecks])
      left
      cases value : b.randomSeed with
      | null => simp [Bundle.seed, value] at seed
      | int n =>
        have written : text = toString n := by
          simp only [Bundle.seed, value, List.mem_singleton, Prod.mk.injEq] at seed
          exact seed.2
        subst written
        exact AtomClass.isNumeral_toString digits
      | bool | real | text | list | dict =>
        rw [value] at known
        cases known
    · obtain ⟨⟨k, v⟩, pair, same⟩ := List.mem_map.mp (mem_entries.mp listed).2.mem
      obtain ⟨rfl, rfl⟩ := Prod.mk.inj same
      rcases v.eq_of_isDigits digits with is_text | ⟨n, -, rfl⟩
      · cases pairs : b.solverOptions.pairs? with
        | none => simp [pairs] at pair
        | some pairs' =>
          refine .inr ⟨pairs', rfl, ?_⟩
          rw [← is_text]
          simpa [pairs] using pair
      · exact .inl (AtomClass.isNumeral_toString digits)

/-! ## Digit characters in every state -/

namespace OptionRules

/-- Every numeral option has a text of digit characters. -/
def Numbered (options : Table) : Prop :=
  ∀ key ∈ numerals, ∃ text, options.get? key = some text ∧ isDigits text = true

theorem numbered_defaults : Numbered defaults := by
  have zero : ∀ key ∈ numerals, defaults.get? key = some "0" := by decide
  exact fun key is => ⟨"0", zero key is, by decide⟩

end OptionRules

open OptionRules (Numbered)

namespace State

variable {s : State} {key text : String}

/-- What passes the check for a numeral has digit characters alone. -/
theorem isDigits_of_checkSetOption (check : s.checkSetOption key text = none)
    (is : key ∈ OptionRules.numerals) : isDigits text = true := by
  unfold checkSetOption at check
  split at check
  · cases check
  split at check
  · cases check
  · next digits => simpa [is] using digits

theorem numbered_set : SettingKeeps Numbered := by
  intro s key text numbered check k is
  rw [Table.get?_set]
  split
  · next same =>
    subst same
    exact ⟨text, rfl, isDigits_of_checkSetOption check is⟩
  · exact numbered k is

end State

/-- What a table of texts gives was set, or was there before. -/
theorem Table.mem_or_of_get?_setAll {t : Table} {entries : List (String × String)}
    {key text : String} (is : (t.setAll entries).get? key = some text) :
    (key, text) ∈ entries ∨ t.get? key = some text := by
  by_cases known : key ∈ entries.map Prod.fst
  · obtain ⟨text', last⟩ := exists_setLast known
    rw [get?_setAll_of_last last] at is
    obtain rfl := Option.some.inj is
    exact .inl last.mem
  · refine .inr ?_
    rw [get?_setAll_of_others fun e there same => known (List.mem_map.mpr ⟨e, there, same⟩)] at is
    exact is

namespace Session

theorem operations_answers (setup : Setup σ) (ops : List Operation) (s : Session σ) :
    (answers setup ops s).map Prod.fst = ops := by
  induction ops generalizing s with
  | nil => rfl
  | cons op ops ih => exact congrArg (op :: ·) (ih (after setup s op))

/-- What operations set is the text of a value that one of them hands over. -/
theorem exists_of_optionsSet {setup : Setup σ} {ops : List Operation} {s : Session σ}
    {key text : String} (set : (key, text) ∈ optionsSet setup ops s) :
    ∃ k v, .setOption k v ∈ ops ∧ k.name = key ∧ v.text = .ok text := by
  obtain ⟨⟨op, answer⟩, answered, is⟩ := List.mem_filterMap.mp set
  have there : op ∈ ops := by
    rw [← operations_answers setup ops s]
    exact List.mem_map.mpr ⟨_, answered, rfl⟩
  cases op with
  | setOption k v =>
    cases answer with
    | error part => cases is
    | ok r =>
      simp only [optionSet?] at is
      split at is
      · obtain ⟨text', spelled, same⟩ := Option.map_eq_some_iff.mp is
        obtain ⟨rfl, rfl⟩ := Prod.mk.inj same
        exact ⟨k, v, there, rfl, ok_of_toOption spelled⟩
      · cases is
  | _ => cases is

end Session

/-! ## Texts that are handed over as they are -/

/-- **A value that is kept as digit characters and is no numeral** is handed over as a text, or by
name. -/
theorem Setting.verbatim_or_bears {v : Setting} {text : String} (written : v.text = .ok text)
    (digits : isDigits text = true) (other : isNumeral text.toList = false) :
    v = .verbatim text ∨ ∃ t, v = .term t ∧ t.sole.Bears text := by
  cases v with
  | absent =>
    obtain rfl := Except.ok.inj written
    exact absurd digits (by decide)
  | flag on =>
    obtain rfl := Except.ok.inj written
    cases on <;> exact absurd digits (by decide)
  | number n =>
    obtain rfl := Except.ok.inj written
    rw [AtomClass.isNumeral_toString digits] at other
    cases other
  | verbatim t =>
    obtain rfl := Except.ok.inj written
    exact .inl rfl
  | term t =>
    rcases Term.numeral_or_bears_of_settingText written digits with ⟨n, pos, -, rfl⟩ | bears
    · rw [AtomClass.isNumeral_toString digits] at other
      cases other
    · exact .inr ⟨t, rfl, bears⟩

/-- **A name in digit characters that was read stands between bars in the source.** -/
theorem Script.exists_quoted {source : Source} {n : Nat} {k : Keyword} {t : Term} {text : String}
    (read : ((ofSource source).after n).next.1 = .ok (some (.setOption k (.term t))))
    (digits : isDigits text = true) (bears : t.sole.Bears text) :
    (∃ s, t.sole = .symbol s) ∧ ∃ token ∈ source.tokenize.list, token.lexeme = .quoted text := by
  obtain ⟨taken, ⟨_, whole, _, vs, rfl, -, spelled⟩, inside⟩ := tokens_of_next read
  obtain ⟨symbol, is⟩ := Setting.quoted_of_bears spelled digits bears
  have there : .quoted text ∈ taken.map Token.lexeme := by
    rw [whole]
    simp [parenthesised, is]
  obtain ⟨token, taken, same⟩ := List.mem_map.mp there
  exact ⟨symbol, token, inside token taken, same⟩

namespace Session

/-- How a text came to an option as it is: from a bundle, or by one of some operations. -/
inductive HandedOver (bundle : Bundle) (ops : List Operation) (key text : String) : Prop
  | listed {pairs : List (String × Bundle.Value)} (is : bundle.solverOptions.pairs? = some pairs)
      (there : (key, .text text) ∈ pairs)
  | verbatim {k : Keyword} (name : k.name = key) (there : .setOption k (.verbatim text) ∈ ops)
  /-- If the operation was read from a source, the text stands between bars there. -/
  | named {k : Keyword} {t : Term} (name : k.name = key) (there : .setOption k (.term t) ∈ ops)
      (bears : t.sole.Bears text)
      (read : ∀ source n,
        ((Script.ofSource source).after n).next.1 = .ok (some (.setOption k (.term t))) →
        (∃ s, t.sole = .symbol s) ∧ ∃ token ∈ source.tokenize.list, token.lexeme = .quoted text)

/-- What it is for a numeral option to have a text, in a session that was made of a bundle and
carried out some operations. -/
structure NumeralKept (bundle : Bundle) (ops : List Operation) (key text : String) : Prop where
  digits : isDigits text = true
  /-- It is read back as a numeral exactly if it is one. -/
  read : ∀ location,
    let source : Source := ⟨text, location⟩
    readTerm source =
      if isNumeral text.toList then
        .ok (.numeral (valueOf text.toList) (some ⟨0, text.length, some source⟩))
      else .error (.malformed (.invalidToken text) ⟨0, text.length, some source⟩)
  /-- Otherwise it was handed over as it is. -/
  handed : isNumeral text.toList = false → HandedOver bundle ops key text

/-- **A numeral option has a numeral, unless digit characters that are none were handed over as they
are**, over every transport and after any operations. -/
theorem numerals_kept {b : Backend} {transport : Transport σ} {link : σ} {bundle : Bundle}
    {setup : Setup σ} {s : Session σ}
    (made : Session.create b transport link bundle = .ok (setup, s)) (ops : List Operation)
    {key : String} (is : key ∈ OptionRules.numerals) :
    ∃ text, (afterAll setup ops s).state.options.get? key = some text ∧
      NumeralKept bundle ops key text := by
  obtain ⟨-, chosen, state, options, set, is_new⟩ := initial_of_create made
  obtain ⟨initial, new⟩ :=
    options_of_setOptions State.numbered_set OptionRules.numbered_defaults set
  obtain rfl : state = s.state := by rw [is_new]
  have numbered : Numbered (afterAll setup ops s).state.options :=
    reached_of_conduct (P := fun _ st => Numbered st.options)
      (fun numbered conduct => conduct.settles.keepsTable State.numbered_set numbered) new ops
  obtain ⟨text, kept, digits⟩ := numbered key is
  refine ⟨text, kept, digits, fun location => readTerm_of_isDigits digits location, fun other => ?_⟩
  rw [options_afterAll, initial, ← Table.setAll_append] at kept
  rcases Table.mem_or_of_get?_setAll kept with there | default
  · rcases List.mem_append.mp there with first | later
    · rcases Bundle.numeral_or_listed options is first digits with numeral | ⟨pairs, listed, pair⟩
      · rw [numeral] at other
        cases other
      · exact .listed listed pair
    · obtain ⟨k, v, performed, name, written⟩ := exists_of_optionsSet later
      rcases Setting.verbatim_or_bears written digits other with rfl | ⟨t, rfl, bears⟩
      · exact .verbatim name performed
      · exact .named name performed bears fun source n read => Script.exists_quoted read digits bears
  · -- the session starts from numerals
    have zero : ∀ key ∈ OptionRules.numerals, OptionRules.defaults.get? key = some "0" := by decide
    obtain rfl : text = "0" := Option.some.inj (default.symm.trans (zero key is))
    cases other

/-- A seed that is set as a number, and a text that is handed over with zeros in front. -/
theorem numerals_kept_zeros :
    let part : Transport.Part := { name := "yices", prompt := "yices > " }
    let ops : List Operation :=
      [.setOption ⟨":random-seed", none⟩ (.number 7),
        .setOption ⟨":verbosity", none⟩ (.verbatim "007")]
    ∃ setup s, Session.create Backend.yices (.scripted part) {} {} = .ok (setup, s) ∧
      ":random-seed" ∈ OptionRules.numerals ∧ ":verbosity" ∈ OptionRules.numerals ∧
      (afterAll setup ops s).state.options.get? ":random-seed" = some "7" ∧
      NumeralKept {} ops ":random-seed" "7" ∧ isNumeral "7".toList = true ∧
      (afterAll setup ops s).state.options.get? ":verbosity" = some "007" ∧
      NumeralKept {} ops ":verbosity" "007" ∧ isNumeral "007".toList = false := by
  intro part ops
  have made : Session.create Backend.yices (.scripted part) {} {} =
      .ok (⟨Backend.yices, .scripted part, false, false⟩, _) := rfl
  have seed : ":random-seed" ∈ OptionRules.numerals := by decide
  have verbosity : ":verbosity" ∈ OptionRules.numerals := by decide
  obtain ⟨text, kept, all⟩ := numerals_kept made ops seed
  obtain ⟨text', kept', all'⟩ := numerals_kept made ops verbosity
  obtain rfl : text = "7" := Option.some.inj (kept.symm.trans (by decide +kernel))
  obtain rfl : text' = "007" := Option.some.inj (kept'.symm.trans (by decide +kernel))
  exact ⟨_, _, made, seed, verbosity, kept, all, by decide, kept', all', by decide⟩

/-- The seed of a new session in which the commands of a text were carried out. -/
def seedAfter (source : Source) : Option String := do
  let cs ← (readScript source).toOption
  let (setup, s) ← (Session.create Backend.yices
    (.scripted { name := "yices", prompt := "yices > " }) {} {}).toOption
  (afterAll setup (cs.filterMap Command.operation?) s).state.options.get? ":random-seed"

/-- **Digit characters between bars are set and are no numeral.** -/
theorem not_numeral_of_digits_in_bars :
    ¬ ∀ (source : Source) (cs : List Command), readScript source = .ok cs →
      ∀ (transport : Transport Transport.Played) (link : Transport.Played) (bundle : Bundle)
        (setup : Setup Transport.Played) (s : Session Transport.Played),
        Session.create Backend.yices transport link bundle = .ok (setup, s) →
        ∀ key ∈ OptionRules.numerals, ∃ text n pos,
          (afterAll setup (cs.filterMap Command.operation?) s).state.options.get? key = some text ∧
            readTerm ⟨text, none⟩ = .ok (.numeral n pos) := by
  intro numerals
  have computed : seedAfter ⟨"(set-option :random-seed |²|)", none⟩ = some "²" := by decide +kernel
  obtain ⟨cs, read, rest⟩ := Option.bind_eq_some_iff.mp computed
  obtain ⟨⟨setup, s⟩, made, kept⟩ := Option.bind_eq_some_iff.mp rest
  obtain ⟨text, n, pos, kept', back⟩ := numerals _ cs (ok_of_toOption read) _ _ _ setup s
    (ok_of_toOption made) ":random-seed" (by decide)
  obtain rfl : "²" = text := Option.some.inj (kept.symm.trans kept')
  have digits : isDigits "²" = true := by decide +kernel
  have other : isNumeral "²".toList = false := by decide +kernel
  rw [readTerm_of_isDigits digits none, other] at back
  cases back

end Session

end SmtSession
