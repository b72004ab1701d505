import SmtSession.Backend
import SmtSession.Proofs.Dialect.Desugaring
import SmtSession.Setting

/-!
# Nodes out of place

**A term with no node out of place never fails for one**: in every dialect it is spelled,
or refused for a cause (`Dialect.spell_placed`). The same holds of the texts and the wires
that are made of such terms. Sorts and declarations have no such nodes at all.

`Placed` has a rule for each way to put results together, and the proofs follow the
definitions by these rules.
-/

namespace SmtSession

namespace Dialect

/-- The result is not that a node is out of place. -/
def Placed (r : Except Error α) : Prop :=
  ∀ part, r ≠ .error (.misplaced part)

namespace Placed

theorem ok (a : α) : Placed (.ok a) :=
  nofun

theorem refused (cause : Cause) (pos : Option Pos) :
    Placed (.error (.refused cause pos) : Except Error α) :=
  nofun

theorem bind {r : Except Error α} {f : α → Except Error β} (first : Placed r)
    (next : ∀ a, Placed (f a)) : Placed (r >>= f) := by
  cases r with
  | error e =>
    intro part same
    cases same
    exact first part rfl
  | ok a => exact next a

theorem map {r : Except Error α} {f : α → β} (first : Placed r) : Placed (f <$> r) := by
  cases r with
  | error e =>
    intro part same
    cases same
    exact first part rfl
  | ok a => exact ok (f a)

end Placed

/-! ## Sorts and terms -/

variable (d : Dialect)

mutual

theorem spellSort_placed : (s : SmtSort) → Placed (d.spellSort s)
  | .bool _ => .ok _
  | .family name args indices pos => by
    rw [spellSort]
    split
    · exact .ok _
    · exact .refused _ _
  | .abbreviation _ _ _ _ => .refused _ _
  | .function args result pos => by
    rw [spellSort]
    split
    · exact (spellSorts_placed args).bind fun _ => (spellSort_placed result).bind fun _ => .ok _
    · exact .refused _ _
  | .parameter _ _ => .refused _ _

theorem spellSorts_placed : (ss : List SmtSort) → Placed (d.spellSorts ss)
  | [] => .ok _
  | s :: ss => (spellSort_placed s).bind fun _ => (spellSorts_placed ss).bind fun _ => .ok _

end

theorem spellDeclarations_placed (decls : List Declaration) :
    Placed (d.spellDeclarations decls) := by
  induction decls with
  | nil => exact .ok _
  | cons decl decls ih =>
    have first : Placed (d.spellDeclaration decl) :=
      (d.spellSort_placed decl.sort).bind fun _ => .ok _
    exact first.bind fun _ => ih.bind fun _ => .ok _

theorem literal_placed (text : String) (cause : Cause) (pos : Option Pos) :
    Placed (d.literal text cause pos) := by
  unfold literal
  split
  · exact .ok _
  · exact .refused _ _

/-- A head is spelled or refused. -/
theorem spell_head_placed {head : Term} (identifier : head.IsIdentifier) :
    Placed (d.spell head) := by
  cases head with
  | symbol => exact .ok _
  | qualified | indexed => exact .refused _ _
  | _ => cases identifier

mutual

/-- **A proper term is spelled or refused.** -/
theorem spell_placed : (t : Term) → t.Proper → Placed (d.spell t)
  | .numeral _ _, _ | .symbol _, _ => .ok _
  | .decimal _ _, _ | .hex _ _, _ | .binary _ _, _ | .string _ _, _ => d.literal_placed _ _ _
  | .keyword _, _ | .qualified _ _ _, _ | .indexed _ _ _, _ | .error _ _, _ => .refused _ _
  | .apply head args pos, ⟨identifier, proper⟩ => by
    rw [spell]
    split
    · exact .refused _ _
    · refine (d.spell_head_placed identifier).bind fun e => ?_
      split
      · exact .refused _ _
      · exact (spellAll_placed args proper).bind fun _ => .ok _
  | .quantified _ parameters body _, proper =>
    (d.spellDeclarations_placed parameters).bind fun _ =>
      (spell_placed body proper).bind fun _ => .ok _
  | .letIn bindings body _, ⟨bound, proper⟩ =>
    (spellBindings_placed bindings bound).bind fun _ =>
      (spell_placed body proper).bind fun _ => .ok _
  | .attributed term _ _, proper => spell_placed term proper
  | .sort _, proper | .declaration _, proper | .binding _, proper | .attr _, proper =>
    absurd proper id

theorem spellAll_placed : (ts : List Term) → Term.ProperAll ts → Placed (d.spellAll ts)
  | [], _ => .ok _
  | t :: ts, ⟨first, more⟩ =>
    (spell_placed t first).bind fun _ => (spellAll_placed ts more).bind fun _ => .ok _

theorem spellBindings_placed : (bs : List Binding) → Term.ProperBindings bs →
    Placed (d.spellBindings bs)
  | [], _ => .ok _
  | .mk _ t :: bs, ⟨first, more⟩ =>
    (spell_placed t first).bind fun _ => (spellBindings_placed bs more).bind fun _ => .ok _

end

end Dialect

open Dialect (Placed)

/-- The value of an option or of information is kept as text or refused. -/
theorem Term.settingText_placed {t : Term} (proper : t.Proper) : Placed t.settingText := by
  unfold Term.settingText
  split
  · exact .ok _
  · exact .ok _
  · exact .ok _
  · exact .ok _
  · exact .ok _
  · exact (Dialect.smtLib.spell_placed t proper).bind fun _ => .ok _

/-! ## Wires -/

namespace Backend

variable (b : Backend)

theorem assertWire_placed {t : Term} (proper : t.Proper) : Placed (b.assertWire t) :=
  (b.dialect.spell_placed t proper).bind fun _ => .ok _

theorem valueWire_placed {ts : List Term} (proper : Term.ProperAll ts) :
    Placed (b.valueWire ts) :=
  (b.dialect.spellAll_placed ts proper).bind fun _ => .ok _

theorem signature_placed (args : List SmtSort) (result : SmtSort) :
    Placed (b.signature args result) := by
  unfold signature
  split
  · exact b.dialect.spellSort_placed result
  · exact (b.dialect.spellSorts_placed args).bind fun _ =>
      (b.dialect.spellSort_placed result).bind fun _ => .ok _

theorem declareWire_placed (name : Symbol) (args : List SmtSort) (result : SmtSort) :
    Placed (b.declareWire name args result) :=
  (b.signature_placed args result).bind fun _ => .ok _

theorem defineWire_placed (name : Symbol) (parameters : List Declaration) (result : SmtSort)
    {body : Term} (proper : body.Proper) : Placed (b.defineWire name parameters result body) := by
  refine (b.dialect.spell_placed body proper).bind fun _ =>
    (b.signature_placed _ result).bind fun _ => ?_
  split
  · exact .ok _
  · exact (b.dialect.spellDeclarations_placed parameters).bind fun _ => .ok _

theorem declareSortWire_placed (name : Symbol) (arity : Int) :
    Placed (b.declareSortWire name arity) := by
  unfold declareSortWire
  split
  · exact .ok _
  · exact .refused _ _

theorem defineSortWire_placed (name : Symbol) (parameters : List String) (definition : SmtSort) :
    Placed (b.defineSortWire name parameters definition) := by
  unfold defineSortWire
  split
  · exact (b.dialect.spellSort_placed definition).bind fun _ => .ok _
  · exact .refused _ _

theorem ifDefinitions_placed {wire : Except Dialect.Error String} (placed : Placed wire) :
    Placed (b.ifDefinitions wire) := by
  unfold ifDefinitions
  split
  · exact placed.map
  · exact .ok _

end Backend

end SmtSession
