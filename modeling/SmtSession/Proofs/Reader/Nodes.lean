import SmtSession.Proofs.Reader.Spelling
import SmtSession.Reader

/-!
# The parts of what is read, and the tokens they are read from

**A node** is a part of a term that has a range of its own: a term, a sort, or a label. The
children of a node are named in the order of the source. `Located` says of a node and some
tokens that all parts of the node are read from some of these tokens: each spells its own and
has their range, and its children stand one behind the other between its first token and its
last one.
-/

namespace SmtSession

/-! ## Nodes -/

/-- A part of what is read that has a range. A label is a name that is bound, qualified or
indexed, or a keyword or the value of an annotation; it need not be a term alone, as it may be
a reserved word. -/
inductive Node
  | term (t : Term)
  | sort (σ : SmtSort)
  | label (t : Term)

/-- The parts of a variable with its sort. -/
def Declaration.parts (decl : Declaration) : List Node :=
  [.label (.symbol decl.parameter), .sort decl.sort]

/-- The parts of a binding. -/
def Binding.parts : Binding → List Node
  | .mk s t => [.label (.symbol s), .term t]

/-- The parts of an annotation. -/
def Attribute.parts : Attribute → List Node
  | .mk k none => [.label (.keyword k)]
  | .mk k (some v) => [.label (.keyword k), .label v]

/-- The sorts that a sort is made of. -/
def SmtSort.parts : SmtSort → List Node
  | .family _ args _ _ => args.map .sort
  | .abbreviation _ _ definition _ => [.sort definition]
  | .function args result _ => args.map .sort ++ [.sort result]
  | _ => []

/-- The parts of a term, in the order of the source. -/
def Term.parts : Term → List Node
  | .qualified s σ _ => [.label (.symbol s), .sort σ]
  | .indexed s _ _ => [.label (.symbol s)]
  | .apply head args _ => .term head :: args.map .term
  | .quantified _ parameters body _ => parameters.flatMap Declaration.parts ++ [.term body]
  | .letIn bindings body _ => bindings.flatMap Binding.parts ++ [.term body]
  | .attributed term attributes _ => .term term :: attributes.flatMap Attribute.parts
  | _ => []

namespace Node

/-- The range that the node was read from. -/
def pos : Node → Option Pos
  | .term t => t.pos
  | .sort σ => σ.pos
  | .label t => t.pos

def children : Node → List Node
  | .term t => t.parts
  | .sort σ => σ.parts
  | .label t => t.parts

/-- How the node is spelled. A label may be spelled as a reserved word is. -/
def Spelled (parameters : List String) : Node → List Lexeme → Prop
  | .term t, ls => t.Spelled ls
  | .sort σ, ls => σ.Spelled parameters ls
  | .label t, ls => t.Spelled ls ∨ t.SpelledWord ls

/-- A node stands somewhere in another one, or is that one. -/
inductive Within (n : Node) : Node → Prop
  | here : Within n n
  | child {m c : Node} (is : c ∈ m.children) (inside : Within n c) : Within n m

end Node

/-- What one lexeme spells has no parts. -/
theorem Term.parts_of_one {t : Term} {l : Lexeme} (spelled : t.Spelled [l] ∨ t.SpelledWord [l]) :
    t.parts = [] := by
  -- between parentheses stand two lexemes at least
  have several {ls : List Lexeme} (same : [l] = parenthesised ls) : False := by
    simp [parenthesised] at same
  cases t with
  | qualified s σ pos =>
    obtain ⟨name, ss, same, -⟩ := spelled.resolve_right id
    exact (several same).elim
  | indexed s indices pos =>
    obtain ⟨-, name, is, same, -⟩ := spelled.resolve_right id
    exact (several same).elim
  | apply head args pos =>
    obtain ⟨-, hs, as, same, -⟩ := spelled.resolve_right id
    exact (several same).elim
  | quantified q parameters body pos =>
    obtain ⟨-, ds, bs, same, -⟩ := spelled.resolve_right id
    exact (several same).elim
  | letIn bindings body pos =>
    obtain ⟨-, bs, ts, same, -⟩ := spelled.resolve_right id
    exact (several same).elim
  | attributed term attributes pos =>
    obtain ⟨-, ts, as, same, -⟩ := spelled.resolve_right id
    exact (several same).elim
  | _ => rfl

namespace Reader

variable {input : Input} {parameters : List String}

/-- The range from a token to the last of those that follow it. -/
def Input.spanned (input : Input) (first : Token) (more : List Token) : Pos :=
  ⟨first.start, (more.getLastD first).stop, some input.source⟩

/-- The tokens spell something, and the range is theirs. -/
structure ReadFrom (input : Input) (spells : List Lexeme → Prop) (pos : Option Pos)
    (first : Token) (more : List Token) : Prop where
  spelled : spells ((first :: more).map Token.lexeme)
  ranged : pos = some (input.spanned first more)

/-- What stands between parentheses has the range from the one to the other. -/
theorem ReadFrom.closed {spells : List Lexeme → Prop} {start close : Token} {more : List Token}
    (inner : List Token) (split : more = inner ++ [close]) (opens : start.lexeme = .opening)
    (closes : close.lexeme = .closing) (spelled : spells (parenthesised (inner.map Token.lexeme))) :
    ReadFrom input spells (some ⟨start.start, close.stop, some input.source⟩) start more where
  spelled := by
    have whole : (start :: more).map Token.lexeme = parenthesised (inner.map Token.lexeme) := by
      simp [split, parenthesised, opens, closes]
    rw [whole]
    exact spelled
  ranged := by simp [split, Input.spanned]

/-! ## Nodes in a row -/

/-- **Nodes stand in a row** among tokens, each in the relation with some of them. Other tokens
may stand around them. -/
def Strung (P : Node → List Token → Prop) : List Node → List Token → Prop
  | [], _ => True
  | n :: ns, ts => ∃ gap here later, ts = gap ++ (here ++ later) ∧ P n here ∧ Strung P ns later

namespace Strung

variable {P Q : Node → List Token → Prop} {ns ms : List Node} {ts us : List Token}

theorem one {n : Node} (holds : P n ts) : Strung P [n] ts :=
  ⟨[], ts, [], (List.append_nil ts).symm, holds, trivial⟩

theorem mono (implies : ∀ n ts, P n ts → Q n ts) (strung : Strung P ns ts) : Strung Q ns ts := by
  induction ns generalizing ts with
  | nil => trivial
  | cons n ns ih =>
    obtain ⟨gap, here, later, split, holds, more⟩ := strung
    exact ⟨gap, here, later, split, implies n here holds, ih more⟩

/-- Tokens may stand in front. -/
theorem behind (front : List Token) (strung : Strung P ns ts) : Strung P ns (front ++ ts) := by
  cases ns with
  | nil => trivial
  | cons n ns =>
    obtain ⟨gap, here, later, rfl, holds, more⟩ := strung
    exact ⟨front ++ gap, here, later, (List.append_assoc ..).symm, holds, more⟩

theorem append (first : Strung P ns ts) (next : Strung P ms us) :
    Strung P (ns ++ ms) (ts ++ us) := by
  induction ns generalizing ts with
  | nil => exact next.behind ts
  | cons n ns ih =>
    obtain ⟨gap, here, later, rfl, holds, more⟩ := first
    exact ⟨gap, here, later ++ us, by simp, holds, ih more⟩

/-- Tokens may stand behind. -/
theorem before (after : List Token) (strung : Strung P ns ts) : Strung P ns (ts ++ after) := by
  have both : Strung P (ns ++ []) (ts ++ after) := strung.append trivial
  rwa [List.append_nil] at both

theorem exists_of_mem {n : Node} (strung : Strung P ns ts) (is : n ∈ ns) :
    ∃ before here after, ts = before ++ (here ++ after) ∧ P n here := by
  induction ns generalizing ts with
  | nil => cases is
  | cons m ns ih =>
    obtain ⟨gap, here, later, rfl, holds, more⟩ := strung
    rcases List.mem_cons.mp is with rfl | is
    · exact ⟨gap, here, later, rfl, holds⟩
    · obtain ⟨before, there, after, rfl, holds⟩ := ih more is
      exact ⟨gap ++ (here ++ before), there, after, by simp, holds⟩

end Strung

/-! ## Nodes and their tokens -/

/-- The node has the range of the tokens. -/
def Ranged (input : Input) (n : Node) (ts : List Token) : Prop :=
  ∃ first more, ts = first :: more ∧ n.pos = some (input.spanned first more)

/-- **A node stands at its tokens**: they spell it, its range is theirs, and its children are
read from those between the first one and the last one. -/
structure Stands (input : Input) (parameters : List String) (n : Node) (ts : List Token) :
    Prop where
  read : ∃ first more, ts = first :: more ∧
    ReadFrom input (n.Spelled parameters) n.pos first more
  parts : n.children = [] ∨ ∃ first inner close, ts = first :: (inner ++ [close]) ∧
    Strung (Ranged input) n.children inner

/-- **A node is located at tokens**: it stands at them, and everything in it stands at some of
them. -/
structure Located (input : Input) (parameters : List String) (n : Node) (ts : List Token) :
    Prop where
  stands : Stands input parameters n ts
  inside : ∀ m, m.Within n → ∃ before here after, ts = before ++ (here ++ after) ∧
    Stands input parameters m here

namespace Located

variable {n : Node} {ts : List Token}

theorem spelled (located : Located input parameters n ts) :
    n.Spelled parameters (ts.map Token.lexeme) := by
  obtain ⟨first, more, rfl, read⟩ := located.stands.read
  exact read.spelled

theorem ranged (located : Located input parameters n ts) : Ranged input n ts := by
  obtain ⟨first, more, rfl, read⟩ := located.stands.read
  exact ⟨first, more, rfl, read.ranged⟩

/-- A node without children has nothing else in it. -/
theorem leaf {first : Token} {more : List Token}
    (read : ReadFrom input (n.Spelled parameters) n.pos first more) (none : n.children = []) :
    Located input parameters n (first :: more) := by
  have stands : Stands input parameters n (first :: more) := ⟨⟨_, _, rfl, read⟩, .inl none⟩
  refine ⟨stands, fun m inside => ?_⟩
  cases inside with
  | here => exact ⟨[], _, [], by simp, stands⟩
  | child is =>
    rw [none] at is
    cases is

/-- **Between parentheses** a node is located when its children are, one behind the other. -/
theorem closed {start close : Token} {more : List Token} (inner : List Token)
    (split : more = inner ++ [close]) (opens : start.lexeme = .opening)
    (closes : close.lexeme = .closing)
    (pos : n.pos = some ⟨start.start, close.stop, some input.source⟩)
    (spelled : n.Spelled parameters (parenthesised (inner.map Token.lexeme)))
    (strung : Strung (Located input parameters) n.children inner) :
    Located input parameters n (start :: more) := by
  subst split
  have read : ReadFrom input (n.Spelled parameters) n.pos start (inner ++ [close]) :=
    pos ▸ .closed inner rfl opens closes spelled
  have stands : Stands input parameters n (start :: (inner ++ [close])) :=
    ⟨⟨_, _, rfl, read⟩, .inr ⟨start, inner, close, rfl, strung.mono fun _ _ => ranged⟩⟩
  refine ⟨stands, fun m inside => ?_⟩
  cases inside with
  | here => exact ⟨[], _, [], by simp, stands⟩
  | child is inside =>
    obtain ⟨before, there, after, rfl, located⟩ := strung.exists_of_mem is
    obtain ⟨before', here, after', rfl, holds⟩ := located.inside m inside
    exact ⟨start :: (before ++ before'), here, after' ++ (after ++ [close]), by simp, holds⟩

/-- What is a term alone can be a label. -/
theorem label {t : Term} (located : Located input parameters (.term t) ts) :
    Located input parameters (.label t) ts := by
  obtain ⟨⟨⟨first, more, rfl, read⟩, parts⟩, inside⟩ := located
  have stands : Stands input parameters (.label t) (first :: more) :=
    ⟨⟨first, more, rfl, .inl read.spelled, read.ranged⟩, parts⟩
  refine ⟨stands, fun m within => ?_⟩
  cases within with
  | here => exact ⟨[], _, [], by simp, stands⟩
  | child is within => exact inside m (.child (m := .term t) is within)

end Located

/-! ## Items with parts -/

/-- **Tokens hold an item**: they spell it, and its parts are located among them. -/
structure Held (input : Input) (parameters : List String) (spells : α → List Lexeme → Prop)
    (parts : α → List Node) (a : α) (ts : List Token) : Prop where
  spelled : spells a (ts.map Token.lexeme)
  strung : Strung (Located input parameters) (parts a) ts

/-- Each item is in the relation with some tokens, one behind the other. -/
def TakenAll (P : α → List Token → Prop) : List α → List Token → Prop
  | [], ts => ts = []
  | a :: as, ts => ∃ here later, ts = here ++ later ∧ P a here ∧ TakenAll P as later

namespace TakenAll

variable {P : α → List Token → Prop} {as : List α} {ts : List Token}

theorem spelled {spells : α → List Lexeme → Prop}
    (implies : ∀ a ts, P a ts → spells a (ts.map Token.lexeme)) (taken : TakenAll P as ts) :
    SpelledAll spells as (ts.map Token.lexeme) := by
  induction as generalizing ts with
  | nil => exact List.map_eq_nil_iff.mpr taken
  | cons a as ih =>
    obtain ⟨here, later, rfl, holds, more⟩ := taken
    exact ⟨_, _, List.map_append .., implies a here holds, ih more⟩

/-- The parts of items that follow each other do so too. -/
theorem strung {Q : Node → List Token → Prop} {parts : α → List Node}
    (implies : ∀ a ts, P a ts → Strung Q (parts a) ts) (taken : TakenAll P as ts) :
    Strung Q (as.flatMap parts) ts := by
  induction as generalizing ts with
  | nil => trivial
  | cons a as ih =>
    obtain ⟨here, later, rfl, holds, more⟩ := taken
    rw [List.flatMap_cons]
    exact (implies a here holds).append (ih more)

/-- Items that are held one behind the other are held together. -/
theorem held {spells : α → List Lexeme → Prop} {parts : α → List Node}
    (taken : TakenAll (Held input parameters spells parts) as ts) :
    Held input parameters (SpelledAll spells) (List.flatMap parts) as ts :=
  ⟨taken.spelled fun _ _ held => held.spelled, taken.strung fun _ _ held => held.strung⟩

/-- Nodes that are located one behind the other stand in a row. -/
theorem located {node : α → Node} (taken : TakenAll (fun a => Located input parameters (node a))
    as ts) : Held input parameters (SpelledAll fun a => (node a).Spelled parameters)
      (List.map node) as ts := by
  refine ⟨taken.spelled fun _ _ located => located.spelled, ?_⟩
  rw [List.map_eq_flatMap]
  exact taken.strung fun _ _ located => .one located

end TakenAll

end Reader

end SmtSession
