import SmtSession.Proofs.Dialect.Desugaring
import SmtSession.Reader.Command

/-!
# How terms, sorts and commands are spelled

**A spelling** is a list of lexemes. `Spelled` relates a term, a sort or a command
to its spellings, apart from any reader and any position: a name is plain or
between bars, and everything else follows the layouts of the input language.

Where a term may stand, a plain name is no reserved word; a name that is being
declared, an index, and the value of an annotation may be one. A plain `Bool` is
the Boolean sort, so a sort of that name is between bars. What no layout covers
has no spelling.
-/

namespace SmtSession

/-! ## Names and numerals -/

namespace Lexeme

/-- The lexeme is a symbol of the name. -/
def Names (name : String) : Lexeme → Prop
  | .plain text => text = name ∧ AtomClass.ofChars text.toList = .symbol
  | .quoted content => content = name
  | _ => False

/-- The same where a term may stand: a plain name is no reserved word. -/
def NamesTerm (name : String) (l : Lexeme) : Prop :=
  l.Names name ∧ (l = .plain name → name ∉ Reader.reservedWords)

/-- The lexeme is the numeral of the number. -/
def Counts (n : Int) : Lexeme → Prop
  | .plain text => ∃ value, AtomClass.ofChars text.toList = .numeral value ∧ n = value
  | _ => False

/-- The lexeme is a plain atom of the class. -/
def HasClass (class_ : AtomClass) : Lexeme → Prop
  | .plain text => AtomClass.ofChars text.toList = class_
  | _ => False

end Lexeme

open Lexeme (Names NamesTerm Counts HasClass)

/-- Each item is spelled by one lexeme. -/
def SpelledEach (spells : α → Lexeme → Prop) : List α → List Lexeme → Prop
  | [], ls => ls = []
  | a :: as, ls => ∃ l ls', ls = l :: ls' ∧ spells a l ∧ SpelledEach spells as ls'

/-- Each item is spelled by some lexemes, one behind the other. -/
def SpelledAll (spells : α → List Lexeme → Prop) : List α → List Lexeme → Prop
  | [], ls => ls = []
  | a :: as, ls => ∃ here later, ls = here ++ later ∧ spells a here ∧ SpelledAll spells as later

/-- What stands between parentheses. -/
def parenthesised (ls : List Lexeme) : List Lexeme :=
  .opening :: (ls ++ [.closing])

/-! ## Sorts -/

namespace SmtSort

mutual

/-- How a sort is spelled where some names are sort parameters. -/
def Spelled (parameters : List String) : SmtSort → List Lexeme → Prop
  | .bool _, ls => ls = [.plain "Bool"] ∧ "Bool" ∉ parameters
  | .parameter name _, ls => ∃ l : Lexeme, ls = [l] ∧ l.Names name ∧ name ∈ parameters
  | .family name args indices _, ls =>
    (args = [] ∧ indices = [] ∧
      ∃ l : Lexeme, ls = [l] ∧ l.Names name ∧ name ∉ parameters ∧ l ≠ .plain "Bool") ∨
    (args ≠ [] ∧ indices = [] ∧
      ∃ (head : Lexeme) (ss : List Lexeme), ls = parenthesised (head :: ss) ∧ head.Names name ∧
        head ≠ .plain "_" ∧ AllSpelled parameters args ss) ∨
    (args = [] ∧ indices ≠ [] ∧
      ∃ (head : Lexeme) (is : List Lexeme), ls = parenthesised (.plain "_" :: head :: is) ∧
        head.Names name ∧ SpelledEach (fun i l => ∃ n, i = .number n ∧ l.Counts n) indices is)
  | _, _ => False

/-- How several sorts are spelled, one behind the other. -/
def AllSpelled (parameters : List String) : List SmtSort → List Lexeme → Prop
  | [], ls => ls = []
  | s :: ss, ls =>
    ∃ here later, ls = here ++ later ∧ Spelled parameters s here ∧ AllSpelled parameters ss later

end

end SmtSort

/-- How a variable with its sort is spelled. -/
def Declaration.Spelled (decl : Declaration) (ls : List Lexeme) : Prop :=
  ∃ (name : Lexeme) (sort : List Lexeme), ls = parenthesised (name :: sort) ∧
    name.Names decl.parameter.name ∧ decl.sort.Spelled [] sort

/-! ## Terms -/

/-- How an index is spelled. -/
def Index.Spelled : Index → Lexeme → Prop
  | .number n, l => l.Counts n
  | .name text, l => l.Names text

namespace Term

/-- A symbol where a word that is reserved counts as one. -/
def SpelledWord : Term → List Lexeme → Prop
  | .symbol s, ls => ∃ l : Lexeme, ls = [l] ∧ l.Names s.name
  | _, _ => False

/-- The term is a keyword. -/
def IsKeyword : Term → Prop
  | .keyword _ => True
  | _ => False

mutual

/-- How a term is spelled. -/
def Spelled : Term → List Lexeme → Prop
  | .numeral value _, ls => ∃ l : Lexeme, ls = [l] ∧ l.Counts value
  | .decimal text _, ls => ls = [.plain text] ∧ HasClass .decimal (.plain text)
  | .hex digits _, ls => ∃ l : Lexeme, ls = [l] ∧ l.HasClass (.hex digits)
  | .binary digits _, ls => ∃ l : Lexeme, ls = [l] ∧ l.HasClass (.binary digits)
  | .string content _, ls => ls = [.string content]
  | .symbol s, ls => ∃ l : Lexeme, ls = [l] ∧ l.NamesTerm s.name
  | .keyword k, ls => ls = [.plain k.name] ∧ HasClass .keyword (.plain k.name)
  | .qualified s σ _, ls =>
    ∃ (name : Lexeme) (ss : List Lexeme), ls = parenthesised (.plain "as" :: name :: ss) ∧
      name.Names s.name ∧ σ.Spelled [] ss
  | .indexed s indices _, ls =>
    indices ≠ [] ∧ ∃ (name : Lexeme) (is : List Lexeme),
      ls = parenthesised (.plain "_" :: name :: is) ∧ name.Names s.name ∧
        SpelledEach Index.Spelled indices is
  | .apply head args _, ls =>
    IsIdentifier head ∧ ∃ hs as : List Lexeme, ls = parenthesised (hs ++ as) ∧ Spelled head hs ∧
      AllSpelled args as
  | .quantified q parameters body _, ls =>
    parameters ≠ [] ∧ ∃ ds bs : List Lexeme,
      ls = parenthesised (.plain q.word :: (parenthesised ds ++ bs)) ∧
        SpelledAll Declaration.Spelled parameters ds ∧ Spelled body bs
  | .letIn bindings body _, ls =>
    bindings ≠ [] ∧ ∃ bs ts : List Lexeme,
      ls = parenthesised (.plain "let" :: (parenthesised bs ++ ts)) ∧
        BindingsSpelled bindings bs ∧ Spelled body ts
  | .attributed term attributes _, ls =>
    attributes ≠ [] ∧ ∃ ts as : List Lexeme, ls = parenthesised (.plain "!" :: (ts ++ as)) ∧
      Spelled term ts ∧ AttributesSpelled attributes as
  | _, _ => False

/-- How several terms are spelled, one behind the other. -/
def AllSpelled : List Term → List Lexeme → Prop
  | [], ls => ls = []
  | t :: ts, ls => ∃ here later, ls = here ++ later ∧ Spelled t here ∧ AllSpelled ts later

/-- How bindings are spelled, one behind the other. -/
def BindingsSpelled : List Binding → List Lexeme → Prop
  | [], ls => ls = []
  | .mk s t :: bs, ls =>
    ∃ (name : Lexeme) (ts later : List Lexeme), ls = parenthesised (name :: ts) ++ later ∧
      name.Names s.name ∧ Spelled t ts ∧ BindingsSpelled bs later

/-- How annotations are spelled, one behind the other. The value of one may be
absent, and is no keyword. -/
def AttributesSpelled : List Attribute → List Lexeme → Prop
  | [], ls => ls = []
  | .mk k none :: as, ls =>
    ∃ later, ls = .plain k.name :: later ∧ HasClass .keyword (.plain k.name) ∧
      AttributesSpelled as later
  | .mk k (some v) :: as, ls =>
    ∃ vs later, ls = .plain k.name :: (vs ++ later) ∧ HasClass .keyword (.plain k.name) ∧
      ¬ IsKeyword v ∧ (Spelled v vs ∨ SpelledWord v vs) ∧ AttributesSpelled as later

end

end Term

/-! ## Commands -/

/-- How the value of an option or of information is spelled: as a term, or as a
word that is reserved. -/
def Setting.Spelled : Setting → List Lexeme → Prop
  | .term v, ls => v.Spelled ls ∨ v.SpelledWord ls
  | _, _ => False

/-- How a keyword is spelled. -/
def Keyword.Spelled (k : Keyword) (l : Lexeme) : Prop :=
  l = .plain k.name ∧ l.HasClass .keyword

/-- How a count is spelled; the default may be left out. -/
def SpelledCount (default n : Int) (ls : List Lexeme) : Prop :=
  (ls = [] ∧ n = default) ∨ ∃ l : Lexeme, ls = [l] ∧ l.Counts n

namespace Command

/-- How the arguments of a command are spelled. -/
def ArgumentsSpelled : Command → List Lexeme → Prop
  | .setLogic logic, ls => ∃ l : Lexeme, ls = [l] ∧ l.Names logic.name
  | .setOption k v, ls => ∃ l vs, ls = l :: vs ∧ k.Spelled l ∧ v.Spelled vs
  | .getOption k, ls => ∃ l, ls = [l] ∧ k.Spelled l
  | .setInfo k .absent, ls => ∃ l, ls = [l] ∧ k.Spelled l
  | .setInfo k v, ls => ∃ l vs, ls = l :: vs ∧ k.Spelled l ∧ v.Spelled vs
  | .getInfo k, ls => ∃ l, ls = [l] ∧ k.Spelled l
  | .declareFun name args result, ls =>
    ∃ (l : Lexeme) (as rs : List Lexeme), ls = l :: (parenthesised as ++ rs) ∧ l.Names name.name ∧
      SmtSort.AllSpelled [] args as ∧ result.Spelled [] rs
  | .declareConst name sort, ls =>
    ∃ (l : Lexeme) (ss : List Lexeme), ls = l :: ss ∧ l.Names name.name ∧ sort.Spelled [] ss
  | .defineFun name parameters result body, ls =>
    ∃ (l : Lexeme) (ds rs bs : List Lexeme), ls = l :: (parenthesised ds ++ (rs ++ bs)) ∧
      l.Names name.name ∧ SpelledAll Declaration.Spelled parameters ds ∧ result.Spelled [] rs ∧
      body.Spelled bs
  | .declareSort name arity, ls =>
    ∃ (l : Lexeme) (ns : List Lexeme), ls = l :: ns ∧ l.Names name.name ∧ SpelledCount 0 arity ns
  | .defineSort name parameters definition, ls =>
    ∃ (l : Lexeme) (ps ds : List Lexeme), ls = l :: (parenthesised ps ++ ds) ∧ l.Names name.name ∧
      SpelledEach (fun p l => l.Names p.name) parameters ps ∧
      definition.Spelled (parameters.map Symbol.name) ds
  | .assert term, ls => term.Spelled ls
  | .push count, ls => SpelledCount 1 count ls
  | .pop count, ls => SpelledCount 1 count ls
  | .getValue terms, ls =>
    terms ≠ [] ∧ ∃ ts, ls = parenthesised ts ∧ Term.AllSpelled terms ts
  | .echo (.string content _), ls => ls = [.string content]
  | .echo _, _ => False
  | .other _, _ => False
  | _, ls => ls = []

/-- How a command is spelled. -/
def Spelled (c : Command) (ls : List Lexeme) : Prop :=
  ∃ args, ls = parenthesised (.plain c.name :: args) ∧ c.ArgumentsSpelled args

end Command

/-! ## Without positions -/

/-- The symbol without its position. -/
def Symbol.bare (s : Symbol) : Symbol :=
  { name := s.name }

/-- The keyword without its position. -/
def Keyword.bare (k : Keyword) : Keyword :=
  { name := k.name }

namespace SmtSort

mutual

/-- The sort without positions. -/
def bare : SmtSort → SmtSort
  | .bool _ => .bool none
  | .family name args indices _ => .family name (bareAll args) indices none
  | .abbreviation name parameters definition _ =>
    .abbreviation name parameters (bare definition) none
  | .function args result _ => .function (bareAll args) (bare result) none
  | .parameter name _ => .parameter name none

def bareAll : List SmtSort → List SmtSort
  | [] => []
  | s :: ss => bare s :: bareAll ss

end

end SmtSort

/-- The variable without positions. -/
def Declaration.bare (decl : Declaration) : Declaration :=
  ⟨decl.parameter.bare, decl.sort.bare⟩

namespace Term

mutual

/-- The term without positions. -/
def bare : Term → Term
  | .numeral value _ => .numeral value none
  | .decimal text _ => .decimal text none
  | .hex digits _ => .hex digits none
  | .binary digits _ => .binary digits none
  | .string content _ => .string content none
  | .symbol s => .symbol s.bare
  | .keyword k => .keyword k.bare
  | .qualified s σ _ => .qualified s.bare σ.bare none
  | .indexed s indices _ => .indexed s.bare indices none
  | .apply head args _ => .apply (bare head) (bareAll args) none
  | .quantified q parameters body _ =>
    .quantified q (parameters.map Declaration.bare) (bare body) none
  | .letIn bindings body _ => .letIn (bareBindings bindings) (bare body) none
  | .attributed term attributes _ => .attributed (bare term) (bareAttributes attributes) none
  | .error message _ => .error message none
  | .sort s => .sort s.bare
  | .declaration d => .declaration d.bare
  | .binding (.mk s t) => .binding (.mk s.bare (bare t))
  | .attr (.mk k none) => .attr (.mk k.bare none)
  | .attr (.mk k (some v)) => .attr (.mk k.bare (some (bare v)))

def bareAll : List Term → List Term
  | [] => []
  | t :: ts => bare t :: bareAll ts

def bareBindings : List Binding → List Binding
  | [] => []
  | .mk s t :: bs => .mk s.bare (bare t) :: bareBindings bs

def bareAttributes : List Attribute → List Attribute
  | [] => []
  | .mk k none :: as => .mk k.bare none :: bareAttributes as
  | .mk k (some v) :: as => .mk k.bare (some (bare v)) :: bareAttributes as

end

end Term

/-- The value without positions. -/
def Setting.bare : Setting → Setting
  | .term v => .term v.bare
  | v => v

/-- The command without positions. -/
def Command.bare : Command → Command
  | .setLogic logic => .setLogic logic.bare
  | .setOption k v => .setOption k.bare v.bare
  | .getOption k => .getOption k.bare
  | .setInfo k v => .setInfo k.bare v.bare
  | .getInfo k => .getInfo k.bare
  | .declareFun name args result => .declareFun name.bare (SmtSort.bareAll args) result.bare
  | .declareConst name sort => .declareConst name.bare sort.bare
  | .defineFun name parameters result body =>
    .defineFun name.bare (parameters.map Declaration.bare) result.bare body.bare
  | .declareSort name arity => .declareSort name.bare arity
  | .defineSort name parameters definition =>
    .defineSort name.bare (parameters.map Symbol.bare) definition.bare
  | .assert term => .assert term.bare
  | .push count => .push count
  | .pop count => .pop count
  | .checkSat => .checkSat
  | .getValue terms => .getValue (Term.bareAll terms)
  | .getProof => .getProof
  | .getUnsatCore => .getUnsatCore
  | .getAssignment => .getAssignment
  | .exit => .exit
  | .echo message => .echo message.bare
  | .getModel => .getModel
  | .getAssertions => .getAssertions
  | .reset => .reset
  | .resetAssertions => .resetAssertions
  | .other name => .other name

end SmtSession
