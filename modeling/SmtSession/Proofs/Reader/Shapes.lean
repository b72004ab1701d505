import SmtSession.Proofs.Reader.Layout
import SmtSession.Proofs.Reader.Spelling

/-!
# What can be written, and how

**The shapes** of terms, sorts and commands that a text can stand for: numbers are
not negative, literals have the digits of their base, keywords begin with a colon,
binders bind something. Names and the contents of strings are arbitrary, since bars
and quotes take any text. A sort parameter is one of the listed names, and a sort of
a listed name is that parameter.

`lexemes` picks one spelling of each: a name is plain where that is read as a symbol
and is no reserved word, and between bars otherwise; a count is never left out.
-/

namespace SmtSession

/-! ## Names and numbers -/

namespace Lexeme

/-- The check that a text can be an atom. -/
def isAtomText (text : List Char) : Bool :=
  !text.isEmpty && text.all (fun c => !Token.isDelimiter c) && text.getLast? != some '\r'

theorem isAtomText_eq_true {text : List Char} : isAtomText text = true ↔ IsAtomText text := by
  constructor
  · intro is
    simp only [isAtomText, Bool.and_eq_true, Bool.not_eq_true', List.isEmpty_eq_false_iff,
      List.all_eq_true, bne_iff_ne] at is
    exact ⟨is.1.1, is.1.2, is.2⟩
  · rintro ⟨nonempty, inner, last⟩
    simp only [isAtomText, Bool.and_eq_true, Bool.not_eq_true', List.isEmpty_eq_false_iff,
      List.all_eq_true, bne_iff_ne]
    exact ⟨⟨nonempty, inner⟩, last⟩

instance (text : List Char) : Decidable (IsAtomText text) :=
  decidable_of_iff _ isAtomText_eq_true

/-- The lexeme that a name is written as. -/
def ofName (name : String) : Lexeme :=
  if IsAtomText name.toList ∧ AtomClass.ofChars name.toList = .symbol ∧
      name ∉ Reader.reservedWords then
    .plain name
  else
    .quoted name

/-- The same for the name of a sort, which a plain `Bool` is not. -/
def ofSortName (name : String) : Lexeme :=
  if name = "Bool" then .quoted name else ofName name

/-- The lexeme that a number is written as. -/
def ofNumber (n : Int) : Lexeme :=
  .plain (toString n)

end Lexeme

open Lexeme (ofName ofSortName ofNumber)

/-- A text that is read as a keyword. -/
def Keyword.Shaped (k : Keyword) : Prop :=
  k.name.toList.head? = some ':' ∧ Lexeme.IsAtomText k.name.toList

namespace Index

def Shaped : Index → Prop
  | .number n => 0 ≤ n
  | .name _ => True

def lexeme : Index → Lexeme
  | .number n => ofNumber n
  | .name text => ofName text

end Index

/-! ## Sorts -/

namespace SmtSort

mutual

/-- The sort can be written where some names are sort parameters. -/
def Shaped (parameters : List String) : SmtSort → Prop
  | .bool _ => "Bool" ∉ parameters
  | .parameter name _ => name ∈ parameters
  | .family name args indices _ =>
    (args = [] ∧ indices = [] ∧ name ∉ parameters) ∨
    (args ≠ [] ∧ indices = [] ∧ AllShaped parameters args) ∨
    (args = [] ∧ indices ≠ [] ∧ ∀ i ∈ indices, ∃ n : Nat, i = .number n)
  | _ => False

def AllShaped (parameters : List String) : List SmtSort → Prop
  | [] => True
  | s :: ss => Shaped parameters s ∧ AllShaped parameters ss

end

mutual

/-- How the sort is written. -/
def lexemes : SmtSort → List Lexeme
  | .bool _ => [.plain "Bool"]
  | .parameter name _ => [ofName name]
  | .family name [] [] _ => [ofSortName name]
  | .family name [] indices _ =>
    parenthesised (.plain "_" :: ofSortName name :: indices.map Index.lexeme)
  | .family name args _ _ => parenthesised (ofSortName name :: allLexemes args)
  | _ => []

def allLexemes : List SmtSort → List Lexeme
  | [] => []
  | s :: ss => lexemes s ++ allLexemes ss

end

end SmtSort

namespace Declaration

def Shaped (decl : Declaration) : Prop :=
  decl.sort.Shaped []

def lexemes (decl : Declaration) : List Lexeme :=
  parenthesised (ofName decl.parameter.name :: decl.sort.lexemes)

end Declaration

/-! ## Terms -/

namespace Term

mutual

/-- The term can be written. -/
def Shaped : Term → Prop
  | .numeral value _ => 0 ≤ value
  | .decimal text _ => AtomClass.isDecimal text.toList = true
  | .hex digits _ => digits.toList ≠ [] ∧ ∀ c ∈ digits.toList, AtomClass.isHexDigit c = true
  | .binary digits _ => digits.toList ≠ [] ∧ ∀ c ∈ digits.toList, c = '0' ∨ c = '1'
  | .string _ _ => True
  | .symbol _ => True
  | .keyword k => k.Shaped
  | .qualified _ σ _ => σ.Shaped []
  | .indexed _ indices _ => indices ≠ [] ∧ ∀ i ∈ indices, i.Shaped
  | .apply head args _ => IsIdentifier head ∧ Shaped head ∧ AllShaped args
  | .quantified _ parameters body _ =>
    parameters ≠ [] ∧ (∀ decl ∈ parameters, decl.Shaped) ∧ Shaped body
  | .letIn bindings body _ => bindings ≠ [] ∧ BindingsShaped bindings ∧ Shaped body
  | .attributed term attributes _ => attributes ≠ [] ∧ Shaped term ∧ AttributesShaped attributes
  | _ => False

def AllShaped : List Term → Prop
  | [] => True
  | t :: ts => Shaped t ∧ AllShaped ts

def BindingsShaped : List Binding → Prop
  | [] => True
  | .mk _ t :: bs => Shaped t ∧ BindingsShaped bs

def AttributesShaped : List Attribute → Prop
  | [] => True
  | .mk k none :: as => k.Shaped ∧ AttributesShaped as
  | .mk k (some v) :: as => k.Shaped ∧ ¬ IsKeyword v ∧ Shaped v ∧ AttributesShaped as

end

mutual

/-- How the term is written. -/
def lexemes : Term → List Lexeme
  | .numeral value _ => [ofNumber value]
  | .decimal text _ => [.plain text]
  | .hex digits _ => [.plain ("#x" ++ digits)]
  | .binary digits _ => [.plain ("#b" ++ digits)]
  | .string content _ => [.string content]
  | .symbol s => [ofName s.name]
  | .keyword k => [.plain k.name]
  | .qualified s σ _ => parenthesised (.plain "as" :: ofName s.name :: σ.lexemes)
  | .indexed s indices _ => parenthesised (.plain "_" :: ofName s.name :: indices.map Index.lexeme)
  | .apply head args _ => parenthesised (lexemes head ++ allLexemes args)
  | .quantified q parameters body _ => parenthesised
    (.plain q.word :: (parenthesised (parameters.flatMap Declaration.lexemes) ++ lexemes body))
  | .letIn bindings body _ => parenthesised
    (.plain "let" :: (parenthesised (bindingsLexemes bindings) ++ lexemes body))
  | .attributed term attributes _ => parenthesised
    (.plain "!" :: (lexemes term ++ attributesLexemes attributes))
  | _ => []

def allLexemes : List Term → List Lexeme
  | [] => []
  | t :: ts => lexemes t ++ allLexemes ts

def bindingsLexemes : List Binding → List Lexeme
  | [] => []
  | .mk s t :: bs => parenthesised (ofName s.name :: lexemes t) ++ bindingsLexemes bs

def attributesLexemes : List Attribute → List Lexeme
  | [] => []
  | .mk k none :: as => .plain k.name :: attributesLexemes as
  | .mk k (some v) :: as => .plain k.name :: (lexemes v ++ attributesLexemes as)

end

end Term

/-! ## Commands -/

namespace Setting

def Shaped : Setting → Prop
  | .term v => v.Shaped
  | _ => False

def lexemes : Setting → List Lexeme
  | .term v => v.lexemes
  | _ => []

end Setting

namespace Command

/-- The command can be written. -/
def Shaped : Command → Prop
  | .setOption k v => k.Shaped ∧ v.Shaped
  | .getOption k => k.Shaped
  | .setInfo k .absent => k.Shaped
  | .setInfo k v => k.Shaped ∧ v.Shaped
  | .getInfo k => k.Shaped
  | .declareFun _ args result => SmtSort.AllShaped [] args ∧ result.Shaped []
  | .declareConst _ sort => sort.Shaped []
  | .defineFun _ parameters result body =>
    (∀ decl ∈ parameters, decl.Shaped) ∧ result.Shaped [] ∧ body.Shaped
  | .declareSort _ arity => 0 ≤ arity
  | .defineSort _ parameters definition => definition.Shaped (parameters.map Symbol.name)
  | .assert term => term.Shaped
  | .push count => 0 ≤ count
  | .pop count => 0 ≤ count
  | .getValue terms => terms ≠ [] ∧ Term.AllShaped terms
  | .echo (.string _ _) => True
  | .echo _ => False
  | .other _ => False
  | _ => True

/-- How the arguments of the command are written. -/
def argumentLexemes : Command → List Lexeme
  | .setLogic logic => [ofName logic.name]
  | .setOption k v => .plain k.name :: v.lexemes
  | .getOption k => [.plain k.name]
  | .setInfo k v => .plain k.name :: v.lexemes
  | .getInfo k => [.plain k.name]
  | .declareFun name args result =>
    ofName name.name :: (parenthesised (SmtSort.allLexemes args) ++ result.lexemes)
  | .declareConst name sort => ofName name.name :: sort.lexemes
  | .defineFun name parameters result body =>
    ofName name.name :: (parenthesised (parameters.flatMap Declaration.lexemes) ++
      (result.lexemes ++ body.lexemes))
  | .declareSort name arity => [ofName name.name, ofNumber arity]
  | .defineSort name parameters definition =>
    ofName name.name ::
      (parenthesised (parameters.map fun p => ofName p.name) ++ definition.lexemes)
  | .assert term => term.lexemes
  | .push count => [ofNumber count]
  | .pop count => [ofNumber count]
  | .getValue terms => parenthesised (Term.allLexemes terms)
  | .echo (.string content _) => [.string content]
  | _ => []

/-- How the command is written. -/
def lexemes (c : Command) : List Lexeme :=
  parenthesised (.plain c.name :: c.argumentLexemes)

end Command

end SmtSession
