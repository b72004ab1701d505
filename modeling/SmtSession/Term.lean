import SmtSession.SmtSort

/-!
# Terms

**A term** is kept as written: applications keep all their arguments,
annotations stay in place, and nothing is resolved or simplified. Each node
carries the range it was read from, for messages; `Term.sameAs` does not look
at ranges.

The type admits more trees than the reader builds. Any term can be the head
of an application, and `sort`, `declaration`, `binding` and `attr` are
nodes of the other kinds put where a term is expected. A caller can build
such trees by hand; what becomes of them is the business of each operation.
-/

namespace SmtSession

/-- Which of the two quantifiers. -/
inductive Quantifier
  | universal
  | existential
  deriving DecidableEq, Inhabited

/-- The word that opens a quantified term. -/
def Quantifier.word : Quantifier → String
  | .universal => "forall"
  | .existential => "exists"

mutual

/-- A term, or a node of another kind in the place of one. -/
inductive Term
  | numeral (value : Int) (pos : Option Pos)
  /-- A decimal literal, as it is written. -/
  | decimal (text : String) (pos : Option Pos)
  /-- A hexadecimal literal; only the digits are kept. -/
  | hex (digits : String) (pos : Option Pos)
  /-- A binary literal; only the digits are kept. -/
  | binary (digits : String) (pos : Option Pos)
  /-- A string literal, with its content unquoted. -/
  | string (content : String) (pos : Option Pos)
  | symbol (symbol : Symbol)
  | keyword (keyword : Keyword)
  /-- A symbol with the sort it is meant at. -/
  | qualified (symbol : Symbol) (sort : SmtSort) (pos : Option Pos)
  /-- A symbol with indices. -/
  | indexed (symbol : Symbol) (indices : List Index) (pos : Option Pos)
  | apply (head : Term) (args : List Term) (pos : Option Pos)
  | quantified (quantifier : Quantifier) (parameters : List Declaration) (body : Term)
      (pos : Option Pos)
  | letIn (bindings : List Binding) (body : Term) (pos : Option Pos)
  /-- A term with annotations. -/
  | attributed (term : Term) (attributes : List Attribute) (pos : Option Pos)
  /-- Stands for input that could not be read. -/
  | error (message : String) (pos : Option Pos)
  | sort (sort : SmtSort)
  | declaration (declaration : Declaration)
  | binding (binding : Binding)
  | attr (attr : Attribute)

/-- A variable of a let-term, with the term it is bound to. -/
inductive Binding
  | mk (parameter : Symbol) (term : Term)

/-- An attribute of a term: a keyword, and a value that may be absent. -/
inductive Attribute
  | mk (keyword : Keyword) (value : Option Term)

end

namespace Term

instance : Inhabited Term := ⟨.numeral 0 none⟩

/-- The range the node was read from. Declarations, bindings and annotations
have none of their own. -/
def pos : Term → Option Pos
  | .numeral _ p => p
  | .decimal _ p => p
  | .hex _ p => p
  | .binary _ p => p
  | .string _ p => p
  | .symbol s => s.pos
  | .keyword k => k.pos
  | .qualified _ _ p => p
  | .indexed _ _ p => p
  | .apply _ _ p => p
  | .quantified _ _ _ p => p
  | .letIn _ _ p => p
  | .attributed _ _ p => p
  | .error _ p => p
  | .sort s => s.pos
  | .declaration _ => none
  | .binding _ => none
  | .attr _ => none

mutual

/-- The same term, wherever its parts stand. Terms of different kinds differ,
also when they would be written alike. -/
def sameAs : Term → Term → Bool
  | .numeral v _, .numeral w _ => v == w
  | .decimal t _, .decimal u _ => t == u
  | .hex d _, .hex e _ => d == e
  | .binary d _, .binary e _ => d == e
  | .string s _, .string t _ => s == t
  | .symbol s, .symbol t => s.sameAs t
  | .keyword k, .keyword l => k.sameAs l
  | .qualified s σ _, .qualified t τ _ => s.sameAs t && σ.sameAs τ
  | .indexed s is _, .indexed t js _ => s.sameAs t && is == js
  | .apply f as _, .apply g bs _ => sameAs f g && sameAll as bs
  | .quantified q ds b _, .quantified r es c _ =>
    q == r && Declaration.sameAll ds es && sameAs b c
  | .letIn bs b _, .letIn cs c _ => sameBindings bs cs && sameAs b c
  | .attributed t as _, .attributed u bs _ => sameAs t u && sameAttributes as bs
  | .error m _, .error n _ => m == n
  | .sort σ, .sort τ => σ.sameAs τ
  | .declaration d, .declaration e => d.sameAs e
  | .binding (.mk s t), .binding (.mk r u) => s.sameAs r && sameAs t u
  | .attr (.mk k none), .attr (.mk l none) => k.sameAs l
  | .attr (.mk k (some t)), .attr (.mk l (some u)) => k.sameAs l && sameAs t u
  | _, _ => false

/-- The same terms in the same order. -/
def sameAll : List Term → List Term → Bool
  | [], [] => true
  | t :: ts, u :: us => sameAs t u && sameAll ts us
  | _, _ => false

/-- The same bindings in the same order. -/
def sameBindings : List Binding → List Binding → Bool
  | [], [] => true
  | .mk s t :: bs, .mk r u :: cs => s.sameAs r && sameAs t u && sameBindings bs cs
  | _, _ => false

/-- The same annotations in the same order. -/
def sameAttributes : List Attribute → List Attribute → Bool
  | [], [] => true
  | .mk k none :: as, .mk l none :: bs => k.sameAs l && sameAttributes as bs
  | .mk k (some t) :: as, .mk l (some u) :: bs => k.sameAs l && sameAs t u && sameAttributes as bs
  | _, _ => false

end

end Term

end SmtSession
