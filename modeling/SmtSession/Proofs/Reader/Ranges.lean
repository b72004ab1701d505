import SmtSession.Proofs.Reader.Commands
import SmtSession.Proofs.Reader.Whole

/-!
# Ranges delimit text that can be read again

**Every part of a term that is read has a range**, and what stands there is read as that part
when it stands alone: terms as terms, sorts as sorts. The range of a node holds those of its
children, in the order of the source and apart from each other.

The readers locate every node at some tokens; here these are followed into the text. What
spells lexemes in front of other characters does so without them (`Written.alone`), so what is
cut out at a range is a layout of the lexemes that the node is spelled with.
-/

namespace SmtSession

/-- What is written takes some characters. -/
theorem Written.length_pos {behind : List Char} {ls : List Lexeme} {cs : List Char}
    (here : Written behind ls cs) : 0 < cs.length := by
  cases here with
  | last writable _ => exact List.length_pos_iff.mpr (Token.chars_ne_nil writable)
  | lexeme writable _ _ _ =>
    have some := List.length_pos_iff.mpr (Token.chars_ne_nil writable)
    simp only [List.length_append]
    omega

/-! ## Nodes at their ranges -/

namespace Node

/-- A text is read as the node, apart from positions. A label is no term alone. -/
def ReadAlone (n : Node) (source : Source) : Prop :=
  match n with
  | .term t => ∃ r, readTerm source = .ok r ∧ r.bare = t.bare
  | .sort σ => ∃ r, readSort source = .ok r ∧ r.bare = σ.bare
  | .label _ => True

/-- The range of a node holds that of another one, with something left at both ends. -/
def Encloses (n c : Node) : Prop :=
  ∃ p q, n.pos = some p ∧ c.pos = some q ∧ p.start < q.start ∧ q.stop < p.stop

/-- A node ends before the other one starts. -/
def Precedes (n m : Node) : Prop :=
  ∃ p q, n.pos = some p ∧ m.pos = some q ∧ p.stop ≤ q.start

/-- A text that spells a node is read as it. -/
theorem readAlone_of_spelled {n : Node} {ls : List Lexeme} {text : String}
    (spelled : n.Spelled [] ls) (laid : Laid ls text.toList) (location : Option String) :
    n.ReadAlone ⟨text, location⟩ := by
  cases n with
  | term t => exact Reader.readAll_of_reads (Reader.nextTerm_reads spelled) laid location
  | sort σ => exact Reader.readAll_of_reads (Reader.nextSort_reads spelled) laid location
  | label t => trivial

end Node

/-- **A node is delimited in a source**: it has a range there, what stands at the range is read
as the node, and the ranges of its children are inside, in order and apart. -/
structure Source.Delimits (source : Source) (n : Node) : Prop where
  slice : ∃ start stop, n.pos = some ⟨start, stop, some source⟩ ∧ start < stop ∧
    stop ≤ source.text.toList.length ∧
    ∀ location, n.ReadAlone ⟨source.slice start stop, location⟩
  encloses : ∀ c ∈ n.children, n.Encloses c
  ordered : n.children.Pairwise Node.Precedes

namespace Reader

variable {input : Input} {n : Node} {ts : List Token}

/-- The range of some tokens is that from one of them to another. -/
theorem Ranged.ends (ranged : Ranged input n ts) : ∃ first ∈ ts, ∃ last ∈ ts,
    n.pos = some ⟨first.start, last.stop, some input.source⟩ := by
  obtain ⟨first, more, rfl, is⟩ := ranged
  exact ⟨first, List.mem_cons_self, more.getLastD first, List.getLastD_mem_cons .., is⟩

/-- Nodes in a row among ordered tokens precede each other. -/
theorem Strung.precedes {ns : List Node} (strung : Strung (Ranged input) ns ts)
    (ordered : ts.Pairwise fun t u => t.stop ≤ u.start) : ns.Pairwise Node.Precedes := by
  induction ns generalizing ts with
  | nil => exact .nil
  | cons n ns ih =>
    obtain ⟨gap, here, later, rfl, ranged, more⟩ := strung
    obtain ⟨-, ordered, -⟩ := List.pairwise_append.mp ordered
    obtain ⟨-, ordered, apart⟩ := List.pairwise_append.mp ordered
    refine .cons (fun m is => ?_) (ih more ordered)
    obtain ⟨before, there, after, rfl, ranged'⟩ := more.exists_of_mem is
    obtain ⟨_, _, last, last_is, pos⟩ := ranged.ends
    obtain ⟨first, first_is, _, _, pos'⟩ := ranged'.ends
    exact ⟨_, _, pos, pos', apart last last_is first (by simp [first_is])⟩

/-- A node that stands at ordered tokens encloses its children. -/
theorem Stands.encloses (stands : Stands input [] n ts) (proper : ∀ t ∈ ts, t.start < t.stop)
    (ordered : ts.Pairwise fun t u => t.stop ≤ u.start) {c : Node} (is : c ∈ n.children) :
    n.Encloses c := by
  obtain ⟨⟨first, more, rfl, read⟩, none | ⟨_, inner, close, same, strung⟩⟩ := stands
  · rw [none] at is
    cases is
  cases same
  obtain ⟨before, here, after, rfl, ranged⟩ := strung.exists_of_mem is
  obtain ⟨start, start_is, stop, stop_is, pos⟩ := ranged.ends
  obtain ⟨first_before, inner_ordered⟩ := List.pairwise_cons.mp ordered
  obtain ⟨-, -, before_close⟩ := List.pairwise_append.mp inner_ordered
  have early : first.stop ≤ start.start := first_before start (by simp [start_is])
  have late : stop.stop ≤ close.start :=
    before_close stop (by simp [stop_is]) close List.mem_cons_self
  have first_proper := proper first List.mem_cons_self
  have close_proper := proper close (by simp)
  have range : n.pos = some ⟨first.start, close.stop, some input.source⟩ := by
    rw [read.ranged]
    simp [Input.spanned]
  refine ⟨_, _, range, pos, ?_, ?_⟩
  · show first.start < start.start
    omega
  · show stop.stop < close.stop
    omega

/-- **A node that stands at tokens of a text is delimited there.** -/
theorem Stands.delimits {source : Source} {ending : Ending} {before after : List Token}
    {text tail : List Char} (stands : Stands ⟨source, ending⟩ [] n ts)
    (placed : Token.Placed tail 0 (before ++ (ts ++ after)) text)
    (whole : source.text.toList = text ++ tail) : source.Delimits n := by
  obtain ⟨proper, ordered⟩ := placed.ordered
  obtain ⟨-, ordered, -⟩ := List.pairwise_append.mp ordered
  obtain ⟨ordered, -, -⟩ := List.pairwise_append.mp ordered
  have proper : ∀ t ∈ ts, t.start < t.stop := fun t is => proper t (by simp [is])
  refine ⟨?_, fun c is => stands.encloses proper ordered is, ?_⟩
  · obtain ⟨first, more, rfl, read⟩ := stands.read
    obtain ⟨front, rest, rfl, behind⟩ := placed.drop
    obtain ⟨gap, written, left, rfl, -, here, starts, stops, -⟩ := behind.split
    have ranged : n.pos = some ⟨(front ++ gap).length, (front ++ gap).length + written.length,
        some source⟩ := by
      rw [read.ranged, Input.spanned, starts, stops, List.length_append, Nat.zero_add]
    have cut : source.text.toList = (front ++ gap) ++ (written ++ (left ++ tail)) := by
      rw [whole]
      simp
    refine ⟨_, _, ranged, Nat.lt_add_of_pos_right here.length_pos, ?_, fun location => ?_⟩
    · rw [cut]
      simp only [List.length_append]
      omega
    · refine n.readAlone_of_spelled read.spelled ?_ location
      rw [Source.slice_eq cut, String.toList_ofList]
      exact here.laid_alone
  · obtain ⟨-, none | ⟨first, inner, close, rfl, strung⟩⟩ := stands
    · rw [none]
      exact .nil
    · obtain ⟨-, inner_ordered⟩ := List.pairwise_cons.mp ordered
      exact strung.precedes (List.pairwise_append.mp inner_ordered).1

end Reader

/-- **Every part of a term that is read is delimited in its source**: the term itself, what
stands in it where a term may stand, the sorts of its binders and qualified identifiers, and
its labels. -/
theorem readTerm_delimits {source : Source} {t : Term} (read : readTerm source = .ok t)
    (n : Node) (inside : n.Within (.term t)) : source.Delimits n := by
  obtain ⟨located, text, tail, whole, placed, -⟩ :=
    taken_of_readAll read Reader.Takes.term_located
  obtain ⟨before, here, after, split, stands⟩ := located.inside n inside
  exact stands.delimits (split ▸ placed) whole

/-- A quoted symbol, a comment with a parenthesis in it and a quote in a string. -/
theorem readTerm_delimits_application :
    let source : Source := ⟨"(f (g |x y|) ; (h\r\n \"s\"\"t\")", none⟩
    ∃ t, readTerm source = .ok t ∧
      (t.parts.map fun n => n.pos.map fun p => source.slice p.start p.stop) =
        [some "f", some "(g |x y|)", some "\"s\"\"t\""] ∧
      ∀ n, n.Within (.term t) → source.Delimits n := by
  intro source
  have slices : ((readTerm source).toOption.map fun t =>
      t.parts.map fun n => n.pos.map fun p => source.slice p.start p.stop) =
        some [some "f", some "(g |x y|)", some "\"s\"\"t\""] := by decide +kernel
  cases read : readTerm source with
  | error e =>
    rw [read] at slices
    cases slices
  | ok t =>
    rw [read] at slices
    exact ⟨t, rfl, Option.some.inj slices, readTerm_delimits read⟩

end SmtSession
