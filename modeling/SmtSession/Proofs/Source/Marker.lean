import SmtSession.Proofs.Reader.Extent
import SmtSession.Proofs.Source.Lines

/-!
# The marker under a line

**The carets stand under what the range has on its first line.** A line has no end in its own text,
so behind a line's start and up to a character of it all characters are the line's
(`plainAt_of_between`), and its text from there is the text from there up to the next line end
(`lineText_drop`). The width is clamped on both sides; on a range that has a character of the line
the clamp takes away what lies on other lines and nothing else.

A range that has no character of the line, because it is empty, starts at or behind the line's end
or stops before it starts, is marked by one caret.
-/

namespace SmtSession

namespace Source

/-- A character stands at the offset that belongs to the text of a line. -/
def PlainAt (s : Source) (o : Nat) : Prop :=
  ∃ c, s.text.toList[o]? = some c ∧ isLineEnd c = false

variable {s : Source} {start o : Nat} {stop : Int}

/-! ## Characters of one line -/

theorem not_plainAt_of_closes (closes : Closes s.text.toList o) : ¬ s.PlainAt o := by
  rintro ⟨c, here, plain⟩
  rcases closes with feed | ⟨carriage, -⟩
  · obtain rfl : c = '\n' := Option.some.inj (here.symm.trans feed)
    exact absurd plain (by decide)
  · obtain rfl : c = '\r' := Option.some.inj (here.symm.trans carriage)
    exact absurd plain (by decide)

/-- Behind a character that closes a terminator a line starts. -/
theorem isLineStart_of_closes (closes : Closes s.text.toList o) : s.IsLineStart (o + 1) :=
  .inr (exists_terminator_iff.mpr ⟨o, rfl, closes⟩)

/-- From the start of its line up to a character, **all characters belong to the line**. -/
theorem plainAt_of_between (here : s.PlainAt o) {i : Nat} (from_ : s.lineBeginning o ≤ i)
    (upTo : i ≤ o) : s.PlainAt i := by
  have greatest := (s.lineBeginning_isGreatest o).2
  -- behind a terminator that is closed in front of `o`, a later line would start
  have open_ {j : Nat} (from_ : s.lineBeginning o ≤ j) (upTo : j ≤ o) :
      ¬ Closes s.text.toList j := by
    intro closes
    have before : j ≠ o := fun is => not_plainAt_of_closes (is ▸ closes) here
    have later := greatest ⟨isLineStart_of_closes closes, by omega⟩
    omega
  obtain ⟨c, at_, plain⟩ := here
  have inside : i < s.text.toList.length :=
    Nat.lt_of_le_of_lt upTo (List.getElem?_eq_some_iff.mp at_).1
  refine ⟨s.text.toList[i], List.getElem?_eq_getElem inside, ?_⟩
  refine Bool.eq_false_iff.mpr fun ends => ?_
  rcases isLineEnd_iff.mp ends with feed | carriage
  · exact open_ from_ upTo (.inl (feed ▸ List.getElem?_eq_getElem inside))
  · have first : s.text.toList[i]? = some '\r' := carriage ▸ List.getElem?_eq_getElem inside
    by_cases second : s.text.toList[i + 1]? = some '\n'
    · -- both characters of the terminator stand in front of `o`, which is neither of them
      have other : i ≠ o := by
        rintro rfl
        obtain rfl : c = '\r' := Option.some.inj (at_.symm.trans first)
        exact absurd plain (by decide)
      exact open_ (Nat.le_succ_of_le from_) (by omega) (.inl second)
    · exact open_ from_ upTo (.inr ⟨first, second⟩)

/-- Where no character in between ends a line, **no line starts in between**. -/
theorem lineBeginning_of_plainAt (le : start ≤ o)
    (between : ∀ i, start ≤ i → i < o → s.PlainAt i) :
    s.lineBeginning o = s.lineBeginning start := by
  obtain ⟨⟨starts, upTo⟩, greatest⟩ := s.lineBeginning_isGreatest o
  obtain ⟨⟨starts', upTo'⟩, greatest'⟩ := s.lineBeginning_isGreatest start
  refine Nat.le_antisymm (greatest' ⟨starts, ?_⟩) (greatest ⟨starts', upTo'.trans le⟩)
  by_contra behind
  rcases starts with first | ends
  · omega
  · obtain ⟨i, is, closes⟩ := exists_terminator_iff.mp ends
    exact not_plainAt_of_closes closes (between i (by omega) (by omega))

/-- From a character on, the text of its line is the text **up to the next line end**. -/
theorem lineText_drop (here : s.PlainAt start) :
    (s.lineText start).toList.drop (s.indent start) =
      (s.text.toList.drop start).takeWhile fun c => !isLineEnd c := by
  have le : s.lineBeginning start ≤ start := (s.lineBeginning_isGreatest start).1.2
  have inside : start < s.text.toList.length := by
    obtain ⟨c, at_, -⟩ := here
    exact (List.getElem?_eq_some_iff.mp at_).1
  have size : ((s.text.toList.drop (s.lineBeginning start)).take (s.indent start)).length =
      s.indent start := by
    rw [List.length_take, List.length_drop, indent]
    omega
  have front : ∀ c ∈ (s.text.toList.drop (s.lineBeginning start)).take (s.indent start),
      (!isLineEnd c) = true := by
    intro c is
    obtain ⟨i, less, rfl⟩ := List.mem_iff_getElem.mp is
    rw [size, indent] at less
    obtain ⟨d, at_, plain⟩ := plainAt_of_between here (Nat.le_add_right _ i) (by omega)
    rw [List.getElem_take, List.getElem_drop, (List.getElem?_eq_some_iff.mp at_).2, plain]
    rfl
  have whole : s.text.toList.drop (s.lineBeginning start) =
      (s.text.toList.drop (s.lineBeginning start)).take (s.indent start) ++
        s.text.toList.drop start := by
    have rest := List.take_append_drop (s.indent start) (s.text.toList.drop (s.lineBeginning start))
    rw [List.drop_drop, indent, Nat.add_sub_cancel' le] at rest
    exact rest.symm
  rw [lineText, String.toList_ofList, whole, List.takeWhile_append_of_pos front]
  nth_rewrite 1 [← size]
  exact List.drop_left

/-- The text up to the next line end goes beyond an offset exactly if **all characters up to it
belong to a line**. -/
theorem lt_length_takeWhile_iff {i : Nat} :
    i < ((s.text.toList.drop start).takeWhile fun c => !isLineEnd c).length ↔
      ∀ j ≤ i, s.PlainAt (start + j) := by
  generalize rest : s.text.toList.drop start = cs
  have at_ (j : Nat) : s.PlainAt (start + j) ↔ ∃ c, cs[j]? = some c ∧ isLineEnd c = false := by
    rw [← rest, List.getElem?_drop]
    rfl
  simp only [at_]
  clear rest at_
  induction cs generalizing i with
  | nil => simpa using ⟨i, Nat.le_refl i⟩
  | cons c cs ih =>
    cases plain : isLineEnd c with
    | true => simpa [plain] using ⟨0, Nat.zero_le i, by simp [plain]⟩
    | false =>
      rw [List.takeWhile_cons_of_pos (by simp [plain]), List.length_cons]
      cases i with
      | zero => simp [plain]
      | succ i =>
        refine Nat.succ_lt_succ_iff.trans (ih.trans ⟨?_, ?_⟩)
        · intro all j le
          cases j with
          | zero => exact ⟨c, rfl, plain⟩
          | succ j => exact all j (Nat.le_of_succ_le_succ le)
        · exact fun all j le => all (j + 1) (Nat.succ_le_succ le)

/-! ## The width of the marker -/

/-- How a range is shown: its place, the line of its first character, and a row of blanks and
carets under it. -/
structure Marked (s : Source) (start : Nat) (stop : Int) (carets : Nat) : Prop where
  /-- The blanks reach up to the column of the first character. -/
  shown : s.describe start stop = s.place start ++ "\n" ++ s.lineText start ++ "\n" ++
    String.ofList (List.replicate (s.column start - 1) ' ' ++ List.replicate carets '^')
  one : 1 ≤ carets
  most : (carets : Int) ≤ max 1 (stop - start)
  /-- Over the carets stands what the range has up to the next line end, one character over
  each. -/
  above : start < stop → s.PlainAt start →
    ((s.lineText start).toList.drop (s.column start - 1)).take carets =
        ((s.slice start stop.toNat).toList.takeWhile fun c => !isLineEnd c) ∧
      ((s.slice start stop.toNat).toList.takeWhile fun c => !isLineEnd c).length = carets
  /-- The carets mark the offsets of the range that lie on the line of its first character. -/
  covered : start < stop → s.PlainAt start → ∀ o, start ≤ o →
    (o < start + carets ↔ (o : Int) < stop ∧ s.PlainAt o ∧ s.lineBeginning o = s.lineBeginning start)

/-- On a range that has a character of a line, the width is the part of the range that is in front
of the next line end. -/
theorem markerWidth_of_plainAt (less : start < stop) (here : s.PlainAt start) :
    s.markerWidth start stop = min (stop.toNat - start)
      ((s.text.toList.drop start).takeWhile fun c => !isLineEnd c).length := by
  have some_ : 0 < ((s.text.toList.drop start).takeWhile fun c => !isLineEnd c).length :=
    lt_length_takeWhile_iff.mpr fun j le => Nat.le_zero.mp le ▸ here
  have rest := congrArg List.length (lineText_drop here)
  rw [List.length_drop, String.length_toList] at rest
  rw [markerWidth]
  omega

/-- What a range has up to the next line end stands over the carets. -/
theorem take_markerWidth (less : start < stop) (here : s.PlainAt start) :
    ((s.lineText start).toList.drop (s.column start - 1)).take (s.markerWidth start stop) =
        ((s.slice start stop.toNat).toList.takeWhile fun c => !isLineEnd c) ∧
      ((s.slice start stop.toNat).toList.takeWhile fun c => !isLineEnd c).length =
        s.markerWidth start stop := by
  have part : ((s.slice start stop.toNat).toList.takeWhile fun c => !isLineEnd c) =
      ((s.text.toList.drop start).takeWhile fun c => !isLineEnd c).take (stop.toNat - start) := by
    rw [slice, String.toList_ofList, List.take_takeWhile]
  rw [part, column, Nat.add_sub_cancel, lineText_drop here, markerWidth_of_plainAt less here,
    List.length_take]
  exact ⟨List.take_eq_take_min.symm, rfl⟩

/-- The carets mark the offsets of the range that lie on the line of its first character. -/
theorem lt_markerWidth_iff (less : start < stop) (here : s.PlainAt start) (le : start ≤ o) :
    o < start + s.markerWidth start stop ↔
      (o : Int) < stop ∧ s.PlainAt o ∧ s.lineBeginning o = s.lineBeginning start := by
  obtain ⟨i, rfl⟩ := Nat.exists_eq_add_of_le le
  have split : start + i < start + s.markerWidth start stop ↔
      ((start + i : Nat) : Int) < stop ∧ ∀ j ≤ i, s.PlainAt (start + j) := by
    rw [markerWidth_of_plainAt less here, Nat.add_lt_add_iff_left, Nat.lt_min,
      lt_length_takeWhile_iff]
    exact and_congr_left' (by omega)
  rw [split]
  refine and_congr_right' ⟨fun all => ⟨all i (Nat.le_refl i), ?_⟩, ?_⟩
  · refine lineBeginning_of_plainAt le fun j from_ upTo => ?_
    obtain ⟨k, rfl⟩ := Nat.exists_eq_add_of_le from_
    exact all k (by omega)
  · rintro ⟨there, same⟩ j upTo
    have le' : s.lineBeginning start ≤ start := (s.lineBeginning_isGreatest start).1.2
    exact plainAt_of_between there (by omega) (by omega)

/-- **Every range is marked under its first line**, also one that is empty, stops before it starts
or is behind the end of the text. -/
theorem underlined (s : Source) (start : Nat) (stop : Int) :
    (∃ carets, s.Marked start stop carets) ∧
      ∀ p : Pos, p.source = some s → p.start = start → (p.stop : Int) = stop →
        p.describe = s.describe start stop ∧ p.column = some (s.column start) ∧
          p.lineText = some (s.lineText start) := by
  refine ⟨⟨s.markerWidth start stop, ?_⟩, ?_⟩
  · exact
      { shown := rfl
        one := by
          rw [markerWidth]
          omega
        most := by
          rw [markerWidth]
          omega
        above := take_markerWidth
        covered := fun less here _ => lt_markerWidth_iff less here }
  · rintro ⟨_, _, _⟩ rfl rfl rfl
    exact ⟨rfl, rfl, rfl⟩

/-- The range runs over two lines; the marker stops at the end of the first. -/
example : (Source.mk "ab\r\ncd" none).describe 1 6 = "<input>:1:2\nab\n ^" := by decide +kernel

end Source

end SmtSession
