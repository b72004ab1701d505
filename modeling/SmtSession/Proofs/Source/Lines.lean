import Mathlib.Data.List.TakeWhile
import Mathlib.Data.Set.Card
import SmtSession.Source

/-!
# The lines of a source

**A line ends at its terminator**: a carriage return and a line feed, or one of the two alone.
`Source.Terminator` says so of a range of offsets, whatever stands around it; the table of line
starts is made by one scan that takes both characters at once. `mem_startsAfter` joins the two:
what the scan lists is where terminators end.

The rest is read off that. The table is strictly increasing, so a search by halving finds in it
what counting does (`bisect_eq`), and the last entry up to an offset is the greatest
(`isGreatest_takeWhile`). Each line, with its terminator, runs up to where the next one starts,
so the lines in order are the whole text.
-/

namespace SmtSession

namespace Source

/-! ## Terminators -/

/-- A line terminator takes the range. -/
inductive Terminator (s : Source) : Nat → Nat → Prop
  | both {o : Nat} (first : s.text.toList[o]? = some '\r')
      (second : s.text.toList[o + 1]? = some '\n') : Terminator s o (o + 2)
  | feed {o : Nat} (here : s.text.toList[o]? = some '\n')
      (alone : ∀ before, o = before + 1 → s.text.toList[before]? ≠ some '\r') :
      Terminator s o (o + 1)
  | carriage {o : Nat} (here : s.text.toList[o]? = some '\r')
      (alone : s.text.toList[o + 1]? ≠ some '\n') : Terminator s o (o + 1)

/-- A line starts at the offset: it is the first one, or behind a terminator. -/
def IsLineStart (s : Source) (offset : Nat) : Prop :=
  offset = 0 ∨ ∃ start, s.Terminator start offset

/-- The character at the offset is the last one of a terminator. -/
def Closes (cs : List Char) (o : Nat) : Prop :=
  cs[o]? = some '\n' ∨ cs[o]? = some '\r' ∧ cs[o + 1]? ≠ some '\n'

/-- The terminator that some characters begin with; nothing if they begin with none. -/
def terminatorOf : List Char → List Char
  | '\r' :: '\n' :: _ => ['\r', '\n']
  | c :: _ => if isLineEnd c then [c] else []
  | [] => []

/-- The terminator of the line that starts at the offset; nothing if the text ends first. -/
def lineEnd (s : Source) (start : Nat) : String :=
  String.ofList (terminatorOf (s.text.toList.drop (start + (s.lineText start).length)))

variable {s : Source} {cs : List Char}

theorem isLineEnd_iff {c : Char} : isLineEnd c = true ↔ c = '\n' ∨ c = '\r' := by
  simp [isLineEnd]

/-- A terminator ends behind its last character, and that says where it starts. -/
theorem terminator_iff {start stop : Nat} :
    s.Terminator start stop ↔ ∃ o, stop = o + 1 ∧ Closes s.text.toList o ∧
      (start = o ∧ (∀ before, o = before + 1 → s.text.toList[o]? = some '\n' →
          s.text.toList[before]? ≠ some '\r') ∨
        o = start + 1 ∧ s.text.toList[o]? = some '\n' ∧ s.text.toList[start]? = some '\r') := by
  constructor
  · intro terminator
    cases terminator with
    | both first second => exact ⟨_, rfl, .inl second, .inr ⟨rfl, second, first⟩⟩
    | feed here alone => exact ⟨_, rfl, .inl here, .inl ⟨rfl, fun before is _ => alone before is⟩⟩
    | carriage here alone =>
      exact ⟨_, rfl, .inr ⟨here, alone⟩, .inl ⟨rfl, fun _ _ feed => by simp [here] at feed⟩⟩
  · rintro ⟨o, rfl, closes, ⟨rfl, alone⟩ | ⟨rfl, second, first⟩⟩
    · rcases closes with here | ⟨here, behind⟩
      · exact .feed here fun before is => alone before is here
      · exact .carriage here behind
    · exact .both first second

/-- **Terminators end behind the characters that close them**, and each has an end of its own. -/
theorem exists_terminator_iff {stop : Nat} :
    (∃ start, s.Terminator start stop) ↔ ∃ o, stop = o + 1 ∧ Closes s.text.toList o := by
  constructor
  · rintro ⟨start, terminator⟩
    obtain ⟨o, is, closes, -⟩ := terminator_iff.mp terminator
    exact ⟨o, is, closes⟩
  · rintro ⟨o, rfl, closes⟩
    by_cases pair : ∃ before, o = before + 1 ∧ s.text.toList[o]? = some '\n' ∧
        s.text.toList[before]? = some '\r'
    · obtain ⟨before, rfl, second, first⟩ := pair
      exact ⟨before, .both first second⟩
    · refine ⟨o, terminator_iff.mpr ⟨o, rfl, closes, .inl ⟨rfl, fun before is feed first => ?_⟩⟩⟩
      exact pair ⟨before, is, feed, first⟩

theorem terminator_unique {start start' stop : Nat} (one : s.Terminator start stop)
    (other : s.Terminator start' stop) : start = start' := by
  obtain ⟨o, rfl, -, here⟩ := terminator_iff.mp one
  obtain ⟨o', same, -, there⟩ := terminator_iff.mp other
  obtain rfl : o = o' := Nat.succ.inj same
  rcases here with ⟨rfl, alone⟩ | ⟨rfl, second, first⟩ <;>
    rcases there with ⟨rfl, alone'⟩ | ⟨is, second', first'⟩
  · rfl
  · exact absurd first' (alone _ is second')
  · exact absurd first (alone' _ rfl second)
  · exact Nat.succ.inj is

/-! ## The table of line starts -/

theorem closes_cons_succ {c : Char} {o : Nat} : Closes (c :: cs) (o + 1) ↔ Closes cs o := by
  simp [Closes]

theorem closes_cons_zero {c : Char} :
    Closes (c :: cs) 0 ↔ c = '\n' ∨ c = '\r' ∧ cs[0]? ≠ some '\n' := by
  simp [Closes]

/-- **The scan lists where terminators end.** -/
theorem mem_startsAfter {k b : Nat} :
    b ∈ startsAfter k cs ↔ ∃ o, b = k + o + 1 ∧ Closes cs o := by
  fun_induction startsAfter k cs with
  | case1 k => simp [Closes]
  | case2 k cs ih =>
    rw [List.mem_cons, ih]
    constructor
    · rintro (rfl | ⟨o, rfl, closes⟩)
      · exact ⟨1, rfl, closes_cons_succ.mpr (closes_cons_zero.mpr (.inl rfl))⟩
      · exact ⟨o + 2, by omega, closes_cons_succ.mpr (closes_cons_succ.mpr closes)⟩
    · rintro ⟨o | o | o, rfl, closes⟩
      · simp [Closes] at closes
      · exact .inl rfl
      · exact .inr ⟨o, by omega, closes_cons_succ.mp (closes_cons_succ.mp closes)⟩
  | case3 k c cs pair ends ih =>
    rw [List.mem_cons, ih]
    have first : Closes (c :: cs) 0 := by
      refine closes_cons_zero.mpr ((isLineEnd_iff.mp ends).imp_right fun is => ⟨is, fun feed => ?_⟩)
      obtain ⟨rest, rfl⟩ := List.head?_eq_some_iff.mp (List.head?_eq_getElem? .. ▸ feed)
      exact pair rest is rfl
    constructor
    · rintro (rfl | ⟨o, rfl, closes⟩)
      · exact ⟨0, rfl, first⟩
      · exact ⟨o + 1, by omega, closes_cons_succ.mpr closes⟩
    · rintro ⟨o | o, rfl, closes⟩
      · exact .inl rfl
      · exact .inr ⟨o, by omega, closes_cons_succ.mp closes⟩
  | case4 k c cs pair plain ih =>
    rw [ih]
    constructor
    · rintro ⟨o, rfl, closes⟩
      exact ⟨o + 1, by omega, closes_cons_succ.mpr closes⟩
    · rintro ⟨o | o, rfl, closes⟩
      · have ends := isLineEnd_iff.mpr ((closes_cons_zero.mp closes).imp_right And.left)
        exact absurd ends plain
      · exact ⟨o, by omega, closes_cons_succ.mp closes⟩

theorem startsAfter_sorted (k : Nat) (cs : List Char) :
    (startsAfter k cs).Pairwise (· < ·) ∧ ∀ b ∈ startsAfter k cs, k < b := by
  refine ⟨?_, fun b is => ?_⟩
  · fun_induction startsAfter k cs with
    | case1 => exact .nil
    | case2 k cs ih =>
      refine List.pairwise_cons.mpr ⟨fun b is => ?_, ih⟩
      obtain ⟨o, rfl, -⟩ := mem_startsAfter.mp is
      omega
    | case3 k c cs _ _ ih =>
      refine List.pairwise_cons.mpr ⟨fun b is => ?_, ih⟩
      obtain ⟨o, rfl, -⟩ := mem_startsAfter.mp is
      omega
    | case4 _ _ _ _ _ ih => exact ih
  · obtain ⟨o, rfl, -⟩ := mem_startsAfter.mp is
    omega

/-- **The table of line starts is strictly increasing.** -/
theorem lineStarts_sorted (s : Source) : s.lineStarts.Pairwise (· < ·) := by
  obtain ⟨sorted, above⟩ := startsAfter_sorted 0 s.text.toList
  exact List.pairwise_cons.mpr ⟨above, sorted⟩

theorem mem_startsAfter_iff {b : Nat} :
    b ∈ startsAfter 0 s.text.toList ↔ ∃ start, s.Terminator start b := by
  rw [mem_startsAfter, exists_terminator_iff]
  simp

theorem mem_lineStarts {b : Nat} : b ∈ s.lineStarts ↔ s.IsLineStart b := by
  rw [lineStarts, List.mem_cons, mem_startsAfter_iff, IsLineStart]

/-! ## Looking up an offset -/

/-- The entries of a list up to a bound are as many as there are values. -/
theorem countP_eq_ncard {l : List Nat} (distinct : l.Nodup) (o : Nat) :
    l.countP (· ≤ o) = {b | b ∈ l ∧ b ≤ o}.ncard := by
  have same : {b | b ∈ l ∧ b ≤ o} = ↑(l.filter (· ≤ o)).toFinset := by
    ext b
    simp
  rw [same, Set.ncard_coe_finset, List.toFinset_card_of_nodup (distinct.filter _),
    List.countP_eq_length_filter]

/-- **A line has one number more than there are terminators in front of it.** -/
theorem lineNumber_eq (s : Source) (o : Nat) :
    s.lineNumber o = 1 + {t : Nat × Nat | s.Terminator t.1 t.2 ∧ t.2 ≤ o}.ncard := by
  have distinct : (startsAfter 0 s.text.toList).Nodup :=
    (startsAfter_sorted 0 _).1.imp Nat.ne_of_lt
  have ends : Prod.snd '' {t : Nat × Nat | s.Terminator t.1 t.2 ∧ t.2 ≤ o} =
      {b | b ∈ startsAfter 0 s.text.toList ∧ b ≤ o} := by
    ext b
    simp [mem_startsAfter_iff]
  have apart : Set.InjOn Prod.snd {t : Nat × Nat | s.Terminator t.1 t.2 ∧ t.2 ≤ o} := by
    rintro ⟨start, stop⟩ ⟨one, -⟩ ⟨start', stop'⟩ ⟨other, -⟩ rfl
    obtain rfl := terminator_unique one other
    rfl
  rw [lineNumber, lineStarts, List.countP_cons_of_pos (by simp), countP_eq_ncard distinct, ← ends,
    apart.ncard_image, Nat.add_comm]

theorem lineNumber_monotone (s : Source) : Monotone s.lineNumber := by
  intro o o' le
  refine List.countP_mono_left fun b _ is => ?_
  simp only [decide_eq_true_eq] at is ⊢
  omega

/-- The last entry up to a bound is the greatest one, as the entries increase. -/
theorem isGreatest_takeWhile {a o : Nat} {l : List Nat} (sorted : (a :: l).Pairwise (· < ·))
    (le : a ≤ o) :
    IsGreatest {b | b ∈ a :: l ∧ b ≤ o} (((a :: l).takeWhile (· ≤ o)).getLastD 0) := by
  induction l generalizing a with
  | nil => simp [le, IsGreatest, upperBounds]
  | cons b l ih =>
    obtain ⟨first, rest⟩ := List.pairwise_cons.mp sorted
    rw [List.takeWhile_cons_of_pos (by simpa using le)]
    by_cases next : b ≤ o
    · obtain ⟨⟨is, below⟩, most⟩ := ih rest next
      have last : (a :: (b :: l).takeWhile (· ≤ o)).getLastD 0 =
          ((b :: l).takeWhile (· ≤ o)).getLastD 0 := by
        rw [List.takeWhile_cons_of_pos (by simpa using next)]
        simp
      rw [last]
      refine ⟨⟨List.mem_cons_of_mem a is, below⟩, ?_⟩
      rintro c ⟨here, small⟩
      rcases List.mem_cons.mp here with rfl | there
      · exact Nat.le_of_lt (first _ is)
      · exact most ⟨there, small⟩
    · rw [List.takeWhile_cons_of_neg (by simpa using next)]
      refine ⟨⟨List.mem_cons_self, le⟩, ?_⟩
      rintro c ⟨here, small⟩
      rcases List.mem_cons.mp here with rfl | there
      · exact Nat.le_refl _
      · rcases List.mem_cons.mp there with rfl | behind
        · exact absurd small next
        · have above := (List.pairwise_cons.mp rest).1 c behind
          omega

/-- **The line that holds an offset starts at the greatest line start not behind it.** -/
theorem lineBeginning_isGreatest (s : Source) (o : Nat) :
    IsGreatest {b | s.IsLineStart b ∧ b ≤ o} (s.lineBeginning o) := by
  have same : {b | s.IsLineStart b ∧ b ≤ o} = {b | b ∈ s.lineStarts ∧ b ≤ o} := by
    ext b
    rw [Set.mem_ofPred_eq, Set.mem_ofPred_eq, mem_lineStarts]
  rw [same]
  exact isGreatest_takeWhile s.lineStarts_sorted (Nat.zero_le o)

theorem lineBeginning_of_isLineStart {b : Nat} (starts : s.IsLineStart b) :
    s.lineBeginning b = b :=
  Nat.le_antisymm (s.lineBeginning_isGreatest b).1.2
    ((s.lineBeginning_isGreatest b).2 ⟨starts, Nat.le_refl b⟩)

/-! ## Search by halving -/

/-- Searches between two places of a table for the first entry beyond the bound. -/
def bisect (table : List Nat) (bound low high : Nat) : Nat :=
  if low < high then
    let middle := (low + high) / 2
    if bound < table.getD middle 0 then bisect table bound low middle
    else bisect table bound (middle + 1) high
  else low
termination_by high - low

/-- In a table that increases, the entries up to a bound come first. -/
theorem getElem_le_iff {table : List Nat} (sorted : table.Pairwise (· < ·)) {i : Nat}
    (inside : i < table.length) (o : Nat) : table[i] ≤ o ↔ i < table.countP (· ≤ o) := by
  induction table generalizing i with
  | nil => exact absurd inside (Nat.not_lt_zero i)
  | cons a table ih =>
    obtain ⟨first, rest⟩ := List.pairwise_cons.mp sorted
    by_cases le : a ≤ o
    · rw [List.countP_cons_of_pos (by simpa using le)]
      cases i with
      | zero => simpa using le
      | succ i => simpa using ih rest (Nat.lt_of_succ_lt_succ inside)
    · have none : table.countP (· ≤ o) = 0 := by
        refine List.countP_eq_zero.mpr fun b is => ?_
        have above := first b is
        simp only [decide_eq_true_eq]
        omega
      rw [List.countP_cons_of_neg (by simpa using le), none]
      cases i with
      | zero => simpa using le
      | succ i =>
        have above := first _ (List.getElem_mem (Nat.lt_of_succ_lt_succ inside))
        simp only [List.getElem_cons_succ]
        omega

theorem bisect_eq {table : List Nat} (sorted : table.Pairwise (· < ·)) {o low high : Nat}
    (above : low ≤ table.countP (· ≤ o)) (below : table.countP (· ≤ o) ≤ high)
    (inside : high ≤ table.length) : bisect table o low high = table.countP (· ≤ o) := by
  fun_induction bisect table o low high with
  | case1 low high less middle beyond ih =>
    have entry : middle < table.length := by omega
    rw [← List.getElem_eq_getD (h := entry)] at beyond
    have last := getElem_le_iff sorted entry o
    exact ih above (by omega) (by omega)
  | case2 low high less middle within ih =>
    have entry : middle < table.length := by omega
    rw [← List.getElem_eq_getD (h := entry)] at within
    have first := getElem_le_iff sorted entry o
    exact ih (by omega) below inside
  | case3 low high done => omega

/-- **Counting finds what halving does.** -/
theorem lineNumber_eq_bisect (s : Source) (o : Nat) :
    s.lineNumber o = bisect s.lineStarts o 0 s.lineStarts.length :=
  (bisect_eq s.lineStarts_sorted (Nat.zero_le _) List.countP_le_length (Nat.le_refl _)).symm

/-! ## All lines in order -/

/-- The first line of some characters, with its terminator. -/
def firstLine (cs : List Char) : List Char :=
  (cs.takeWhile fun c => !isLineEnd c) ++ terminatorOf (cs.dropWhile fun c => !isLineEnd c)

/-- What stands in front is a line that is running, and the scan lists the lines behind it. -/
theorem firstLine_append {text cs : List Char} {k : Nat} (rest : text.drop k = cs) :
    firstLine cs ++ (startsAfter k cs).flatMap (fun b => firstLine (text.drop b)) = cs := by
  fun_induction startsAfter k cs with
  | case1 => rfl
  | case2 k cs ih =>
    have behind : text.drop (k + 2) = cs := by rw [← List.drop_drop, rest]; rfl
    rw [List.flatMap_cons, behind, ih behind]
    rfl
  | case3 k c cs pair ends ih =>
    have behind : text.drop (k + 1) = cs := by rw [← List.drop_drop, rest]; rfl
    have line : firstLine (c :: cs) = [c] := by
      have alone : terminatorOf (c :: cs) = [c] := by
        rw [terminatorOf]
        · rw [if_pos ends]
        · exact pair
      simp [firstLine, ends, alone]
    rw [List.flatMap_cons, behind, ih behind, line, List.singleton_append]
  | case4 k c cs pair plain ih =>
    have behind : text.drop (k + 1) = cs := by rw [← List.drop_drop, rest]; rfl
    have line : firstLine (c :: cs) = c :: firstLine cs := by simp [firstLine, plain]
    rw [line, List.cons_append, ih behind]

variable {b : Nat}

theorem le_of_isLineStart (starts : s.IsLineStart b) : b ≤ s.text.length := by
  rcases starts with rfl | ends
  · exact Nat.zero_le _
  · obtain ⟨o, rfl, closes⟩ := exists_terminator_iff.mp ends
    rw [← String.length_toList]
    rcases closes with here | ⟨here, -⟩
    · exact (List.getElem?_eq_some_iff.mp here).1
    · exact (List.getElem?_eq_some_iff.mp here).1

theorem lineText_of_isLineStart (starts : s.IsLineStart b) :
    (s.lineText b).toList = (s.text.toList.drop b).takeWhile fun c => !isLineEnd c := by
  rw [lineText, lineBeginning_of_isLineStart starts, String.toList_ofList]

/-- **A text is cut around the line** that starts at an offset: what is in front of it, its own
text, and what begins with a terminator or is nothing. -/
theorem split_of_isLineStart (starts : s.IsLineStart b) :
    ∃ before rest, s.text.toList = before ++ ((s.lineText b).toList ++ rest) ∧ before.length = b ∧
      rest = ((s.text.toList.drop b).dropWhile fun c => !isLineEnd c) ∧
      s.lineEnd b = String.ofList (terminatorOf rest) ∧
      ∀ c, rest.head? = some c → isLineEnd c = true := by
  have line := lineText_of_isLineStart starts
  have size : (s.text.toList.take b).length = b := by
    rw [List.length_take, String.length_toList, Nat.min_eq_left (le_of_isLineStart starts)]
  have whole : s.text.toList = s.text.toList.take b ++ ((s.lineText b).toList ++
      (s.text.toList.drop b).dropWhile fun c => !isLineEnd c) := by
    rw [line, List.takeWhile_append_dropWhile, List.take_append_drop]
  refine ⟨_, _, whole, size, rfl, ?_, fun c first => ?_⟩
  · have behind : List.drop (s.lineText b).toList.length ((s.lineText b).toList ++
        (s.text.toList.drop b).dropWhile fun c => !isLineEnd c) = _ := List.drop_left
    nth_rewrite 2 [line] at behind
    rw [List.takeWhile_append_dropWhile, List.drop_drop, String.length_toList] at behind
    rw [lineEnd, behind]
  · have ends := List.head?_dropWhile_not (fun c => !isLineEnd c) (s.text.toList.drop b)
    rw [first] at ends
    simpa using ends

/-- A line with its terminator is the first one of what stands at its start. -/
theorem lineText_append_lineEnd (starts : s.IsLineStart b) :
    (s.lineText b ++ s.lineEnd b).toList = firstLine (s.text.toList.drop b) := by
  obtain ⟨_, _, -, -, rfl, ends, -⟩ := split_of_isLineStart starts
  rw [String.toList_append, lineText_of_isLineStart starts, ends, String.toList_ofList, firstLine]

/-- No line feed follows a carriage return that stands last in front of the end of a line. -/
theorem not_feed_of_carriage (starts : s.IsLineStart b) {o : Nat}
    (last : b + (s.lineText b).length = o + 1) (carriage : s.text.toList[o]? = some '\r') :
    s.text.toList[o + 1]? ≠ some '\n' := by
  obtain ⟨before, rest, whole, rfl, -⟩ := split_of_isLineStart starts
  by_cases inside : before.length ≤ o
  · -- it would be a character of the line's own text
    have within : o - before.length < (s.lineText before.length).toList.length := by
      rw [String.length_toList]
      omega
    rw [whole, List.getElem?_append_right inside, List.getElem?_append_left within] at carriage
    have here := List.mem_of_getElem? carriage
    rw [lineText_of_isLineStart starts] at here
    exact absurd (List.mem_takeWhile_imp here) (by decide)
  · -- the line has no text, so the one in front of it ends here
    have empty : before.length = o + 1 := by omega
    obtain ⟨o', same, closes⟩ :=
      exists_terminator_iff.mp (starts.resolve_left (empty ▸ Nat.succ_ne_zero o))
    obtain rfl : o = o' := Nat.succ.inj (empty.symm.trans same)
    rcases closes with feed | ⟨-, behind⟩
    · simp [carriage] at feed
    · exact behind

/-- **Each line runs up to its terminator**, or to the end of the text. -/
theorem ended_of_isLineStart (starts : s.IsLineStart b) :
    b + (s.lineText b).length = s.text.length ∧ s.lineEnd b = "" ∨
      s.Terminator (b + (s.lineText b).length)
        (b + (s.lineText b).length + (s.lineEnd b).length) := by
  have carriage {o : Nat} := not_feed_of_carriage (o := o) starts
  obtain ⟨before, rest, whole, rfl, -, ends, first⟩ := split_of_isLineStart starts
  have size : before.length + (s.lineText before.length).length =
      (before ++ (s.lineText before.length).toList).length := by
    rw [List.length_append, String.length_toList]
  rw [← List.append_assoc] at whole
  have behind (i : Nat) : s.text.toList[before.length + (s.lineText before.length).length + i]? =
      rest[i]? := by
    rw [whole, size, List.getElem?_append_right (Nat.le_add_right ..), Nat.add_sub_cancel_left]
  generalize before.length + (s.lineText before.length).length = o at *
  have here : s.text.toList[o]? = rest[0]? := behind 0
  have next : s.text.toList[o + 1]? = rest[1]? := behind 1
  cases rest with
  | nil =>
    refine .inl ⟨?_, by rw [ends]; rfl⟩
    rw [size, ← String.length_toList, whole, List.append_nil]
  | cons c rest =>
    right
    rw [ends, String.length_ofList]
    rcases isLineEnd_iff.mp (first c rfl) with rfl | rfl
    · exact .feed here fun o is return_ => carriage is return_ (is ▸ here)
    · by_cases feed : rest.head? = some '\n'
      · obtain ⟨rest, rfl⟩ := List.head?_eq_some_iff.mp feed
        exact .both here next
      · have alone : terminatorOf ('\r' :: rest) = ['\r'] := by
          rw [terminatorOf]
          · rfl
          · rintro _ _ rfl
            exact feed rfl
        rw [alone]
        exact .carriage here (by rw [next]; simpa [List.head?_eq_getElem?] using feed)

/-- What it is for a source to be taken apart into lines. Offsets may lie anywhere, also behind
the end of the text. -/
structure Lined (s : Source) : Prop where
  /-- A line has one number more than there are terminators in front of it. -/
  number : ∀ o, s.lineNumber o = 1 + {t : Nat × Nat | s.Terminator t.1 t.2 ∧ t.2 ≤ o}.ncard
  monotone : Monotone s.lineNumber
  /-- The table of line starts can be searched by halving. -/
  halved : ∀ o, s.lineNumber o = bisect s.lineStarts o 0 s.lineStarts.length
  beginning : ∀ o, IsGreatest {b | s.IsLineStart b ∧ b ≤ o} (s.lineBeginning o)
  plain : ∀ o, ∀ c ∈ (s.lineText o).toList, isLineEnd c = false
  /-- The lines are listed in order, each once. -/
  sorted : s.lineStarts.Pairwise (· < ·)
  starts : ∀ b, b ∈ s.lineStarts ↔ s.IsLineStart b
  ended : ∀ b, s.IsLineStart b →
    b + (s.lineText b).length = s.text.length ∧ s.lineEnd b = "" ∨
      s.Terminator (b + (s.lineText b).length)
        (b + (s.lineText b).length + (s.lineEnd b).length)
  /-- The lines with their terminators are the text. -/
  whole : String.join (s.lineStarts.map fun b => s.lineText b ++ s.lineEnd b) = s.text

/-- **Every source is taken apart into lines**, whatever terminators it mixes. -/
theorem lined (s : Source) : s.Lined where
  number := s.lineNumber_eq
  monotone := s.lineNumber_monotone
  halved := s.lineNumber_eq_bisect
  beginning := s.lineBeginning_isGreatest
  plain o c is := by
    rw [lineText, String.toList_ofList] at is
    simpa using List.mem_takeWhile_imp is
  sorted := s.lineStarts_sorted
  starts _ := mem_lineStarts
  ended _ := ended_of_isLineStart
  whole := by
    rw [← String.toList_inj, String.toList_join, List.flatMap_map]
    calc s.lineStarts.flatMap (fun b => (s.lineText b ++ s.lineEnd b).toList)
      _ = s.lineStarts.flatMap fun b => firstLine (s.text.toList.drop b) :=
        List.flatMap_congr fun b is => lineText_append_lineEnd (mem_lineStarts.mp is)
      _ = s.text.toList := by
        rw [lineStarts, List.flatMap_cons]
        exact firstLine_append rfl

/-- A carriage return in front of both, and a line feed in front of a carriage return. -/
example : (Source.mk "a\r\r\nb\n\rc" none).lineStarts = [0, 2, 4, 6, 7] := by decide +kernel

end Source

end SmtSession
