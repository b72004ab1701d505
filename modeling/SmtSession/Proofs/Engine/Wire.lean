import SmtSession.Backend
import SmtSession.Engine.Stack

/-!
# How the stack engine takes the wires of a session

The engine tells commands apart by how their text begins, once blanks at both
ends are stripped. Every wire is one expression on a line of its own, so what
is left is that expression: `strip_line`. The lemmas of the second part say
what the engine answers to the wire of each request, and what becomes of its
scopes, whatever text the request puts into the wire.
-/

namespace SmtSession

/-! ## Stripping a line -/

namespace Text

theorem dropTrailing_concat (p : α → Bool) (as : List α) (b : α) :
    dropTrailing p (as ++ [b]) = if p b then dropTrailing p as else as ++ [b] := by
  induction as with
  | nil => rfl
  | cons a as ih =>
    rw [List.cons_append, dropTrailing, ih]
    by_cases h : p b
    · rw [if_pos h, if_pos h]
      rfl
    · rw [if_neg h, if_neg h]
      cases as with
      | nil => rfl
      | cons c cs => rfl

/-- Only the line feed is stripped from an expression in parentheses. -/
theorem strip_parenthesised (body : List Char) :
    strip (String.ofList ('(' :: (body ++ [')', '\n']))) =
      String.ofList ('(' :: (body ++ [')'])) := by
  have opened : isBlank '(' = false := by decide
  have closed : isBlank ')' = false := by decide
  have feed : isBlank '\n' = true := by decide
  have split : '(' :: (body ++ [')', '\n']) = ('(' :: body ++ [')']) ++ ['\n'] := by simp
  rw [strip, String.toList_ofList, List.dropWhile_cons_of_neg (by simp [opened]), split,
    dropTrailing_concat, if_pos feed, dropTrailing_concat, if_neg (by simp [closed])]
  rfl

end Text

namespace SExpr

/-- The characters of a list between its parentheses. -/
theorem toList_text_list (items : List SExpr) :
    (SExpr.list items).text.toList =
      '(' :: ((String.intercalate " " (texts items)).toList ++ [')']) := by
  simp [text]

/-- A call with arguments: the head, a space, and the arguments. -/
theorem text_call_cons (name : String) (e : SExpr) (es : List SExpr) :
    (call (.atom name) (e :: es)).text =
      "(" ++ name ++ " " ++ String.intercalate " " (texts (e :: es)) ++ ")" := by
  simp only [call, text, texts, String.intercalate_cons_cons, String.append_assoc]

end SExpr

/-- A line without its blanks is the expression on it. -/
theorem Backend.strip_line (items : List SExpr) :
    Text.strip (Backend.line (.list items)) = (SExpr.list items).text := by
  have chars : (Backend.line (.list items)).toList =
      '(' :: ((String.intercalate " " (SExpr.texts items)).toList ++ [')', '\n']) := by
    rw [Backend.line, String.toList_append, SExpr.toList_text_list]
    simp
  rw [← String.ofList_toList (s := Backend.line _), chars, Text.strip_parenthesised,
    ← SExpr.toList_text_list, String.ofList_toList]

/-! ## Commands by how they begin -/

namespace Text

theorem dropStart?_append (start rest : String) : dropStart? start (start ++ rest) = some rest := by
  have starts : start.toList.isPrefixOf (start ++ rest).toList = true := by
    rw [List.isPrefixOf_iff_prefix, String.toList_append]
    exact List.prefix_append _ _
  rw [dropStart?, if_pos starts, String.toList_append, List.drop_left, String.ofList_toList]

end Text

namespace Engine.Stack

open SExpr (call)

variable (s : Stack)

/-- The assertion that a text makes is all that stands in it. -/
theorem assertion?_text (text : String) :
    assertion? ("(assert+ " ++ (text ++ ")")) = some text := by
  have inner : (text ++ ")").toList = text.toList ++ [')'] := by
    rw [String.toList_append]
    rfl
  have closed : ("(assert+ " ++ (text ++ ")")).toList.getLast? = some ')' := by
    rw [String.toList_append, inner, ← List.append_assoc, List.getLast?_concat]
  rw [assertion?, Text.dropStart?_append]
  simp only [closed, inner, if_true, List.dropLast_concat, String.ofList_toList]

/-- A command that does not begin as an assertion makes none. -/
theorem assertion?_eq_none {command : String} {c : Char} {rest : List Char}
    (begins : command.toList = '(' :: c :: rest) (other : c ≠ 'a') : assertion? command = none := by
  have differs : "(assert+ ".toList.isPrefixOf command.toList = false := by
    rw [begins]
    show ('(' == '(' && ('a' == c && _)) = false
    simp [Ne.symm other]
  rw [assertion?, Text.dropStart?, differs]
  rfl

/-- The engine takes an assertion as it is spelled. -/
theorem handle_assert (e : SExpr) :
    s.handle (Backend.line (call (.atom "assert+") [e])) =
      ("", { s with top := s.top ++ [e.text] }) := by
  have text : (call (.atom "assert+") [e]).text = "(assert+ " ++ (e.text ++ ")") := by
    simp only [SExpr.text_call_cons, SExpr.texts, String.intercalate_singleton, String.append_assoc]
    rfl
  rw [handle, call, Backend.strip_line, ← call, text]
  simp only [assertion?_text]

/-- How the engine takes a command that begins like none of those with a fixed
text. -/
theorem handle_other {items : List SExpr} {c : Char} {rest : List Char}
    (begins : (SExpr.list items).text.toList = '(' :: c :: rest)
    (other : c ∉ ['a', 'c', 'p', 'r']) :
    s.handle (Backend.line (.list items)) =
      if (Text.dropStart? "(define" (SExpr.list items).text).isSome then ("", s)
      else if (Text.dropStart? "(get-value" (SExpr.list items).text).isSome then ("(= x 0)\n", s)
      else ("Error: unknown command " ++ (SExpr.list items).text ++ "\n", s) := by
  simp only [List.mem_cons, List.not_mem_nil, or_false, not_or] at other
  obtain ⟨a, ch, p, r⟩ := other
  have differs {fixed : String} {d : Char} {more : List Char}
      (is : fixed.toList = '(' :: d :: more) (ne : c ≠ d) : (SExpr.list items).text ≠ fixed := by
    intro same
    rw [same, is] at begins
    injection begins with _ begins
    injection begins with same _
    exact ne same.symm
  rw [handle, Backend.strip_line]
  simp only [assertion?_eq_none begins a]
  rw [if_neg (differs rfl ch), if_neg (differs rfl p), if_neg (differs rfl p),
    if_neg (differs rfl r)]

/-- The engine agrees to every definition and declaration. -/
theorem handle_define (kind : String) (e : SExpr) (es : List SExpr) :
    s.handle (Backend.line (call (.atom ("define" ++ kind)) (e :: es))) = ("", s) := by
  have text : (call (.atom ("define" ++ kind)) (e :: es)).text = "(define" ++
      (kind ++ " " ++ String.intercalate " " (SExpr.texts (e :: es)) ++ ")") := by
    rw [SExpr.text_call_cons]
    simp only [← String.append_assoc]
    rfl
  obtain ⟨rest, begins⟩ : ∃ rest, (call (.atom ("define" ++ kind)) (e :: es)).text.toList =
      '(' :: 'd' :: rest := by
    rw [text, String.toList_append]
    exact ⟨_, rfl⟩
  rw [call, handle_other s begins (by decide), ← call, text, Text.dropStart?_append]
  rfl

/-- The engine has one answer to all questions for values. -/
theorem handle_values (es : List SExpr) :
    s.handle (Backend.line (call (.atom "get-value") es)) = ("(= x 0)\n", s) := by
  obtain ⟨tail, text⟩ : ∃ tail, (call (.atom "get-value") es).text = "(get-value" ++ tail := by
    cases es with
    | nil => exact ⟨")", rfl⟩
    | cons e es =>
      rw [SExpr.text_call_cons]
      exact ⟨" " ++ String.intercalate " " (SExpr.texts (e :: es)) ++ ")", by
        simp only [← String.append_assoc]; rfl⟩
  obtain ⟨rest, begins⟩ :
      ∃ rest, (call (.atom "get-value") es).text.toList = '(' :: 'g' :: rest := by
    rw [text, String.toList_append]
    exact ⟨_, rfl⟩
  have differs : Text.dropStart? "(define" ("(get-value" ++ tail) = none := by
    rw [Text.dropStart?, String.toList_append]
    rfl
  rw [call, handle_other s begins (by decide), ← call, text, differs, Text.dropStart?_append]
  rfl

/-- The engine knows neither proofs nor unsatisfiable cores nor assignments. -/
theorem handle_unknown {wire : String}
    (known : wire ∈ [Backend.proofWire, Backend.unsatCoreWire, Backend.assignmentWire]) :
    ∃ command, s.handle wire = ("Error: unknown command " ++ command ++ "\n", s) := by
  simp only [List.mem_cons, List.not_mem_nil, or_false] at known
  rcases known with rfl | rfl | rfl
  · exact ⟨_, @handle_other s [.atom "get-proof"] _ _ rfl (by decide)⟩
  · exact ⟨_, @handle_other s [.atom "get-unsat-core"] _ _ rfl (by decide)⟩
  · exact ⟨_, @handle_other s [.atom "get-assignment"] _ _ rfl (by decide)⟩

theorem handle_check :
    s.handle Backend.checkWire = (if s.refuted then "unsat\n" else "sat\n", s) := rfl

theorem handle_push :
    s.handle Backend.pushWire = ("", { top := [], below := s.top :: s.below }) := rfl

theorem handle_pop {scope : List String} {below : List (List String)}
    (open_ : s.below = scope :: below) :
    s.handle Backend.popWire = ("", { top := scope, below := below }) := by
  obtain ⟨top, _⟩ := s
  subst open_
  rfl

theorem handle_reset : s.handle Backend.resetWire = ("", {}) := rfl

end Engine.Stack

end SmtSession
