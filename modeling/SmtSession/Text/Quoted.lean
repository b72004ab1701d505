/-!
# Quoted text

**String literals** stand between double quotes, and a double quote inside
is written twice. **Quoted symbols** stand between bars; a backslash escapes
a bar or a backslash and nothing else.

Each form has an `encode` function, and a `scan` function that reads it from
the front of a list of characters and gives back what follows it.
-/

namespace SmtSession.Text

/-! ## Between double quotes -/

namespace Quoted

/-- The content with every double quote written twice. -/
def escape : List Char → List Char
  | [] => []
  | '"' :: cs => '"' :: '"' :: escape cs
  | c :: cs => c :: escape cs

/-- The literal of a content, its two delimiters included. -/
def encode (s : String) : String :=
  String.ofList ('"' :: (escape s.toList ++ ['"']))

/-- Reads behind the opening quote: the content up to the closing quote, which
is the first one that no other quote follows, and the rest. A text that ends
before has no literal. -/
def scan : List Char → Option (List Char × List Char)
  | [] => none
  | '"' :: '"' :: cs => (scan cs).map fun (content, rest) => ('"' :: content, rest)
  | '"' :: cs => some ([], cs)
  | c :: cs => (scan cs).map fun (content, rest) => (c :: content, rest)

/-- What follows a literal is shorter than what followed its opening quote. -/
theorem scan_shorter {cs content rest : List Char} (h : scan cs = some (content, rest)) :
    rest.length < cs.length := by
  fun_induction scan cs generalizing content with
  | case1 => simp at h
  | case2 cs ih =>
    obtain ⟨⟨a, b⟩, hab, he⟩ := Option.map_eq_some_iff.1 h
    obtain ⟨rfl, rfl⟩ := Prod.mk.inj he
    have := ih hab
    simp only [List.length_cons]; omega
  | case3 cs =>
    obtain ⟨rfl, rfl⟩ := Prod.mk.inj (Option.some.inj h)
    simp
  | case4 c cs _ _ ih =>
    obtain ⟨⟨a, b⟩, hab, he⟩ := Option.map_eq_some_iff.1 h
    obtain ⟨rfl, rfl⟩ := Prod.mk.inj he
    have := ih hab
    simp only [List.length_cons]; omega

end Quoted

/-! ## Between bars -/

namespace Barred

/-- The content with a backslash before every bar and every backslash. -/
def escape : List Char → List Char
  | [] => []
  | c :: cs => if c = '|' ∨ c = '\\' then '\\' :: c :: escape cs else c :: escape cs

/-- The quoted symbol of a name, its two bars included. -/
def encode (name : String) : String :=
  String.ofList ('|' :: (escape name.toList ++ ['|']))

/-- What stands behind an opening bar. -/
inductive Scan
  /-- A content, closed by a bar, and the rest behind that bar. -/
  | closed (content rest : List Char)
  /-- A backslash before something that is neither a bar nor a backslash,
  `behind` characters after the opening bar. -/
  | badEscape (behind : Nat)
  /-- No closing bar up to the end. -/
  | unclosed

/-- Puts one character of content, written with `width` characters, before
what was scanned. -/
def Scan.push (c : Char) (width : Nat) : Scan → Scan
  | .closed content rest => .closed (c :: content) rest
  | .badEscape behind => .badEscape (behind + width)
  | .unclosed => .unclosed

/-- Reads behind the opening bar, up to the first bar that is not escaped. -/
def scan : List Char → Scan
  | [] => .unclosed
  | '|' :: cs => .closed [] cs
  | '\\' :: '|' :: cs => (scan cs).push '|' 2
  | '\\' :: '\\' :: cs => (scan cs).push '\\' 2
  | '\\' :: _ => .badEscape 0
  | c :: cs => (scan cs).push c 1

theorem Scan.push_eq_closed {c : Char} {width : Nat} {s : Scan} {content rest : List Char}
    (h : s.push c width = .closed content rest) : ∃ inner, s = .closed inner rest := by
  cases s with
  | closed inner r => simp [Scan.push] at h; exact ⟨inner, by rw [h.2]⟩
  | badEscape _ => simp [Scan.push] at h
  | unclosed => simp [Scan.push] at h

/-- What follows a quoted symbol is shorter than what followed its opening
bar. -/
theorem scan_shorter {cs content rest : List Char} (h : scan cs = .closed content rest) :
    rest.length < cs.length := by
  fun_induction scan cs generalizing content with
  | case1 => simp at h
  | case2 cs => simp at h; simp [h.2]
  | case3 cs ih =>
    obtain ⟨inner, hi⟩ := Scan.push_eq_closed h
    have := ih hi
    simp only [List.length_cons]; omega
  | case4 cs ih =>
    obtain ⟨inner, hi⟩ := Scan.push_eq_closed h
    have := ih hi
    simp only [List.length_cons]; omega
  | case5 => simp at h
  | case6 c cs _ _ _ _ ih =>
    obtain ⟨inner, hi⟩ := Scan.push_eq_closed h
    have := ih hi
    simp only [List.length_cons]; omega

end Barred

end SmtSession.Text
