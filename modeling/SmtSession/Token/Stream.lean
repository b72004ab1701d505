import SmtSession.Token

/-!
# The stream of tokens over a scanner

**A scanner** yields the texts of tokens and knows no offsets. Layout and comments are skipped
without a trace, a quoted symbol is yielded without its bars, and a string literal that is
never closed ends the input. What a scanner does at a malformed quoted symbol is left open.

**The stream** gives each token its range. It follows the text with a cursor of its own: a
token starts at the first character behind the cursor that is neither layout nor comment, and
ends as many characters further as its text has. A bar at the start tells a quoted symbol,
whose end is looked for in the text before the scanner is asked. The scanner is given the text
with a line feed behind it.

`Token.tokenizeFrom` does in one pass what the scanner and the stream do together.
-/

namespace SmtSession

/-- What a scanner yields. Whether it was read between bars the stream is not told. -/
structure Scanner.Item where
  text : List Char
  barred : Bool

/-- What comes next in the characters that are left, and what is left behind it; at the end
nothing. -/
def Scanner : Type :=
  List Char → Option (Scanner.Item × List Char)

namespace Scanner

/-- The characters of a string literal behind its opening quote: up to the first one that is no
quote while the number of quotes so far is odd. -/
def literal (odd : Bool) : List Char → Option (List Char × List Char)
  | [] => none
  | c :: cs =>
    if c = '"' then (literal (!odd) cs).map fun (body, rest) => (c :: body, rest)
    else if odd then some ([], c :: cs)
    else (literal odd cs).map fun (body, rest) => (c :: body, rest)

/-- What is documented of a scanner. -/
structure Documented (scan : Scanner) : Prop where
  ended : scan [] = none
  layout (c : Char) (cs : List Char) : Token.isLayout c = true → scan (c :: cs) = scan cs
  comment (body cs : List Char) : '\n' ∉ body → scan (';' :: (body ++ '\n' :: cs)) = scan cs
  opening (cs : List Char) : scan ('(' :: cs) = some (⟨['('], false⟩, cs)
  closing (cs : List Char) : scan (')' :: cs) = some (⟨[')'], false⟩, cs)
  /-- Between bars, a bar and a backslash are written behind a backslash. -/
  barred (name cs : List Char) :
    scan ('|' :: (Text.Barred.escape name ++ '|' :: cs)) = some (⟨name, true⟩, cs)
  literal (cs : List Char) :
    scan ('"' :: cs) = (literal false cs).map fun (body, rest) => (⟨'"' :: body, false⟩, rest)
  /-- Anything else is an atom, up to the next delimiter. -/
  atom (run cs : List Char) (d : Char) : run ≠ [] → (∀ c ∈ run, Token.isDelimiter c = false) →
    Token.isDelimiter d = true → scan (run ++ d :: cs) = some (⟨run, false⟩, d :: cs)

/-- A scanner that does what is documented. -/
def direct : Scanner := fun cs =>
  match (Token.skipGap cs).2 with
  | [] => none
  | c :: cs =>
    if c = '(' ∨ c = ')' then
      some (⟨[c], false⟩, cs)
    else if c = '|' then
      match Text.Barred.scan cs with
      | .closed name rest => some (⟨name, true⟩, rest)
      | _ => none
    else if c = '"' then
      (literal false cs).map fun (body, rest) => (⟨'"' :: body, false⟩, rest)
    else
      some (⟨c :: cs.takeWhile fun d => !Token.isDelimiter d, false⟩,
        cs.dropWhile fun d => !Token.isDelimiter d)

end Scanner

/-- The offset that the stream has come to, and what the scanner has left. -/
structure TokenStream where
  cursor : Nat
  left : List Char

namespace TokenStream

/-- A token as the stream hands it on. -/
structure Delivery where
  text : String
  start : Nat
  stop : Nat
  quoted : Bool
  deriving DecidableEq

/-- What asking for a token comes to. -/
inductive Step
  | token (item : Scanner.Item) (delivery : Delivery) (next : TokenStream)
  /-- Carriage returns, which are no token. -/
  | skipped (next : TokenStream)
  | ended
  /-- A malformed quoted symbol. -/
  | malformed

/-- The stream at the start of a text. -/
def ofText (text : List Char) : TokenStream :=
  ⟨0, text ++ ['\n']⟩

/-- The first offset that is neither layout nor comment. -/
def skipLayout (text : List Char) (cursor : Nat) : Nat :=
  cursor + (Token.skipGap (text.drop cursor)).1

/-- The offset behind the symbol that is opened at an offset, if it is closed. -/
def behindBars? (text : List Char) (start : Nat) : Option Nat :=
  match Text.Barred.scan (text.drop (start + 1)) with
  | .closed _ rest => some (text.length - rest.length)
  | _ => none

/-- The offset behind what was yielded without bars. -/
def behind (start : Nat) (item : Scanner.Item) : Nat :=
  if item.text = ['('] ∨ item.text = [')'] then start + 1 else start + item.text.length

/-- Asks for a token. -/
def step (scan : Scanner) (text : List Char) (s : TokenStream) : Step :=
  let start := skipLayout text s.cursor
  if text[start]? = some '|' then
    match behindBars? text start with
    | none => .malformed
    | some stop =>
      match scan s.left with
      | none => .ended
      | some (item, left) =>
        let cursor := min stop text.length
        .token item ⟨String.ofList item.text, start, cursor, true⟩ ⟨cursor, left⟩
  else
    match scan s.left with
    | none => .ended
    | some (item, left) =>
      let next : TokenStream := ⟨min (behind start item) text.length, left⟩
      let value := Text.dropTrailing (fun c => c = '\r') item.text
      if value.isEmpty then .skipped next
      else .token item ⟨String.ofList value, start, start + value.length, false⟩ next

/-- **All that the stream delivers**, from where it stands to the end of the text or to the first
malformed quoted symbol, with the items that the scanner yielded. -/
inductive Delivers (scan : Scanner) (text : List Char) :
    TokenStream → List (Scanner.Item × Delivery) → Prop
  | ended {s : TokenStream} (is : step scan text s = .ended) : Delivers scan text s []
  | malformed {s : TokenStream} (is : step scan text s = .malformed) : Delivers scan text s []
  | skipped {s next : TokenStream} {ds : List (Scanner.Item × Delivery)}
      (is : step scan text s = .skipped next) (more : Delivers scan text next ds) :
      Delivers scan text s ds
  | token {s next : TokenStream} {item : Scanner.Item} {delivery : Delivery}
      {ds : List (Scanner.Item × Delivery)} (is : step scan text s = .token item delivery next)
      (more : Delivers scan text next ds) : Delivers scan text s ((item, delivery) :: ds)

end TokenStream

end SmtSession
