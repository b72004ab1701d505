import SmtSession.Decimal

/-!
# Floating-point text

**A binary64 number** is printed with the fewest decimal digits that read
back as the same number, and of those with the digits nearest to it. Reading
rounds to the nearest binary64 number, and a tie to the even one.

The interval of numbers that read back as `f * 2 ^ q` reaches half-way to
each neighbour; its ends belong to it when `f` is even. For one digit, two
digits and so on, the two points of the decimal grid next to the number are
tried.
-/

namespace SmtSession.Decimal

/-- A binary64 number without its sign. -/
inductive Binary64
  /-- The number `f * 2 ^ q`, with `f` below `2 ^ 53` and `q` at least `-1074`. -/
  | finite (f : Nat) (q : Int)
  | infinite
  deriving DecidableEq, Inhabited

namespace Binary64

/-- The fraction `num / (den * 2 ^ q)`. -/
def scale (num den : Nat) (q : Int) : Nat × Nat :=
  if q < 0 then (num * Nat.pow 2 (-q).toNat, den) else (num, den * Nat.pow 2 q.toNat)

/-- The nearest integer to a fraction, of two the even one. -/
def roundEven (num den : Nat) : Nat :=
  let down := num / den
  let twice := 2 * (num % den)
  if twice < den then down
  else if den < twice then down + 1
  else if down % 2 = 0 then down else down + 1

/-- The binary64 number nearest to a fraction. -/
def nearest (num den : Nat) : Binary64 :=
  if num = 0 then .finite 0 (-1074)
  else
    let guess : Int := max ((Nat.log2 num : Int) - (Nat.log2 den : Int) - 53) (-1074)
    let (n, d) := scale num den guess
    let q := if n / d < Nat.pow 2 53 then guess else guess + 1
    let (n, d) := scale num den q
    let f := roundEven n d
    let (f, q) := if f = Nat.pow 2 53 then (Nat.pow 2 52, q + 1) else (f, q)
    if 971 < q then .infinite else .finite f q

/-- The power of ten that a positive fraction begins with: the greatest `k`
with `10 ^ k` at most the fraction. -/
def leadingPower (num den : Nat) : Int :=
  if den ≤ num then
    (Nat.toDigits 10 (num / den)).length - 1
  else
    -- the fraction times a power of ten, until it reaches one
    let rec up : Nat → Nat → Int → Int
      | 0, _, k => k
      | fuel + 1, n, k => if den ≤ n then k else up fuel (10 * n) (k - 1)
    up 400 num 0

/-- The fraction divided by a power of ten. -/
def overPowerOfTen (num den : Nat) (g : Int) : Nat × Nat :=
  if g < 0 then (num * Nat.pow 10 (-g).toNat, den) else (num, den * Nat.pow 10 g.toNat)

/-- The shortest decimal that reads back as a positive number `f * 2 ^ q`, as
digits and a power of ten. -/
def shortest (f : Nat) (q : Int) : Nat × Int :=
  -- all of it in quarters, so that half-way points are whole
  let quarter := q - 2
  let value := 4 * f
  let low := if f = Nat.pow 2 52 ∧ -1074 < q then value - 1 else value - 2
  let high := value + 2
  let (num, den) := scale value 1 (-quarter)
  let closed := f % 2 = 0
  let k := leadingPower num den
  let within (c : Nat) (g : Int) : Bool :=
    -- the grid point, in the unit of the ends
    let (n, d) := overPowerOfTen c 1 (-g)
    let (n, d) := scale n d quarter
    if closed then low * d ≤ n && n ≤ high * d else low * d < n && n < high * d
  let rec search : Nat → Nat → Nat × Int
    | 0, _ => (value, 0)
    | more + 1, digits =>
      let g := k - digits + 1
      let (n, d) := overPowerOfTen num den g
      let down := n / d
      let nearer := if 2 * (n % d) ≤ d then [down, down + 1] else [down + 1, down]
      match nearer.find? fun c => within c g with
      | some c => (c, g)
      | none => search more (digits + 1)
  search 17 1

/-- How a floating-point number is laid out. -/
structure Layout where
  /-- The least exponent that is written out with zeros. -/
  least : Int
  /-- The first exponent that is no more written out. -/
  beyond : Int
  infinity : String

/-- Plain from a ten-thousandth up to below ten to the sixteenth, with a digit
behind the point in any case; with an exponent of two digits at least
otherwise. -/
def layout : Layout where
  least := -4
  beyond := 16
  infinity := "inf"

/-- Digits without the zeros at their end, and the power of ten that makes up
for them. -/
def trimZeros : Nat → Nat → Int → Nat × Int
  | 0, c, g => (c, g)
  | fuel + 1, c, g => if c ≠ 0 ∧ c % 10 = 0 then trimZeros fuel (c / 10) (g + 1) else (c, g)

/-- Digits and a power of ten, laid out. -/
def layOut (l : Layout) (c : Nat) (g : Int) : String :=
  let (c, g) := trimZeros 400 c g
  let digits := Nat.toDigits 10 c
  let count : Int := digits.length
  -- the power of ten of the first digit
  let first := g + count - 1
  if c = 0 then "0.0"
  else if l.least ≤ first ∧ first < l.beyond then
    if first < 0 then
      "0." ++ String.ofList (List.replicate (-first - 1).toNat '0' ++ digits)
    else if g < 0 then
      let whole := (first + 1).toNat
      String.ofList (digits.take whole) ++ "." ++ String.ofList (digits.drop whole)
    else
      String.ofList (digits ++ List.replicate g.toNat '0') ++ ".0"
  else
    let power := toString first.natAbs
    let power := if power.length < 2 then "0" ++ power else power
    let sign := if first < 0 then "e-" else "e+"
    let fractional := if count = 1 then "" else "." ++ String.ofList (digits.drop 1)
    String.ofList (digits.take 1) ++ fractional ++ sign ++ power

/-- The printed form of a binary64 number. -/
def text : Binary64 → String
  | .infinite => layout.infinity
  | .finite f q =>
    if f = 0 then layOut layout 0 0
    else
      let (c, g) := shortest f q
      layOut layout c g

end Binary64

/-- The binary64 number nearest to a decimal, without its sign. -/
def toBinary64 (d : Decimal) : Binary64 :=
  Binary64.nearest d.fraction.1 d.fraction.2

/-- The printed form of the binary64 number nearest to a decimal. -/
def floatText (d : Decimal) : String :=
  (if d.negative then "-" else "") ++ d.toBinary64.text

end SmtSession.Decimal
