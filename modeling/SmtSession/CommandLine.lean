import SmtSession.Backend
import SmtSession.Decimal.Literal
import SmtSession.Patience

/-!
# The command line

**The arguments** of the program are a script's file, and options. An option
has a long name, some have a short one of a single letter. A long name can be
cut short as long as it stays the beginning of one name only; its value
follows as the next argument or behind an equals sign. Short options without
values can share one dash.

An argument with a dash in front is no option if it is a dash alone, a
negative number, or has a blank in it; behind two dashes alone, none is.

The arguments are first told apart, all of them, and then taken in order, so
an ambiguous name is misuse wherever it stands, while a request for help or
for the version is granted if nothing before it is misused.
-/

namespace SmtSession

/-- What the arguments ask for. -/
structure CommandLine where
  /-- The file of the script. -/
  file : String
  /-- The directory of the engine's program. -/
  binaryDir : Option String := none
  relaxed : Bool := false
  patience : Option Patience := none
  /-- The file for the transcript. -/
  log : String := Backend.yices.transcript
  /-- How often more reports were asked for. -/
  verbosity : Nat := 0

namespace CommandLine

/-- Why there is nothing to do. -/
inductive Stop
  | help
  | version
  /-- The arguments are misused. -/
  | misuse
  deriving DecidableEq, Inhabited

/-- The options. -/
inductive Flag
  | help
  | binaryDir
  | relax
  | timeout
  | log
  | verbose
  | version
  deriving DecidableEq, Inhabited

/-- Whether an option has a value. -/
def Flag.takesValue : Flag → Bool
  | .binaryDir | .timeout | .log => true
  | .help | .relax | .verbose | .version => false

/-- The options by their long names. -/
def longNames : List (String × Flag) :=
  [("--help", .help), ("--binary-dir", .binaryDir), ("--relax", .relax), ("--timeout", .timeout),
    ("--log", .log), ("--verbose", .verbose), ("--version", .version)]

/-- The options by their short names. -/
def shortNames : List (String × Flag) :=
  [("-h", .help), ("-v", .verbose)]

/-- An argument, told apart. -/
inductive Argument
  | operand (text : String)
  /-- Two dashes alone; only operands follow. -/
  | separator
  /-- An option by its long name, with the value behind the equals sign. -/
  | long (flag : Flag) (attached : Option String)
  /-- Short options that share a dash, by their letters. -/
  | short (letters : List Char)
  /-- A short option with a value behind an equals sign, which none takes. -/
  | refused
  /-- Something that looks like an option and is none. -/
  | unknown
  deriving DecidableEq, Inhabited

/-- The text in front of the first equals sign, and that behind it. -/
def splitAtEquals? (s : String) : Option (String × String) :=
  let cs := s.toList
  match cs.dropWhile (· ≠ '=') with
  | _ :: behind => some (String.ofList (cs.takeWhile (· ≠ '=')), String.ofList behind)
  | [] => none

/-- A minus sign and digits, with at most one point among them, which is not
at the end. -/
def isNegativeNumber (cs : List Char) : Bool :=
  match cs with
  | '-' :: cs =>
    match cs.dropWhile Char.isDigit with
    | [] => !cs.isEmpty
    | '.' :: parts => !parts.isEmpty && parts.all Char.isDigit
    | _ => false
  | _ => false

/-- An option by the name that an argument gives in full, or before an equals
sign. -/
def named? (s : String) : Option Argument :=
  match longNames.lookup s, shortNames.lookup s, splitAtEquals? s with
  | some flag, _, _ => some (.long flag none)
  | none, some _, _ => some (.short (s.toList.drop 1))
  | none, none, some (name, value) =>
    match longNames.lookup name, shortNames.lookup name with
    | some flag, _ => some (.long flag (some value))
    | none, some _ => some .refused
    | none, none => none
  | none, none, none => none

/-- The options that an argument may mean when it names none in full: those
whose long names begin so, or the short ones from the letter that it begins
with. -/
def meant (s : String) : List Argument :=
  if s.startsWith "--" then
    let (start, attached) := match splitAtEquals? s with
      | some (start, value) => (start, some value)
      | none => (s, none)
    (longNames.filter fun (name, _) => name.startsWith start).map fun (_, flag) =>
      .long flag attached
  else if (shortNames.lookup (String.ofList (s.toList.take 2))).isSome then
    [.short (s.toList.drop 1)]
  else
    []

/-- Tells what an argument is. -/
def classify (s : String) : Except Stop Argument :=
  if !s.startsWith "-" ∨ s = "-" then .ok (.operand s)
  else
    match named? s, meant s with
    | some a, _ => .ok a
    | none, [a] => .ok a
    | none, _ :: _ :: _ => .error .misuse
    | none, [] =>
      if isNegativeNumber s.toList ∨ s.contains ' ' then .ok (.operand s) else .ok .unknown

/-- Tells the arguments apart. -/
def classifyAll : List String → Except Stop (List Argument)
  | [] => .ok []
  | "--" :: rest => .ok (.separator :: rest.map .operand)
  | s :: rest => do
    let a ← classify s
    return a :: (← classifyAll rest)

/-! ## Taking the arguments -/

/-- What was taken so far. -/
structure Taken where
  file : Option String := none
  /-- Whether an argument was left over. -/
  leftOver : Bool := false
  /-- What the options ask for; the file is not in it. -/
  asked : CommandLine := { file := "" }

/-- A number of seconds: nothing when it is without bound. -/
def seconds? (s : String) : Option (Option Patience) :=
  (Decimal.ofLiteral? s).map fun number =>
    number.bind fun d =>
      let first : Int := d.exponent + (Nat.toDigits 10 d.mantissa).length
      if d.mantissa = 0 ∨ first < -400 then
        some (.ofFloat { negative := d.negative, mantissa := 0 })
      else if 400 < first then none
      else some (.ofFloat d)

/-- Takes an option with its value. -/
def takeValue (flag : Flag) (value : String) (t : Taken) : Except Stop Taken :=
  match flag with
  | .binaryDir => .ok { t with asked := { t.asked with binaryDir := some value } }
  | .log => .ok { t with asked := { t.asked with log := value } }
  | .timeout =>
    match seconds? value with
    | some patience => .ok { t with asked := { t.asked with patience := patience } }
    | none => .error .misuse
  | .help | .relax | .verbose | .version => .error .misuse

/-- Takes an option that has no value. -/
def takeFlag (flag : Flag) (t : Taken) : Except Stop Taken :=
  match flag with
  | .help => .error .help
  | .version => .error .version
  | .relax => .ok { t with asked := { t.asked with relaxed := true } }
  | .verbose => .ok { t with asked := { t.asked with verbosity := t.asked.verbosity + 1 } }
  | .binaryDir | .timeout | .log => .error .misuse

/-- Takes options that have no values. -/
def takeFlags : List Flag → Taken → Except Stop Taken
  | [], t => .ok t
  | flag :: flags, t => do takeFlags flags (← takeFlag flag t)

/-- The options that letters behind a dash stand for, up to a letter that
stands for none, and whether there is one. A second dash or an equals sign
behind an option is misuse. -/
def shared : List Char → Except Stop (List Flag × Bool)
  | [] => .ok ([], false)
  | c :: cs =>
    match shortNames.lookup (String.ofList ['-', c]) with
    | none => .ok ([], true)
    | some flag =>
      if cs.head? = some '-' ∨ cs.head? = some '=' then .error .misuse
      else do
        let (flags, leftOver) ← shared cs
        return (flag :: flags, leftOver)

/-- Takes the options that share a dash. -/
def takeShared (letters : List Char) (t : Taken) : Except Stop Taken := do
  let (flags, leftOver) ← shared letters
  let t ← takeFlags flags t
  return { t with leftOver := t.leftOver || leftOver }

/-- Takes arguments in order. The first operand is the file; two dashes right
before or right behind it belong to it. -/
def takeAll : List Argument → Taken → Except Stop Taken
  | [], t => .ok t
  | .operand s :: rest, t =>
    match t.file, rest with
    | some _, rest => takeAll rest { t with leftOver := true }
    | none, .separator :: rest => takeAll rest { t with file := some s }
    | none, rest => takeAll rest { t with file := some s }
  | .separator :: rest, t => takeAll rest { t with leftOver := t.leftOver || t.file.isSome }
  | .unknown :: rest, t => takeAll rest { t with leftOver := true }
  | .refused :: _, _ => .error .misuse
  | .short letters :: rest, t => do takeAll rest (← takeShared letters t)
  | .long flag (some value) :: rest, t => do takeAll rest (← takeValue flag value t)
  | .long flag none :: rest, t =>
    if flag.takesValue then
      match rest with
      | .operand value :: rest => do takeAll rest (← takeValue flag value t)
      | _ => .error .misuse
    else do
      takeAll rest (← takeFlag flag t)

/-- Reads the arguments of the program. -/
def read (arguments : List String) : Except Stop CommandLine := do
  let t ← takeAll (← classifyAll arguments) {}
  match t.file with
  | some file => if t.leftOver then .error .misuse else .ok { t.asked with file := file }
  | none => .error .misuse

/-- The text that explains the options. -/
def help : String :=
  "usage: smtbridge [-h] [--binary-dir BINARY_DIR] [--relax] [--timeout TIMEOUT]\n" ++
  "                 [--log LOG] [-v] [--version]\n" ++
  "                 file\n\n" ++
  "Run an SMT-LIB v2 script on a solver that does not speak SMT-LIB\n\n" ++
  "positional arguments:\n" ++
  "  file                  SMT-LIB2 script (.smt2)\n\n" ++
  "options:\n" ++
  "  -h, --help            show this help message and exit\n" ++
  "  --binary-dir BINARY_DIR\n" ++
  "                        Directory containing the yices executable (default:\n" ++
  "                        PATH)\n" ++
  "  --relax               Allow set-logic to be repeated, resetting the solver\n" ++
  "  --timeout TIMEOUT     Seconds to wait for each solver reply\n" ++
  "  --log LOG             Transcript of the solver conversation (default:\n" ++
  "                        solver.out.yices)\n" ++
  "  -v, --verbose         Report session events; repeat to show every exchange\n" ++
  "  --version             show program's version number and exit\n"

end CommandLine

end SmtSession
