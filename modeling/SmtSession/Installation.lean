import SmtSession.Execution
import SmtSession.Conversation

/-!
# Sessions with an engine's program

**A program is found** under the engine's name in a directory, or in the first
of several directories with colons between them. A session with it has
a conversation with what runs it.
-/

namespace SmtSession

/-- Where the program of an engine is, and how it is run. What is left out is
as the backend has it. -/
structure Installation where
  /-- The directory of the program. Without one, the program is looked for
  where there are no scripts. -/
  directory : Option Path := none
  arguments : Option (List String) := none
  transcript : Option Path := none
  patience : Option Patience := none

namespace Installation

/-- A program's name in a directory that a text names. -/
def within (directory name : String) : String :=
  if directory.isEmpty ∨ directory.endsWith "/" then directory ++ name
  else directory ++ "/" ++ name

/-- The program of that name, as the text that names its file. -/
def locate? (i : Installation) (files : Files) (name : String) : Option String :=
  match i.directory with
  | none => none
  | some directory =>
    let candidates := (directory.text.splitOn ":").map fun d => within d name
    candidates.find? fun c => files.isExecutable (Path.ofText c)

/-- How a backend's engine is run. -/
def launch (i : Installation) (backend : Backend) (program : String) : Launch where
  arguments := program :: i.arguments.getD backend.arguments
  prompt := backend.prompt
  transcript := some (i.transcript.getD (Path.ofText backend.transcript))
  patience := i.patience

end Installation

/-- A session with the program of an engine, which is not started. -/
def Session.withProgram (engine : Engine ε) (backend : Backend) (i : Installation) (files : Files)
    (bundle : Bundle) :
    Except Session.CreationError
      (Session.Setup (Conversation ε) × Session (Conversation ε)) :=
  match i.locate? files backend.name with
  | none => .error (if backend.name.isEmpty then .nameless else .notFound backend.name)
  | some program =>
    let transport := Transport.conversation engine (i.launch backend program)
    Session.create backend transport { files := files } bundle

end SmtSession
