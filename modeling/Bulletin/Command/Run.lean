import Bulletin.Command.Arguments
import Bulletin.Message.Save

/-! The commands: building the document of a message file, and showing the markup of a body text or
of a single card. A command runs on a tree of files. The result is the tree after it and either the
text that is printed or the cause of the failure; a command that fails prints nothing. -/

namespace Bulletin

inductive Command where
  | build (config : Path) (output : Option Path)
  | body (path : Path) (title description : Text) (descriptionFile : Option Path)
  | card (title description : Text) (descriptionFile : Option Path)
deriving DecidableEq, Repr

namespace Command

def defaultConfig : Path := .ofText "config/message.yaml"

def buildInputs : Arguments.Inputs := ⟨[], ["config", "output"]⟩
def bodyInputs : Arguments.Inputs :=
  ⟨["path"], ["metric-title", "metric-description", "metric-description-file"]⟩
def cardInputs : Arguments.Inputs := ⟨[], ["title", "description", "description-file"]⟩

/-- The command that a list of arguments names; none where it is not understood. -/
def ofArguments? (args : List Text) (environment : Text → Option Text) : Option Command :=
  match args with
  | [] => none
  | name :: rest =>
    if name = "build".toList then do
      let b ← Arguments.read? buildInputs rest
      let value := Arguments.value? b environment
      some (.build (((value "config").map .ofText).getD defaultConfig)
        ((value "output").map .ofText))
    else if name = "body".toList then do
      let b ← Arguments.read? bodyInputs rest
      let value := Arguments.value? b environment
      let path ← value "path"
      some (.body (.ofText path) ((value "metric-title").getD [])
        ((value "metric-description").getD []) ((value "metric-description-file").map .ofText))
    else if name = "card".toList then do
      let b ← Arguments.read? cardInputs rest
      let value := Arguments.value? b environment
      some (.card ((value "title").getD []) ((value "description").getD [])
        ((value "description-file").map .ofText))
    else none

end Command
inductive Failure where
  /-- The arguments are not understood. -/
  | usage
  | load (cause : Message.LoadError)
  | save (cause : Message.SaveError)
  | file (cause : FileError)
  | notUtf8
  /-- A text was given both as an option and as a file. -/
  | bothGiven (option : Text)
deriving DecidableEq, Repr

namespace Failure

def message? : Failure → Option Text
  | .load cause => cause.message?
  | .bothGiven option => some ("Pass either --".toList ++ option ++ " or --".toList ++ option ++
      "-file, not both.".toList)
  | _ => none

end Failure

namespace Command

def readText (fs : Files) (here : Place) (p : Path) : Except Failure Text := do
  match Encoding.readText? (← (fs.read here p).mapError .file) with
  | some t => .ok t
  | none => .error .notUtf8

/-- The given text, or the text in the given file, but not both. -/
def resolveText (fs : Files) (here : Place) (value : Text) (file : Option Path) (option : Text) :
    Except Failure Text :=
  match file with
  | none => .ok value
  | some p => if value = [] then readText fs here p else .error (.bothGiven option)

/-- The line that reports a written file. To shorten an absolute path, the current directory is
looked up, which may be gone. -/
def report (fs : Files) (here : Place) (output : Path) : Except FileError Text :=
  if output.isAbsolute && !fs.hasDirectory here then .error .notFound
  else .ok ("wrote ".toList ++ output.display ⟨.slash, here.reverse⟩ ++ ['\n'])

def previewBody (fs : Files) (here : Place) (path : Path) (title description : Text)
    (file : Option Path) : Except Failure Text := do
  let description ← resolveText fs here description file "metric-description"
  let body ← readText fs here path
  return Html.renderBody body ⟨title, description⟩ ++ ['\n']

def previewCard (fs : Files) (here : Place) (title description : Text) (file : Option Path) :
    Except Failure Text := do
  let description ← resolveText fs here description file "description"
  return Html.renderCard ⟨title, description⟩ ++ ['\n']

/-- Loads a message and writes its document, to `output` if that is given. -/
def runBuild (fs : Files) (here : Place) (config : Path) (output : Option Path) :
    Files × Except Failure Text :=
  match Message.Draft.load fs here config with
  | .error e => (fs, .error (.load e))
  | .ok d =>
    let d := d.redirect output
    match d.save fs here with
    | (saved, .error e) => (saved, .error (.save e))
    | (saved, .ok ()) => (saved, (report fs here d.shown.output).mapError .file)

def run (fs : Files) (here : Place) : Command → Files × Except Failure Text
  | .build config output => runBuild fs here config output
  | .body path title description file => (fs, previewBody fs here path title description file)
  | .card title description file => (fs, previewCard fs here title description file)

def runArguments (fs : Files) (here : Place) (args : List Text)
    (environment : Text → Option Text) : Files × Except Failure Text :=
  match ofArguments? args environment with
  | none => (fs, .error .usage)
  | some c => run fs here c

end Command
end Bulletin
