import Bulletin.Command.Run

/-! Sessions. From one directory, commands are run on a tree of files, and messages are loaded from
it, changed, rendered and saved, one step after the other. A step that fails leaves the message at
hand as it is, and the session goes on. -/

namespace Bulletin

structure Session where
  files : Files := {}
  current : Option Message.Draft := none

namespace Session

inductive Step where
  | command (args : List Text) (environment : Text → Option Text)
  | load (path : Path)
  | change (edit : Message → Message)
  | render
  | save

inductive Answer where
  | printed (t : Text)
  | loaded (m : Message)
  | changed
  | document (t : Text)
  | saved (output : Path)

inductive Fault where
  | command (cause : Failure)
  | load (cause : Message.LoadError)
  | save (cause : Message.SaveError)
  /-- A reference in the title has too many digits. -/
  | longReference
  /-- There is no message at hand. -/
  | noMessage
deriving DecidableEq, Repr

def step (here : Place) (s : Session) : Step → Session × Except Fault Answer
  | .command args environment =>
    match Command.runArguments s.files here args environment with
    | (files, .ok t) => ({ s with files }, .ok (.printed t))
    | (files, .error e) => ({ s with files }, .error (.command e))
  | .load path =>
    match Message.Draft.load s.files here path with
    | .ok d => ({ s with current := some d }, .ok (.loaded d.shown))
    | .error e => (s, .error (.load e))
  | .change edit =>
    match s.current with
    | some d => ({ s with current := some (d.change edit) }, .ok .changed)
    | none => (s, .error .noMessage)
  | .render =>
    match s.current with
    | none => (s, .error .noMessage)
    | some d =>
      match d.shown.document? with
      | some t => (s, .ok (.document t))
      | none => (s, .error .longReference)
  | .save =>
    match s.current with
    | none => (s, .error .noMessage)
    | some d =>
      match d.save s.files here with
      | (files, .ok ()) => ({ s with files }, .ok (.saved d.shown.output))
      | (files, .error e) => ({ s with files }, .error (.save e))

def run (here : Place) (s : Session) (xs : List Step) : Session :=
  xs.foldl (fun s x => (step here s x).1) s

/-- The text that a step prints; only commands print. -/
def printed : Except Fault Answer → Text
  | .ok (.printed t) => t
  | _ => []

@[simp] theorem run_nil (here : Place) (s : Session) : run here s [] = s := rfl

@[simp] theorem run_cons (here : Place) (s : Session) (x : Step) (xs : List Step) :
    run here s (x :: xs) = run here (step here s x).1 xs := rfl

@[simp] theorem run_concat (here : Place) (s : Session) (xs : List Step) (x : Step) :
    run here s (xs ++ [x]) = (step here (run here s xs) x).1 := by
  simp [run]

end Session
end Bulletin
