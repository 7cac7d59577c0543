import Bulletin.Command.Run

/-! The command line program. It takes a picture of the part of the disk that a command touches,
runs the command on it, and carries the changes over to the disk. -/

namespace Bulletin.Main

def placeText (place : Place) : String := String.ofList (Path.text ⟨.slash, place.reverse⟩)

/-- What stands at a place on the disk. A directory is what cannot be read because it is no file. -/
def probe (place : Place) : IO (Option Entry) := do
  try return some (.file (← IO.FS.readBinFile (placeText place)))
  catch
    | .inappropriateType .. => return some .directory
    | _ => return none

/-- The picture with every place added that a path leads through. -/
def picture (here : Place) (fs : Files) (p : Path) : IO Files := do
  let mut place := if p.isAbsolute then [] else here
  let mut fs := fs
  for name in p.parts do
    place := if name = Files.up then place.tail else name :: place
    match ← probe place with
    | some e => fs := fs.put place e
    | none => pure ()
  return fs

def pictureOf (here : Place) (fs : Files) : Command → IO Files
  | .build config output => do
    let fs ← picture here fs config
    match Message.load fs here config with
    | .ok m => picture here fs (output.getD m.output)
    | .error _ => return fs
  | .body path _ _ file => do
    let fs ← picture here fs path
    match file with
    | some p => picture here fs p
    | none => return fs
  | .card _ _ file => do
    match file with
    | some p => picture here fs p
    | none => return fs

def carryOver (before : Files) (place : Place) (e : Entry) : IO Unit := do
  match e, before.at? place with
  | .directory, none => IO.FS.createDir (placeText place)
  | .file bytes, some (.file old) =>
    unless bytes.toList = old.toList do IO.FS.writeBinFile (placeText place) bytes
  | .file bytes, none => IO.FS.writeBinFile (placeText place) bytes
  | _, _ => pure ()

/-- The wording of a failure that has none of its own. -/
def describe : Failure → String
  | .usage => "The arguments are not understood."
  | .notUtf8 => "A file is not UTF-8 text."
  | .load (.yaml _) => "The message file is not valid YAML."
  | .load .notUtf8 => "The message file is not UTF-8 text."
  | .load .outputNotText => "The output is not a path."
  | .save .longReference => "A reference in the title has too many digits."
  | .save .notEncodable => "The document cannot be encoded."
  | .save .byteName => "The output is no text."
  | _ => "A file could not be used."

def environment : IO (List (Text × Text)) := do
  let inputs := [Command.buildInputs, Command.bodyInputs, Command.cardInputs]
  let names := (inputs.flatMap fun i => i.operands ++ i.options).map Arguments.environmentName
  names.filterMapM fun name => do
    return (← IO.getEnv (String.ofList name)).map fun v => (name, v.toList)

def run (args : List String) : IO UInt32 := do
  let here := (Path.ofText (← IO.currentDir).toString.toList).parts.reverse
  let start ← picture [] {} ⟨.slash, here.reverse⟩
  let settings ← environment
  let lookUp := fun name => settings.lookup name
  let texts := args.map String.toList
  let fs ← match Command.ofArguments? texts lookUp with
    | some c => pictureOf here start c
    | none => pure start
  let (after, result) := Command.runArguments fs here texts lookUp
  for (place, e) in after.entries.mergeSort fun a b => a.1.length ≤ b.1.length do
    carryOver fs place e
  match result with
  | .ok t =>
    IO.print (String.ofList t)
    return 0
  | .error failure =>
    IO.eprintln ((failure.message?.map String.ofList).getD (describe failure))
    return if failure = .usage then 2 else 1

end Bulletin.Main

def main (args : List String) : IO UInt32 := Bulletin.Main.run args
