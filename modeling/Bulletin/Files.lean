import Bulletin.Path

/-! A tree of files and directories, and text as the bytes of its files. A place in the tree is the
list of its names, the innermost first; the root is the empty list and always a directory. A path is
looked up name by name, and every name but the last must lead to a directory. -/

namespace Bulletin.Encoding

/-! ### Text as bytes

Text is written in UTF-8 as it is; when it is read, bytes that are not UTF-8 are an error, and line
endings become uniform. -/

def encode (t : Text) : ByteArray := (String.ofList t).toByteArray

def decode? (bytes : ByteArray) : Option Text := bytes.utf8Decode?.map Array.toList

/-- The text that bytes write, with uniform line endings. -/
def readText? (bytes : ByteArray) : Option Text := (decode? bytes).map Text.uniformLines

@[simp] theorem decode?_encode (t : Text) : decode? (encode t) = some t := by
  simp [decode?, encode, String.toByteArray_ofList]

theorem readText?_encode (t : Text) : readText? (encode t) = some t.uniformLines := by
  simp [readText?]

end Bulletin.Encoding

/-! ### The tree -/

namespace Bulletin

/-- A place in the tree, the innermost name first. -/
abbrev Place := List Text

inductive Entry where
  | file (content : ByteArray)
  | directory

inductive FileError where
  | notFound
  | notADirectory
  | isADirectory
  | alreadyExists
  | nameTooLong
  /-- The path holds the character that ends a name for the system. -/
  | zeroInPath
deriving DecidableEq, Repr

structure Files where
  entries : List (Place × Entry) := []

namespace Files

def at? (fs : Files) : Place → Option Entry
  | [] => some .directory
  | place => fs.entries.lookup place

def content? (fs : Files) (place : Place) : Option ByteArray :=
  match fs.at? place with
  | some (.file bytes) => some bytes
  | _ => none

def hasDirectory (fs : Files) (place : Place) : Bool :=
  match fs.at? place with
  | some .directory => true
  | _ => false

def put (fs : Files) (place : Place) (e : Entry) : Files :=
  ⟨(place, e) :: fs.entries.filter (·.1 ≠ place)⟩

theorem lookup_filter_ne {entries : List (Place × Entry)} {place other : Place}
    (h : other ≠ place) : (entries.filter (·.1 ≠ place)).lookup other = entries.lookup other := by
  induction entries with
  | nil => rfl
  | cons e es ih =>
    obtain ⟨p, x⟩ := e
    by_cases hp : p = place
    · subst hp
      simp only [ne_eq, decide_not] at ih
      simp [ih, List.lookup_cons, beq_eq_false_iff_ne.mpr h]
    · simp only [ne_eq, decide_not] at ih
      simp [hp, List.lookup_cons, ih]

@[simp] theorem at?_root (fs : Files) : fs.at? [] = some .directory := rfl

@[simp] theorem at?_put_self (fs : Files) (name : Text) (place : Place) (e : Entry) :
    (fs.put (name :: place) e).at? (name :: place) = some e := by
  simp [at?, put]

theorem at?_put_of_ne (fs : Files) {place other : Place} (e : Entry) (h : other ≠ place) :
    (fs.put place e).at? other = fs.at? other := by
  cases other with
  | nil => rfl
  | cons name r =>
    simp only [at?, put, List.lookup_cons, beq_eq_false_iff_ne.mpr h]
    exact lookup_filter_ne h

def byteLength (t : Text) : Nat := (String.ofList t).utf8ByteSize

/-- The longest name and the longest path that the system takes, in bytes. -/
def nameLimit : Nat := 255
def pathLimit : Nat := 4095

def up : Text := ['.', '.']

/-- The place that a name leads to. Only a directory has names in it; nothing need stand at the
place itself. -/
def step (fs : Files) (place : Place) (name : Text) : Except FileError Place :=
  match fs.at? place with
  | none => .error .notFound
  | some (.file _) => .error .notADirectory
  | some .directory =>
    if name = up then .ok place.tail
    else if nameLimit < byteLength name then .error .nameTooLong
    else .ok (name :: place)

def locate (fs : Files) (here : Place) (p : Path) : Except FileError Place :=
  if '\x00' ∈ p.text then .error .zeroInPath
  else if pathLimit < byteLength p.text then .error .nameTooLong
  else p.parts.foldlM fs.step (if p.isAbsolute then [] else here)

/-- Whether something stands where a path leads. A path that leads nowhere is no error, but one
that the system does not take is. -/
def exists? (fs : Files) (here : Place) (p : Path) : Except FileError Bool :=
  match fs.locate here p with
  | .ok place => .ok (fs.at? place).isSome
  | .error .nameTooLong => .error .nameTooLong
  | .error _ => .ok false

def read (fs : Files) (here : Place) (p : Path) : Except FileError ByteArray := do
  match fs.at? (← fs.locate here p) with
  | none => .error .notFound
  | some .directory => .error .isADirectory
  | some (.file bytes) => .ok bytes

def write (fs : Files) (here : Place) (p : Path) (bytes : ByteArray) : Except FileError Files := do
  let place ← fs.locate here p
  match fs.at? place with
  | some .directory => .error .isADirectory
  | _ => .ok (fs.put place (.file bytes))

def makeDirectory (fs : Files) (here : Place) (p : Path) : Except FileError Files := do
  let place ← fs.locate here p
  match fs.at? place with
  | some _ => .error .alreadyExists
  | none => .ok (fs.put place .directory)

def isDirectory (fs : Files) (here : Place) (p : Path) : Bool :=
  match fs.locate here p with
  | .ok place => fs.hasDirectory place
  | .error _ => false

/-- Leaves an error of making a directory out where the directory is there already. -/
def orKeep (fs : Files) (here : Place) (p : Path) : Except FileError Files → Except FileError Files
  | .ok fs' => .ok fs'
  | .error .notFound => .error .notFound
  | .error e => if fs.isDirectory here p then .ok fs else .error e

/-- Makes a directory, and those around it where they are missing. The names are given from the
innermost on. What was made before an error stays, so the tree is returned with it. -/
def makeDirectoriesFrom (here : Place) (root : PathRoot) (fs : Files) :
    List Text → Files × Except FileError Unit
  | [] =>
    match fs.orKeep here ⟨root, []⟩ (fs.makeDirectory here ⟨root, []⟩) with
    | .ok fs => (fs, .ok ())
    | .error e => (fs, .error e)
  | name :: around =>
    let p : Path := ⟨root, (name :: around).reverse⟩
    match fs.orKeep here p (fs.makeDirectory here p) with
    | .ok fs => (fs, .ok ())
    | .error .notFound =>
      match makeDirectoriesFrom here root fs around with
      | (fs, .error e) => (fs, .error e)
      | (fs, .ok ()) =>
        match fs.orKeep here p (fs.makeDirectory here p) with
        | .ok fs => (fs, .ok ())
        | .error e => (fs, .error e)
    | .error e => (fs, .error e)

def makeDirectories (fs : Files) (here : Place) (p : Path) : Files × Except FileError Unit :=
  makeDirectoriesFrom here p.root fs p.parts.reverse

def places (fs : Files) : List Place :=
  (fs.entries.filter fun e => match e.2 with | .file _ => true | .directory => false).map (·.1)

end Files
end Bulletin
