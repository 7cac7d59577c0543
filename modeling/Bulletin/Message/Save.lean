import Bulletin.Html.Document

/-! Writing the document of a message to the file its output names. Directories around the file are
made where they are missing, then the document is made, and only then the file is opened, which
leaves it empty; what is written is encoded last. -/

namespace Bulletin.Message

/-- A message that may hold lone surrogates. They are no characters, so the message is given with
different characters in their place: a text holds one where `shown` and `twin` differ, and one that
stands for a byte in a name where `shown` and `named` differ. -/
structure Draft where
  shown : Message
  twin : Message
  named : Message
deriving DecidableEq, Repr

namespace Draft

def ofMessage (m : Message) : Draft := ⟨m, m, m⟩

def change (d : Draft) (edit : Message → Message) : Draft :=
  ⟨edit d.shown, edit d.twin, edit d.named⟩

def redirect (d : Draft) (output : Option Path) : Draft :=
  d.change fun m => { m with output := output.getD m.output }

/-- The writer that gives the surrogates of one kind another character than the rest. -/
def telling (isOther : Nat → Bool) : Yaml.Writer :=
  { standIn := fun n => if isOther n then '\ufffe' else '\ufffd' }

def load (fs : Files) (here : Place) (path : Path) : Except LoadError Draft := do
  return ⟨← Message.load fs here path, ← Message.load fs here path (telling Text.isSurrogate),
    ← Message.load fs here path (telling Text.isByteSurrogate)⟩

/-- The document holds no lone surrogate. -/
def Encodable (d : Draft) : Prop := d.shown.render = d.twin.render

instance (d : Draft) : Decidable d.Encodable :=
  inferInstanceAs (Decidable (d.shown.render = d.twin.render))

/-- What saving leaves in the file: the document, or nothing where it cannot be encoded. -/
def bytes? (d : Draft) : Option ByteArray :=
  d.shown.document?.map fun t => if d.Encodable then Encoding.encode t else .empty

end Draft

inductive SaveError where
  | file (cause : FileError)
  /-- A reference in the title has too many digits. -/
  | longReference
  /-- A lone surrogate stands in the output or in the document. -/
  | notEncodable
  /-- The output names a file by bytes that are no text. No tree here has such a name. -/
  | byteName
deriving DecidableEq, Repr

/-- The files after the document was written, or the error that prevented it. -/
def Draft.save (d : Draft) (fs : Files) (here : Place) : Files × Except SaveError Unit :=
  let output := d.shown.output
  if output ≠ d.named.output then (fs, .error .byteName)
  else if output.parent ≠ d.twin.output.parent then (fs, .error .notEncodable)
  else match fs.makeDirectories here output.parent with
    | (fs, .error e) => (fs, .error (.file e))
    | (fs, .ok ()) =>
      match d.bytes? with
      | none => (fs, .error .longReference)
      | some bytes =>
        if output ≠ d.twin.output then (fs, .error .notEncodable)
        else match fs.write here output bytes with
          | .ok fs => (fs, if d.Encodable then .ok () else .error .notEncodable)
          | .error e => (fs, .error (.file e))

end Bulletin.Message
