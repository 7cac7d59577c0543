import Bulletin.Card
import Bulletin.Files
import Bulletin.Yaml.Value.Build
import Bulletin.Yaml.Value.Text

/-! Messages, and how they are loaded from YAML values. A value may be missing in three ways: the
whole value and the output are missing where they are empty or false, a block or the body where it
is null, and a default where its text is empty. Of several faults the first in a fixed order is
reported. -/

namespace Bulletin

/-- The button below the body. It is shown only if it has a text. -/
structure CallToAction where
  text : Text := []
  link : Text := []
  description : Text := []
deriving DecidableEq, Repr

structure Footer where
  logo : Text := []
  name : Text := []
  title : Text := []
  market : Text := []
deriving DecidableEq, Repr

structure Message where
  body : Text
  output : Path := .ofText "public/notification.html"
  headerLogo : Text := []
  title : Text := []
  headline : Text := []
  metric : CardText := {}
  defaults : CardText := .standard
  cta : CallToAction := {}
  footer : Footer := {}
deriving DecidableEq, Repr

namespace Message

inductive LoadError where
  | missing (path : Path)
  | unreadable (cause : FileError)
  | notUtf8
  | yaml (cause : Yaml.Fault)
  | notMapping
  | noBody (path : Path)
  | blockNotMapping (key kind : Text)
  | outputNotText
  /-- A value to be copied has no text. -/
  | noText (cause : Yaml.TextFault)
deriving DecidableEq, Repr

def LoadError.message? : LoadError → Option Text
  | .missing path => some ("Message file '".toList ++ path.text ++ "' not found.".toList)
  | .notMapping => some "Top-level YAML structure must be a mapping."
  | .noBody path =>
    some ("Message file '".toList ++ path.text ++ "' does not define 'body'.".toList)
  | .blockNotMapping key kind =>
    some ("'".toList ++ key ++ "' must be a mapping, got ".toList ++ kind ++ ".".toList)
  | .noText cause => some cause.message
  | _ => none

abbrev Fields := List (Yaml.Value × Yaml.Value)

def isNull : Yaml.Value → Bool
  | .scalar .null => true
  | _ => false

/-- The value at a key, where it is there and not null. -/
def given? (fields : Fields) (key : Text) : Option Yaml.Value :=
  (Yaml.Store.get? fields key).filter fun v => !isNull v

def textOf (s : Yaml.Store) (how : Yaml.Writer) (v : Yaml.Value) : Except LoadError Text :=
  (s.text how v).mapError .noText

/-- The text of the value at a key; it is empty where the value is missing. -/
def textAt (s : Yaml.Store) (how : Yaml.Writer) (fields : Fields) (key : Text) :
    Except LoadError Text :=
  match given? fields key with
  | none => .ok []
  | some v => textOf s how v

/-- The entries of the block at a key; it has none where it is missing. -/
def blockAt (s : Yaml.Store) (fields : Fields) (key : Text) : Except LoadError Fields :=
  match given? fields key with
  | none => .ok []
  | some v => match s.entries? v with
    | some entries => .ok entries
    | none => .error (.blockNotMapping key (s.kind v))

def topLevel (s : Yaml.Store) (v : Yaml.Value) : Except LoadError Fields :=
  if s.isTruthy v then
    match s.entries? v with
    | some entries => .ok entries
    | none => .error .notMapping
  else .ok []

def outputAt (s : Yaml.Store) (how : Yaml.Writer) (fields : Fields) : Except LoadError Path :=
  match (Yaml.Store.get? fields "output").filter s.isTruthy with
  | none => .ok (.ofText "public/notification.html")
  | some (.scalar (.text t)) => .ok (.ofText t)
  | some (.scalar (.unpaired points)) => .ok (.ofText (Text.ofPoints how.standIn points))
  | some _ => .error .outputNotText

/-- The message of a value. The path is the file the value comes from. -/
def ofValue (how : Yaml.Writer) (path : Path) (s : Yaml.Store) (v : Yaml.Value) :
    Except LoadError Message := do
  let fields ← topLevel s v
  let body ← match given? fields "body" with
    | some b => .ok b
    | none => .error (.noBody path)
  let defaults ← blockAt s fields "defaults"
  let defaultTitle ← textAt s how defaults "metric_title"
  let defaultDescription ← textAt s how defaults "metric_description"
  let metric ← blockAt s fields "metric"
  let cta ← blockAt s fields "cta"
  let footer ← blockAt s fields "footer"
  return {
    -- the body is written directly, every other text by a call of its own
    body := ← textOf s how.outer body
    output := ← outputAt s how fields
    headerLogo := ← textAt s how fields "header_logo"
    title := ← textAt s how fields "title"
    headline := ← textAt s how fields "headline"
    metric := ⟨← textAt s how metric "title", ← textAt s how metric "description"⟩
    defaults := (CardText.mk defaultTitle defaultDescription).orElse .standard
    cta := ⟨← textAt s how cta "text", ← textAt s how cta "link",
      ← textAt s how cta "description"⟩
    footer := ⟨← textAt s how footer "logo", ← textAt s how footer "name",
      ← textAt s how footer "title", ← textAt s how footer "market"⟩ }

def load (fs : Files) (here : Place) (path : Path) (how : Yaml.Writer := {}) :
    Except LoadError Message := do
  unless ← (fs.exists? here path).mapError .unreadable do throw (.missing path)
  let bytes ← (fs.read here path).mapError .unreadable
  let text ← match Encoding.readText? bytes with
    | some t => .ok t
    | none => .error .notUtf8
  let loaded ← (Yaml.load text).mapError .yaml
  ofValue how path loaded.store loaded.root

end Message
end Bulletin
