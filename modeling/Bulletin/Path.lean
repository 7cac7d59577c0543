import Bulletin.Text.Basic

/-! Paths as a root and the names after it. Reading a path drops repeated slashes and single dots
and keeps double dots, because what a double dot means depends on the files. Exactly two slashes at
the start are a root of their own. -/

namespace Bulletin

inductive PathRoot where
  | relative
  | slash
  | doubleSlash
deriving DecidableEq, Repr

/-- A path, as the names from its start to its end. -/
structure Path where
  root : PathRoot
  parts : List Text
deriving DecidableEq, Repr

namespace PathRoot

def text : PathRoot → Text
  | .relative => []
  | .slash => ['/']
  | .doubleSlash => ['/', '/']

def ofText : Text → PathRoot
  | '/' :: '/' :: '/' :: _ => .slash
  | '/' :: '/' :: _ => .doubleSlash
  | '/' :: _ => .slash
  | _ => .relative

end PathRoot

namespace Path

def isVoid (name : Text) : Bool := name = [] || name = ['.']

def ofText (t : Text) : Path :=
  ⟨PathRoot.ofText t, (t.splitOn '/').filter fun name => !isVoid name⟩

/-- The path written with single slashes; the empty relative path is a dot. -/
def text (p : Path) : Text :=
  if p.root = .relative ∧ p.parts = [] then ['.']
  else p.root.text ++ ['/'].intercalate p.parts

/-- Whether the path means the same from every directory. -/
def isAbsolute (p : Path) : Bool := p.root ≠ .relative

def parent (p : Path) : Path := ⟨p.root, p.parts.dropLast⟩

/-- The rest of `p` after `base`, by names alone. -/
def relativeTo? (p base : Path) : Option Path :=
  if p.root = base.root ∧ base.parts.isPrefixOf p.parts then
    some ⟨.relative, p.parts.drop base.parts.length⟩
  else none

/-- The path as it is reported to a user in the directory `here`: relative where its names allow
it. -/
def display (p here : Path) : Text :=
  if p.isAbsolute then ((p.relativeTo? here).getD p).text else p.text

end Path
end Bulletin
