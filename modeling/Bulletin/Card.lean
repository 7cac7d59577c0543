import Bulletin.Text.Basic

/-! Metric cards, and how they are read from a title and a description. A card has a heading,
sections that are paragraphs or bullet lists, at most one code segment, and at most one closing list
with a title of its own. The code segment is taken out of the description first, the rest is cut
into groups, and a last group with a list mark becomes the closing list. -/

namespace Bulletin

/-- A group of the description: a bullet list, or a paragraph. -/
inductive Section where
  | list (items : List Text)
  | paragraph (text : Text)
deriving DecidableEq, Repr

/-- The titled list at the end of a card. -/
structure ClosingList where
  title : Text
  items : List Text
deriving DecidableEq, Repr

structure Card where
  title : Text
  sections : List Section
  code : Option Text
  closing : Option ClosingList
deriving DecidableEq, Repr

namespace Card

def defaultTitle : Text := "Metric Update"

def defaultDescription : Text := "Description not set."

/-! ### The code segment

It is what stands between the first opening token and the nearest closing token after it. -/

def codeStart : Text := "[CODE]"
def codeEnd : Text := "[/CODE]"

/-- The trimmed code segment, and the description without it. A description whose first segment is
empty or never closed has no code, and is left as it is, untrimmed. -/
def takeCode (description : Text) : Option Text × Text :=
  match description.cut? codeStart with
  | none => (none, description)
  | some (before, rest) =>
    match rest.cut? codeEnd with
    | none => (none, description)
    | some (inner, after) =>
      if inner = [] then (none, description) else (some inner.trim, (before ++ after).trim)

@[simp] theorem takeCode_nil : takeCode [] = (none, []) := by decide

/-! ### Groups

These are the trimmed pieces between paragraph breaks. A break starts at a newline, ends at a later
newline, and holds only blank characters between; it reaches as far as it can. Empty groups are
kept. -/

/-- The length of the part of `t` up to the last newline among the blank characters it starts
with. -/
def breakLength? (t : Text) : Option Nat :=
  let run := t.takeWhile Text.isBlank
  let tail := (run.reverse.takeWhile (· ≠ '\n')).length
  if tail < run.length then some (run.length - tail) else none

/-- The pieces between paragraph breaks. The count says how many characters belong to a break that
is already cut. -/
def pieces : Nat → Text → List Text
  | _, [] => [[]]
  | cutOff + 1, _ :: r => pieces cutOff r
  | 0, c :: r =>
    match if c = '\n' then breakLength? r else none with
    | some n => [] :: pieces n r
    | none => match pieces 0 r with
      | [] => [[c]]
      | piece :: rest => (c :: piece) :: rest

/-- The trimmed groups of a text, at least one. -/
def groups (t : Text) : List Text := (pieces 0 t).map Text.trim

@[simp] theorem groups_nil : groups [] = [[]] := rfl

/-! ### Sections and closing lists -/

def listMark : Char := '|'

/-- The trimmed items of a group, without the empty ones. -/
def items (group : Text) : List Text := ((group.splitOn listMark).map Text.trim).filter (· ≠ [])

/-- The title of a closing list that has no colon on its first line. -/
def defaultClosingTitle : Text := "List includes:"

/-- The closing list of a group. The title is what stands before the first colon of the first line;
an item that repeats the title and its colon loses that repetition. -/
def closingList (group : Text) : ClosingList :=
  match group.cutLine? [':'] with
  | none => ⟨defaultClosingTitle, items group⟩
  | some (title, _) =>
    let echo := title ++ [':']
    ⟨title.trim ++ [':'], (items group).map fun item =>
      if echo.isPrefixOf item then Text.trim (item.drop echo.length) else item⟩

/-- The closing list, if the last group has a list mark, and the groups that remain. -/
def takeClosing (gs : List Text) : Option ClosingList × List Text :=
  match gs.getLast? with
  | none => (none, gs)
  | some group =>
    if listMark ∈ group then (some (closingList group), gs.dropLast) else (none, gs)

def section? (group : Text) : Option Section :=
  if group = [] then none
  else if listMark ∈ group then some (.list (items group))
  else some (.paragraph group)

def sectionsOf (gs : List Text) : List Section := gs.filterMap section?

/-- The card of a title and a description, neither of which needs a fallback any more. -/
def ofDescription (title description : Text) : Card :=
  let (code, rest) := takeCode description
  let (closing, gs) := takeClosing (groups rest)
  ⟨title, sectionsOf gs, code, closing⟩

end Card

structure CardText where
  title : Text := []
  description : Text := []
deriving DecidableEq, Repr

namespace CardText

def standard : CardText := ⟨Card.defaultTitle, Card.defaultDescription⟩

/-- The texts with `fallback` in the place of the empty ones. -/
def orElse (t fallback : CardText) : CardText :=
  ⟨t.title.orElse fallback.title, t.description.orElse fallback.description⟩

def card (t : CardText) (fallback : CardText := .standard) : Card :=
  let full := t.orElse fallback
  Card.ofDescription full.title full.description

end CardText
end Bulletin
