import Bulletin.Yaml.Node
import Bulletin.Yaml.Value.Convert

/-! The value of a document. Collections are made empty and filled later, those of one depth before
those of the next, so that a collection may hold itself; only keys are made complete at once. Merge
keys bring in the entries of other mappings before the entries of their own mapping. -/

namespace Bulletin.Yaml

/-- A collection that is still to be filled from a node. -/
structure Job where
  tag : Tag
  node : Nat
  target : Nat

structure Builder where
  nodes : Array Node
  legacy : Bool
  /-- The entries that merge keys brought into a mapping. -/
  merged : List (Nat × List (Nat × Nat)) := []
  /-- The values made so far, by node. -/
  made : List (Nat × Value) := []
  /-- The nodes whose values are being made, with what stands for each until it is done. -/
  open_ : List (Nat × Value) := []
  /-- Whether collections are filled at once. -/
  complete : Bool := false
  /-- The collections to be filled, the last one first. -/
  jobs : List Job := []
  store : Store := #[]

abbrev Building := StateT Builder (Except Fault)

namespace Building

def node (id : Nat) : Building Node := do
  match (← get).nodes[id]? with
  | some n => return n
  | none => throw .wrongShape

def mapping (id : Nat) : Building (List (Nat × Nat)) := do
  match (← node id).content with
  | .mapping es => return es
  | _ => throw .wrongShape

def sequence (id : Nat) : Building (List Nat) := do
  match (← node id).content with
  | .sequence xs => return xs
  | _ => throw .wrongShape

def setEntries (id : Nat) (es : List (Nat × Nat)) : Building Unit := do
  let n ← node id
  modify fun b => { b with nodes := b.nodes.setIfInBounds id { n with content := .mapping es } }

/-- The text of a scalar node. A mapping has the text of its default value. -/
def scalarText (id : Nat) : Nat → Building RawText
  | 0 => throw .wrongShape
  | fuel + 1 => do
    match (← node id).content with
    | .scalar t => return t
    | .sequence _ => throw .wrongShape
    | .mapping es =>
      match ← es.findM? fun e => do return (← node e.1).tag = .value with
      | some e => scalarText e.2 fuel
      | none => throw .wrongShape

def ownText (id : Nat) : Building RawText := do
  match (← node id).content with
  | .scalar t => return t
  | _ => throw .wrongShape

def store (c : Collection) : Building Nat := do
  let b ← get
  set { b with store := b.store.push c }
  return b.store.size

def setCollection (id : Nat) (c : Collection) : Building Unit :=
  modify fun b => { b with store := b.store.setIfInBounds id c }

/-- Puts the entries of merge keys before the entries of a mapping, from the given entry on, with
the entries `found` that the merge keys before it brought in. The default key becomes text. -/
def flattenFrom (id : Nat) (found : List (Nat × Nat)) (index : Nat) : Nat → Building Unit
  | 0 => throw .badMerge
  | fuel + 1 => do
    let es ← mapping id
    match es[index]? with
    | none =>
      if found ≠ [] then
        modify fun b => { b with merged := (id, found) :: b.merged }
        setEntries id (found ++ es)
    | some (key, value) =>
      let k ← node key
      if k.tag = .merge then
        if found ≠ [] then throw .duplicateKey
        setEntries id (es.eraseIdx index)
        match (← node value).content with
        | .mapping _ =>
          flattenFrom value [] 0 fuel
          flattenFrom id (← mapping value) index fuel
        | .sequence items =>
          let parts ← items.mapM fun item => do
            match (← node item).content with
            | .mapping _ =>
              flattenFrom item [] 0 fuel
              mapping item
            | _ => throw .badMerge
          flattenFrom id parts.reverse.flatten index fuel
        | .scalar _ => throw .badMerge
      else
        if k.tag = .value then
          modify fun b => { b with nodes := b.nodes.setIfInBounds key { k with tag := .str } }
        flattenFrom id found (index + 1) fuel

/-- Sets the value of a key, in its place if the key is there, else at the end. -/
def assign (key value : Value) : List (Value × Value) → List (Value × Value)
  | [] => [(key, value)]
  | (k, v) :: r => if k.sameKey key then (k, value) :: r else (k, v) :: assign key value r

/-- The form of a value as a key: a list becomes a tuple, other collections are refused. -/
def asKey (v : Value) : Building Value := do
  match v with
  | .ref id => match (← get).store[id]? with
    | some (.list items) => return .tuple items
    | _ => throw .collectionKey
  | v => return v

def onlyEntry (id : Nat) : Building (Nat × Nat) := do
  match ← mapping id with
  | [e] => return e
  | _ => throw .wrongShape

/-- The value of a scalar node by its tag; none for the tags of collections. -/
def scalar? (tag : Tag) (id : Nat) (fuel : Nat) : Building (Option Scalar) := do
  let legacy := (← get).legacy
  match tag with
  | .null => let _ ← scalarText id fuel; return some .null
  | .bool => return some (← Convert.bool (← scalarText id fuel).form)
  | .int => return some (← Convert.int legacy (← scalarText id fuel).form)
  | .float => return some (← Convert.float legacy (← scalarText id fuel).form)
  | .binary => return some (← Convert.binary (← scalarText id fuel).form)
  | .timestamp => return some (← Convert.timestamp (← ownText id).form)
  | .str => return some (Convert.str (← scalarText id fuel))
  | _ => return none

def emptyOf : Tag → Except Fault Collection
  | .seq | .pairs => return .list []
  | .map => return .map false []
  | .omap => return .map true []
  | .set => return .set []
  | .merge => throw (.unknownTag (Tag.standard ++ "merge".toList))
  | .value => throw (.unknownTag (Tag.standard ++ "value".toList))
  | .other t => throw (.unknownTag t)
  | _ => throw .wrongShape

/-- How the values of nodes are made: at once with all they contain, or not. -/
abbrev Maker := Nat → Bool → Building Value

/-- The entries of a mapping. A key may occur once, unless entries were merged; then later values
replace earlier ones. -/
def entries (make : Maker) (id : Nat) : Building (List (Value × Value)) := do
  let _ ← mapping id
  flattenFrom id [] 0 (2 * (← get).nodes.size + 2)
  let own ← mapping id
  let found := ((← get).merged.lookup id).getD []
  let unique := found = []
  (found ++ own).foldlM
    (fun es e => do
      let key ← asKey (← make e.1 true)
      let value ← make e.2 false
      unless key.isComparable do throw .incomparableKey
      if unique && es.any fun e => e.1.sameKey key then throw .duplicateKey
      return assign key value es)
    []

def pairs (make : Maker) (ids : List Nat) : Building (List Value) :=
  ids.mapM fun id => do
    let (k, v) ← onlyEntry id
    return .tuple [← make k false, ← make v false]

/-- An entry from each of some mappings with one entry. No key may occur twice. -/
def orderedEntries (make : Maker) (ids : List Nat) : Building (List (Value × Value)) :=
  ids.foldlM
    (fun es id => do
      let (k, v) ← onlyEntry id
      let key ← make k false
      unless key.isComparable do throw .incomparableKey
      if es.any fun (e : Value × Value) => e.1.sameKey key then throw .repeatedEntry
      return es ++ [(key, ← make v false)])
    []

def fill (make : Maker) (job : Job) : Building Unit := do
  let collection ← match job.tag with
    | .seq => .list <$> (← sequence job.node).mapM fun id => make id false
    | .map => .map false <$> entries make job.node
    | .set => (fun es => .set (es.map (·.1))) <$> entries make job.node
    | .pairs => .list <$> pairs make (← sequence job.node)
    | .omap => .map true <$> orderedEntries make (← sequence job.node)
    | _ => throw .wrongShape
  setCollection job.target collection

/-- The value of a node. With `complete`, collections in it are filled before it is returned. A node
that is being made counts as null, or as its collection where that is filled at once. -/
def make : Nat → Maker
  | 0, _, _ => throw .wrongShape
  | fuel + 1, id, complete => do
    match (← get).made.lookup id with
    | some v => return v
    | none =>
      let before := (← get).complete
      if complete then modify fun b => { b with complete := true }
      if let some v := (← get).open_.lookup id then return v
      modify fun b => { b with open_ := (id, .scalar .null) :: b.open_ }
      let tag := (← node id).tag
      let v ← match ← scalar? tag id (fuel + 1) with
        | some s => pure (.scalar s)
        | none => do
          let target ← store (← emptyOf tag)
          let job : Job := ⟨tag, id, target⟩
          if (← get).complete then
            modify fun b => { b with open_ := (id, .ref target) :: b.open_ }
            fill (make fuel) job
          else modify fun b => { b with jobs := job :: b.jobs }
          pure (.ref target)
      modify fun b => { b with made := (id, v) :: b.made, open_ := b.open_.filter (·.1 ≠ id) }
      if complete then modify fun b => { b with complete := before }
      return v

def fillAll (make : Maker) : Nat → Building Unit
  | 0 => throw .wrongShape
  | rounds + 1 => do
    match (← get).jobs with
    | [] => return
    | jobs =>
      modify fun b => { b with jobs := [] }
      jobs.reverse.forM (fill make)
      fillAll make rounds

end Building

structure Loaded where
  store : Store
  root : Value

namespace Document

/-- The value of a document; an empty one is null. A chain of nested nodes is never longer than the
number of nodes. -/
def load (d : Document) : Except Fault Loaded :=
  match d.root with
  | none => return ⟨#[], .scalar .null⟩
  | some id => do
    let size := d.nodes.size + 1
    let make := Building.make (size + 1)
    let run : Building Value := do
      let v ← make id false
      Building.fillAll make (size + 1)
      return v
    let (root, b) ← run.run { nodes := d.nodes, legacy := d.legacy }
    return ⟨b.store, root⟩

end Document

def load (t : Text) : Except Fault Loaded := do (← Document.ofText t).load

end Bulletin.Yaml
