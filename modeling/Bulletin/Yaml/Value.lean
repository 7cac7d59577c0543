import Bulletin.Calendar
import Bulletin.Number.Shortest

/-! The values of YAML documents. Collections stand in a store and values refer to them by number,
because a collection may be shared and may contain itself. -/

namespace Bulletin.Yaml

inductive Scalar where
  | null
  | bool (b : Bool)
  | int (n : Int)
  | float (x : Number.Binary64)
  | text (t : Text)
  /-- A text with lone surrogates, as its code points. -/
  | unpaired (points : List Nat)
  | bytes (bs : List UInt8)
  | date (d : Date)
  | time (t : Timestamp)
deriving DecidableEq, Repr

/-- A value: a scalar, a collection of the store, or a tuple, which is what a list becomes as a key
and what a pair is. -/
inductive Value where
  | scalar (s : Scalar)
  | ref (id : Nat)
  | tuple (items : List Value)
deriving Repr

inductive Collection where
  | list (items : List Value)
  /-- A mapping in the order of its keys; an ordered one says so in its text. -/
  | map (ordered : Bool) (entries : List (Value × Value))
  | set (members : List Value)
deriving Repr

abbrev Store := Array Collection

namespace Scalar

/-- Equality of keys. Truth values count as 0 and 1, and a number equals another by its value. -/
def sameKey (a b : Scalar) : Bool :=
  match a, b with
  | .bool a, .bool b => a = b
  | .bool a, .int n => (if a then 1 else 0) = n
  | .int n, .bool a => (if a then 1 else 0) = n
  | .bool a, .float x => x.equalsInt (if a then 1 else 0)
  | .float x, .bool a => x.equalsInt (if a then 1 else 0)
  | .int m, .int n => m = n
  | .int n, .float x => x.equalsInt n
  | .float x, .int n => x.equalsInt n
  | .float x, .float y => x.equals y || (x = .nan && y = .nan)
  | .time a, .time b => a.same b
  | a, b => a = b

def isTruthy : Scalar → Bool
  | .null => false
  | .bool b => b
  | .int n => n ≠ 0
  | .float x => !x.isZero
  | .text t => t ≠ []
  | .unpaired _ => true
  | .bytes bs => bs ≠ []
  | .date _ => true
  | .time _ => true

def kind : Scalar → Text
  | .null => "NoneType"
  | .bool _ => "bool"
  | .int _ => "int"
  | .float _ => "float"
  | .text _ => "str"
  | .unpaired _ => "str"
  | .bytes _ => "bytes"
  | .date _ => "date"
  | .time _ => "datetime"

end Scalar

namespace Value

mutual
/-- Equality of keys. Collections are not compared. -/
def sameKey : Value → Value → Bool
  | .scalar a, .scalar b => a.sameKey b
  | .tuple xs, .tuple ys => sameKeys xs ys
  | _, _ => false

def sameKeys : List Value → List Value → Bool
  | [], [] => true
  | x :: xs, y :: ys => sameKey x y && sameKeys xs ys
  | _, _ => false
end

mutual
/-- Whether a value can be compared as a key: it has no collection in it. -/
def isComparable : Value → Bool
  | .scalar _ => true
  | .ref _ => false
  | .tuple xs => allComparable xs

def allComparable : List Value → Bool
  | [] => true
  | x :: xs => isComparable x && allComparable xs
end

end Value

namespace Store

def entries? (s : Store) : Value → Option (List (Value × Value))
  | .ref id => match s[id]? with
    | some (.map _ entries) => some entries
    | _ => none
  | _ => none

def get? (entries : List (Value × Value)) (key : Text) : Option Value :=
  (entries.find? fun e => e.1.sameKey (.scalar (.text key))).map (·.2)

/-- Whether a value counts as given. Null, false, zero and everything empty do not. -/
def isTruthy (s : Store) : Value → Bool
  | .scalar a => a.isTruthy
  | .tuple xs => !xs.isEmpty
  | .ref id => match s[id]? with
    | some (.list xs) => !xs.isEmpty
    | some (.map _ es) => !es.isEmpty
    | some (.set xs) => !xs.isEmpty
    | none => false

def kind (s : Store) : Value → Text
  | .scalar a => a.kind
  | .tuple _ => "tuple"
  | .ref id => match s[id]? with
    | some (.list _) => "list"
    | some (.map ordered _) => if ordered then "ordereddict" else "dict"
    | some (.set _) => "set"
    | none => "NoneType"

end Store
end Bulletin.Yaml
