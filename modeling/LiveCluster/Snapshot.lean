import LiveCluster.Fault
import LiveCluster.Resource.Path

/-!
# Snapshots

A snapshot is the last known state of one object: the raw value as the cluster
sent it, and the few facts that the cache and its readers need, taken from it
once. Snapshots never change; an update replaces one by another.
-/

namespace LiveCluster

/-- A table whose keys need not be texts, in the order in which they first came. -/
abbrev Table := List (Value × Value)

namespace Table

/-- Writes an entry: in its place if a key is there that counts as equal, else at the end. -/
def set : Table → Value → Value → Table
  | [], key, x => [(key, x)]
  | (k, old) :: rest, key, x =>
    if k.same key then (k, x) :: rest else (k, old) :: set rest key x

/-- The table that results from writing entries one after another. -/
def ofList (entries : List (Value × Value)) : Table :=
  entries.foldl (fun table (key, x) => Table.set table key x) []

def ofFields (fields : Fields) : Table :=
  fields.map fun (name, x) => (.text name, x)

/-- The entries under texts. -/
def fields (table : Table) : Fields :=
  table.filterMap fun
    | (.text name, x) => some (name, x)
    | _ => none

@[simp] theorem fields_ofFields (fields : Fields) : (ofFields fields).fields = fields := by
  simp only [Table.fields, ofFields, List.filterMap_map]
  exact List.filterMap_some

end Table

structure Snapshot where
  kind : String
  ns : String
  name : String
  version : String
  /-- The labels, under whatever keys the object has them. -/
  labelled : Table
  raw : Value
  deriving Inhabited

/-- The labels under texts, for which a selector can ask. -/
def Snapshot.labels (s : Snapshot) : Fields :=
  s.labelled.fields

/-- The fields of a value on which fields are looked up. -/
def fieldsOf (v : Value) : Except Fault Fields :=
  match v with
  | .record fields => .ok fields
  | other => .error (.misfit (.noAttribute other.kindWord "get"))

/-- The metadata of a raw object; none where it does not count as present. -/
def metadataOf (raw : Value) : Except Fault Fields := do
  let fields ← fieldsOf raw
  fieldsOf (((fields.get? "metadata").getD .null).orElse (.record []))

/-- The text of a field, empty where it does not count as present. -/
def fieldText (fields : Fields) (name : String) : String :=
  ((fields.get? name).getD .null).textOrEmpty

/-- The value as a key of a table; lists and records cannot be one. -/
def keyOf (v : Value) : Except Fault Value :=
  match v with
  | .list _ | .record _ => .error (.misfit (.unhashable v.kindWord))
  | other => .ok other

/-- Reads the `index`-th element of a list of pairs: two texts or values, or the two
characters of a text. -/
def pairOf (index : Nat) (v : Value) : Except Fault (Value × Value) := do
  let parts : List Value ← match v with
    | .list items => pure items
    | .text s => pure (s.toList.map fun c => .text (String.ofList [c]))
    | .record fields => pure (fields.map fun (name, _) => .text name)
    | _ => .error (.misfit (.notPair index))
  match parts with
  | [key, value] => return (← keyOf key, value)
  | _ => .error (.badArgument (.pairLength index parts.length))

/-- Reads pairs one after another, counting from `index`. -/
def pairsOf (index : Nat) : List Value → Except Fault (List (Value × Value))
  | [] => .ok []
  | v :: rest => do
    let pair ← pairOf index v
    let pairs ← pairsOf (index + 1) rest
    return pair :: pairs

/-- The table that a value makes: a record is one, a list has to be one of pairs. -/
def tableOf (v : Value) : Except Fault Table :=
  match v with
  | .record fields => .ok (.ofFields fields)
  | .list items => (pairsOf 0 items).map Table.ofList
  | .text s => (pairsOf 0 (s.toList.map fun c => .text (String.ofList [c]))).map Table.ofList
  | other => .error (.misfit (.notIterable other.kindWord))

/-- The snapshot of a raw object. -/
def Snapshot.ofRaw (raw : Value) : Except Fault Snapshot := do
  let fields ← fieldsOf raw
  let metadata ← metadataOf raw
  let labelled ← tableOf (((metadata.get? "labels").getD .null).orElse (.record []))
  return {
    kind := ((fields.get? "kind").getD (.text "")).asText
    ns := fieldText metadata "namespace"
    name := fieldText metadata "name"
    version := fieldText metadata "resourceVersion"
    labelled := labelled
    raw := raw }

/-- The path of the object in its kind. -/
def Snapshot.path (s : Snapshot) : String :=
  Path.join s.ns s.name

end LiveCluster
