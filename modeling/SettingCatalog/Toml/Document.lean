import SettingCatalog.Toml.Lexeme

/-!
TOML documents from text. A table may be given once: a header may name a table that was only
mentioned on the way to another one, and a key with points may only go through tables that such
keys made.
-/

namespace SettingCatalog.Toml

def maxDepth : Nat := 80

def isBareKeyChar (c : Char) : Bool := c.isAlphanum || c == '_' || c == '-'

def keyPart (cs : List Char) : Option (String × List Char) :=
  match cs with
  | '"' :: rest => basicTail [] rest
  | c :: rest =>
    if c = '\x27' then literalTail [] rest
    else match cs.takeWhile isBareKeyChar with
      | [] => none
      | name => some (String.ofList name, cs.dropWhile isBareKeyChar)
  | [] => none

def keyParts : Nat → Scanner (List String)
  | 0, _ => none
  | parts + 1, cs => do
    let (k, rest) ← keyPart (skipSpace cs)
    match skipSpace rest with
    | '.' :: rest =>
      let (ks, rest) ← keyParts parts rest
      return (k :: ks, rest)
    | rest => return ([k], rest)

def key : Scanner (List String) := keyParts (maxDepth - 1)

/-! ### Tables -/

/-- Changes the table that a path leads to. Tables on the way that are missing are made. A key
with points (`dotted`) does not go through tables that were given as such. -/
def descend (dotted : Bool) (change : Table → Option Table) :
    List String → Table → Option Table
  | [], t => change t
  | k :: ks, t =>
    match t.get? k with
    | none => do
      let child ← descend dotted change ks ⟨true, dotted, []⟩
      return t.put k (.table child)
    | some (.table child) =>
      if dotted && !child.implicit then none
      else do
        let child ← descend dotted change ks child
        return t.put k (.table child)
    | some (.tables ts) =>
      match ts.getLast? with
      | none => none
      | some child => do
        let child ← descend dotted change ks child
        return t.put k (.tables (ts.dropLast ++ [child]))
    | some _ => none

def descendInline (change : Table → Option Table) : List String → Table → Option Table
  | [], t => change t
  | k :: ks, t =>
    match t.get? k with
    | none => do
      let child ← descendInline change ks ⟨true, true, []⟩
      return t.put k (.inline child)
    | some (.inline child) =>
      if !child.implicit then none
      else do
        let child ← descendInline change ks child
        return t.put k (.inline child)
    | some _ => none

def addItem (earlier : List String) (k : String) (item : Item) (t : Table) : Option Table :=
  if t.dotted == earlier.isEmpty then none
  else match t.get? k with
    | some _ => none
    | none => some (t.put k item)

def addPair (t : Table) (ks : List String) (item : Item) : Option Table :=
  match ks.getLast? with
  | none => none
  | some k => descend true (addItem ks.dropLast k item) ks.dropLast t

def addInlinePair (t : Table) (ks : List String) (item : Item) : Option Table :=
  match ks.getLast? with
  | none => none
  | some k => descendInline (addItem ks.dropLast k item) ks.dropLast t

/-! ### Values -/

def arrayValues (value : Scanner Item) : Nat → List Item → Scanner Item
  | 0, _, _ => none
  | rounds + 1, read, cs => do
    let cs ← skipTrivia cs.length cs
    match cs with
    | ']' :: rest => return (.array read.reverse, rest)
    | _ =>
      let (v, rest) ← value cs
      let rest ← skipTrivia rest.length rest
      match rest with
      | ',' :: rest => arrayValues value rounds (v :: read) rest
      | ']' :: rest => return (.array (v :: read).reverse, rest)
      | _ => none

def inlinePairs (value : Scanner Item) : Nat → Table → Scanner Item
  | 0, _, _ => none
  | rounds + 1, t, cs => do
    let (ks, rest) ← key cs
    let rest ← mark '=' (skipSpace rest)
    let (v, rest) ← value (skipSpace rest)
    let t ← addInlinePair t ks v
    match skipSpace rest with
    | ',' :: rest => inlinePairs value rounds t rest
    | '\x7d' :: rest => return (.inline t, rest)
    | _ => none

def numberOrDate (cs : List Char) : Option (Item × List Char) :=
  match dateTime cs with
  | some r => some r
  | none =>
    match real cs with
    | some r => some r
    | none => integer cs

def value : Nat → Scanner Item
  | 0, _ => none
  | depth + 1, cs =>
    match cs with
    | '[' :: rest =>
      if depth = 0 then none else arrayValues (value depth) (rest.length + 1) [] rest
    | '\x7b' :: rest =>
      if depth = 0 then none
      else match skipSpace rest with
        | '\x7d' :: rest => some (.inline Table.explicit, rest)
        | rest => inlinePairs (value depth) (rest.length + 1) Table.explicit rest
    | 't' :: 'r' :: 'u' :: 'e' :: rest => some (.bool true, rest)
    | 'f' :: 'a' :: 'l' :: 's' :: 'e' :: rest => some (.bool false, rest)
    | c :: _ =>
      if c = '"' ∨ c = '\x27' then (string cs).map fun (s, rest) => (.text s, rest)
      else numberOrDate cs
    | [] => none

/-! ### Lines -/

/-- A table under a header, with the path of the header and whether it stands in double
brackets; the pairs before the first header have the empty path. -/
structure Section where
  path : List String
  repeated : Bool
  table : Table

structure State where
  root : Table
  current : Section

namespace State

def start : State := ⟨.explicit, ⟨[], false, .explicit⟩⟩

def close (s : State) : Option Table :=
  match s.current.path.getLast? with
  | none => some s.current.table
  | some k =>
    let change (parent : Table) : Option Table :=
      if s.current.repeated then
        match parent.get? k with
        | none => some (parent.put k (.tables [s.current.table]))
        | some (.tables ts) => some (parent.put k (.tables (ts ++ [s.current.table])))
        | some _ => none
      else
        match parent.get? k with
        | none => some (parent.put k (.table s.current.table))
        | some (.table t) =>
          if t.implicit then some (parent.put k (.table s.current.table)) else none
        | some _ => none
    descend false change s.current.path.dropLast s.root

def find? : List String → Table → Option Item
  | [], _ => none
  | [k], t => t.get? k
  | k :: ks, t =>
    match t.get? k with
    | some (.table child) => find? ks child
    | some (.tables ts) =>
      match ts.getLast? with
      | some child => find? ks child
      | none => none
    | _ => none

/-- Begins the table of a header. A table that was only mentioned before is taken up again and
moves to the end of what holds it. -/
def openTable (s : State) (path : List String) : Option State := do
  let root ← s.close
  match path.getLast? with
  | none => none
  | some k =>
    let root' ← descend false (fun parent => some (parent.erase k)) path.dropLast root
    match find? path root with
    | none => return ⟨root', ⟨path, false, .explicit⟩⟩
    | some (.table t) =>
      if t.implicit && !t.dotted then
        return ⟨root', ⟨path, false, { t with implicit := false, dotted := false }⟩⟩
      else none
    | some _ => none

def openRepeated (s : State) (path : List String) : Option State := do
  let root ← s.close
  match path.getLast? with
  | none => none
  | some k =>
    let change (parent : Table) : Option Table :=
      match parent.get? k with
      | none => some (parent.put k (.tables []))
      | some (.tables _) => some parent
      | some _ => none
    let root ← descend false change path.dropLast root
    return ⟨root, ⟨path, true, .explicit⟩⟩

def addPair (s : State) (ks : List String) (item : Item) : Option State := do
  let t ← Toml.addPair s.current.table ks item
  return { s with current := { s.current with table := t } }

end State

def line (s : State) (cs : List Char) : Option (State × List Char) :=
  match cs with
  | '[' :: '[' :: rest => do
    let (path, rest) ← key rest
    let rest ← mark ']' rest
    let rest ← mark ']' rest
    let rest ← lineEnd rest
    return (← s.openRepeated path, rest)
  | '[' :: rest => do
    let (path, rest) ← key rest
    let rest ← mark ']' rest
    let rest ← lineEnd rest
    return (← s.openTable path, rest)
  | _ => do
    let (ks, rest) ← key cs
    let rest ← mark '=' rest
    let (v, rest) ← value maxDepth (skipSpace rest)
    let rest ← lineEnd rest
    return (← s.addPair ks v, rest)

def lines : Nat → State → List Char → Option State
  | 0, _, _ => none
  | rounds + 1, s, cs =>
    match skipSpace cs with
    | [] => some s
    | '#' :: rest =>
      match lineEnd ('#' :: rest) with
      | some rest => lines rounds s rest
      | none => none
    | rest =>
      match newline rest with
      | some rest => lines rounds s rest
      | none =>
        match line s rest with
        | some (s, rest) => lines rounds s rest
        | none => none

/-- The document that a text spells. A mark of the byte order at its front does not count. -/
def parse? (text : String) : Option Table :=
  let cs := match text.toList with
    | '\ufeff' :: rest => rest
    | cs => cs
  match lines (cs.length + 1) .start cs with
  | some s => s.close
  | none => none

end SettingCatalog.Toml
