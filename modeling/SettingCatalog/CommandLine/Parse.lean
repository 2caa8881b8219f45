import SettingCatalog.CommandLine.Arguments

/-!
Command lines. An option stands behind two dashes by its name, or behind one by its letter, where
letters may stand together; its value is attached to it or follows as the next argument. A value
that follows is looked at only when the next option is reached, or at the end, so that an argument
that is not understood is reported first.
-/

namespace SettingCatalog.CommandLine

/-- What has been read: the arguments so far, the option whose value is still to be looked at, and
whether a value for it is still to come. -/
structure State where
  arguments : Arguments
  pending : Option (Parameter × Option String)

namespace State

def start : State := ⟨.empty, none⟩

def awaits (s : State) : Bool :=
  match s.pending with
  | some (_, none) => true
  | _ => false

def settle (s : State) : Except Stop State :=
  match s.pending with
  | none => .ok s
  | some (p, none) => .error (.usage (.missingValue p))
  | some (p, some value) =>
    match s.arguments.set p value with
    | .ok a => .ok ⟨a, none⟩
    | .error e => .error (.usage e)

def attach (s : State) (p : Parameter) (value : String) : Except Stop State := do
  let s ← s.settle
  settle { s with pending := some (p, some value) }

def await (s : State) (p : Parameter) : Except Stop State := do
  let s ← s.settle
  return { s with pending := some (p, none) }

def turnOn (s : State) (x : Switch) : Except Stop State := do
  let s ← s.settle
  return { s with arguments := ← s.arguments.turnOn x }

def supply (s : State) (value : String) : State :=
  match s.pending with
  | some (p, none) => { s with pending := some (p, some value) }
  | _ => s

end State

def splitEquals (cs : List Char) : String × Option String :=
  match cs.dropWhile (· != '=') with
  | [] => (String.ofList cs, none)
  | _ :: value => (String.ofList (cs.takeWhile (· != '=')), some (String.ofList value))

def longOption (s : State) (cs : List Char) : Except Stop State :=
  let (name, value) := splitEquals cs
  match Name.ofLong? name, value with
  | none, _ => .error (.usage (.unknown ("--" ++ name)))
  | some (.parameter p), some v => s.attach p v
  | some (.parameter p), none => s.await p
  | some (.switch x), some v => .error (.usage (.unexpectedValue x v))
  | some (.switch x), none => s.turnOn x

def shortOptions (s : State) : List Char → Except Stop State
  | [] => .ok s
  | c :: cs =>
    match Name.ofShort? c with
    | none => .error (.usage (.unknown ("-" ++ c.toString)))
    | some (.switch x) =>
      match s.turnOn x with
      | .ok s => shortOptions s cs
      | .error e => .error e
    | some (.parameter p) =>
      match cs with
      | [] => s.await p
      | '=' :: value => s.attach p (String.ofList value)
      | value => s.attach p (String.ofList value)

def argument (s : State) (arg : String) : Except Stop State :=
  match arg.toList with
  | '-' :: '-' :: cs => longOption s cs
  | '-' :: c :: cs => shortOptions s (c :: cs)
  | _ => if s.awaits then .ok (s.supply arg) else .error (.usage (.unknown arg))

/-- Reads all arguments. Behind `--` there may be none. -/
def readAll : State → List String → Except Stop State
  | s, [] => .ok s
  | s, arg :: args =>
    if arg = "--" then
      match args with
      | [] => .ok s
      | arg :: _ => .error (.usage (.unknown arg))
    else
      match argument s arg with
      | .ok s => readAll s args
      | .error e => .error e

def parse (args : List String) : Except Stop Arguments := do
  let s ← readAll .start args
  let s ← s.settle
  match s.arguments.conflict? with
  | some e => .error (.usage e)
  | none => return s.arguments

end SettingCatalog.CommandLine
