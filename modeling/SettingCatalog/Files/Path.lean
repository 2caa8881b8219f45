import SettingCatalog.Text.Join

/-!
File paths as text. A path is cut at its slashes into segments; its components are the segments
that mean something, after the root or the leading `.` it may begin with.
-/

namespace SettingCatalog.FilePath

open Text (joinTexts)

inductive Component where
  | root
  | current
  | parent
  | name (s : String)
deriving DecidableEq, Repr

/-- A list of characters cut at a separator; the first segment is `pending`, read backwards, and
what stands before the first separator. -/
def splitChars (separator : Char) (pending : List Char) : List Char → List (List Char)
  | [] => [pending.reverse]
  | c :: cs =>
    if c = separator then pending.reverse :: splitChars separator [] cs
    else splitChars separator (c :: pending) cs

def segments (p : String) : List String := (splitChars '/' [] p.toList).map String.ofList

def ofSegments (segs : List String) : String := joinTexts "/" segs

def isAbsolute (p : String) : Bool := p.toList.head? == some '/'

def isIdle (s : String) : Bool := s == "" || s == "."

def component? (s : String) : Option Component :=
  if isIdle s then none else if s == ".." then some .parent else some (.name s)

/-- What a path begins with, apart from its segments, and the segments behind it. -/
def anchor (p : String) : Option Component × List String :=
  match segments p with
  | first :: rest =>
    if isAbsolute p then (some .root, rest)
    else if first == "." then (some .current, rest)
    else (none, first :: rest)
  | [] => (none, [])

def components (p : String) : List Component :=
  (anchor p).1.toList ++ (anchor p).2.filterMap component?

def trimEnd (segs : List String) : List String := (segs.reverse.dropWhile isIdle).reverse

def trimSegments (segs : List String) : List String := trimEnd (segs.dropWhile isIdle)

def stripSegments : List Component → List String → Option (List String)
  | [], segs => some segs
  | _ :: _, [] => none
  | c :: cs, s :: segs =>
    match component? s with
    | none => stripSegments (c :: cs) segs
    | some d => if d = c then stripSegments cs segs else none

def withoutTail (p : String) : String :=
  match anchor p with
  | (some .root, segs) => "/" ++ ofSegments (trimEnd segs)
  | (some .current, segs) => ofSegments ("." :: trimEnd segs)
  | (_, segs) => ofSegments (trimEnd segs)

/-- The path of a file as seen from a base that it lies below, none if it lies elsewhere. -/
def relativeTo? (base file : String) : Option String :=
  match components base with
  | [] => some (withoutTail file)
  | c :: cs =>
    match anchor file with
    | (some a, segs) =>
      if a = c then (stripSegments cs segs).map fun rest => ofSegments (trimSegments rest)
      else none
    | (none, segs) =>
      (stripSegments (c :: cs) segs).map fun rest => ofSegments (trimSegments rest)

def relative (base file : String) : String := (relativeTo? base file).getD file

/-- A path behind another one; an absolute path stands for itself. -/
def join (base p : String) : String :=
  if isAbsolute p then p
  else if base == "" || base.toList.getLast? == some '/' then base ++ p
  else base ++ "/" ++ p

def sourcePart? : Component → Option String
  | .name s => some s
  | .root => some ""
  | _ => none

/-- The path that is recorded with the settings of a file: names only, as seen from the root of
the code base. -/
def sourcePath (root file : String) : String :=
  joinTexts "/" ((components (relative root file)).filterMap sourcePart?)

def fileName? (p : String) : Option String :=
  match (components p).getLast? with
  | some (.name s) => some s
  | _ => none

/-- The part of a name behind its last dot, if there is something before the dot. -/
def extensionOfName? (name : String) : Option String :=
  let behind := name.toList.reverse.takeWhile (· != '.')
  match name.toList.reverse.dropWhile (· != '.') with
  | _ :: _ :: _ => some (String.ofList behind.reverse)
  | _ => none

def extension? (p : String) : Option String := (fileName? p).bind extensionOfName?

def bareExtension (s : String) : String := String.ofList (s.toList.dropWhile (· == '.'))

end SettingCatalog.FilePath
