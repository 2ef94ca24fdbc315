import WireModel.Text.Basic

/-!
# Slash separated paths

Lexical operations on paths: nothing here looks at a file system. The normal form of a path
(`clean`) has no empty and no `.` segments, `..` only at the start of a relative path, and `.` for
the empty relative path.
-/

namespace WireModel.Path

/-- The path separator. -/
def slash : UInt8 := '/'.toUInt8

/-- Whether a path starts at the root. -/
def isAbs (p : Text) : Bool := p.head? == some slash

/-- One segment of a path put on the normal form of what comes before it, last segment first. -/
def push (rooted : Bool) (stack : List Text) (seg : Text) : List Text :=
  if seg == [] || seg == "." then stack
  else if seg == ".." then
    match stack with
    | [] => if rooted then [] else [".."]
    | top :: below => if top == ".." then seg :: stack else below
  else seg :: stack

/-- The segments of the normal form of a path. -/
def segments (p : Text) : List Text :=
  ((p.splitOn slash).foldl (push (isAbs p)) []).reverse

/-- The path with the given segments. -/
def ofSegments (rooted : Bool) (segs : List Text) : Text :=
  if rooted then "/" ++ Text.join "/" segs
  else if segs.isEmpty then "."
  else Text.join "/" segs

/-- The normal form of a path. -/
def clean (p : Text) : Text := ofSegments (isAbs p) (segments p)

/-- The non-empty elements joined by slashes, in normal form; empty if all are. -/
def join (elems : List Text) : Text :=
  match elems.filter (· != []) with
  | [] => []
  | es => clean (Text.join "/" es)

/-- The directory part of a path, in normal form. -/
def dir (p : Text) : Text :=
  match p.cutLast? slash with
  | some (d, _) => clean (d ++ "/")
  | none => "."

/-- The last segment of a path. -/
def base (p : Text) : Text :=
  if p == [] then "."
  else
    let p : Text := (p.reverse.dropWhile (· == slash)).reverse
    match p.cutLast? slash with
    | some (_, b) => b
    | none => if p == [] then "/" else p

/-- The extension of a path: its last segment from the last dot on, empty without a dot. -/
def ext (p : Text) : Text :=
  let name := match p.cutLast? slash with
    | some (_, b) => b
    | none => p
  match name.cutLast? '.'.toUInt8 with
  | some (_, e) => "." ++ e
  | none => []

/-- The two lists without their longest common start. -/
def dropCommon : List Text → List Text → List Text × List Text
  | a :: as, b :: bs => if a == b then dropCommon as bs else (a :: as, b :: bs)
  | as, bs => (as, bs)

/-- The path that leads from `origin` to `target`, if the texts alone determine one: both start at the
root or none does, and no step leads down from an unknown parent. -/
def rel? (origin target : Text) : Option Text :=
  if clean origin == clean target then some "."
  else if isAbs (clean origin) != isAbs (clean target) then none
  else
    let (up, down) := dropCommon (segments origin) (segments target)
    if up.head? == some ".." && !down.isEmpty then none
    else some (Text.join "/" (up.map (fun _ => (".." : Text)) ++ down))

/-- The absolute form of a path in a working directory. -/
def absolute (cwd p : Text) : Text := if isAbs p then clean p else join [cwd, p]

end WireModel.Path
