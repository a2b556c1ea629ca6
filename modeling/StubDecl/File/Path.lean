import StubDecl.Text.Basic

/-!
# Paths

Slash separated paths. `Path.clean` is the shortest path that means the same without looking at any
file; `Path.join` puts a path below a directory.
-/

namespace StubDecl.Path

/-- Whether a path starts at the root. -/
def isAbsolute (p : Text) : Bool := p.head? = some 0x2f

/-- The components of a path that name something. -/
def components (p : Text) : List Text :=
  (p.splitOn 0x2f).filter fun c => !c.isEmpty && c ≠ "."

/-- One more component on a stack, the innermost first. A step up takes a component away; above the
root there is nothing. -/
def push (rooted : Bool) (stack : List Text) (c : Text) : List Text :=
  if c = ".." then
    match stack with
    | [] => if rooted then [] else [".."]
    | d :: ds => if d = ".." then ".." :: d :: ds else ds
  else c :: stack

/-- The shortest path that means the same. -/
def clean (p : Text) : Text :=
  let rooted := isAbsolute p
  let cs := ((components p).foldl (push rooted) []).reverse
  if rooted then 0x2f :: Text.joinWith "/" cs
  else if cs.isEmpty then "."
  else Text.joinWith "/" cs

/-- A path below a directory. Without a directory it stays as it is. -/
def join (dir p : Text) : Text :=
  if dir.isEmpty then (if p.isEmpty then [] else clean p) else clean (dir ++ "/" ++ p)

/-- An absolute path as it is, any other below a directory. -/
def below (dir p : Text) : Text := if isAbsolute p then p else join dir p

/-- The absolute path that `p` means in the directory `dir`. -/
def absolute (dir p : Text) : Text := if isAbsolute p then clean p else join dir p

/-- The directory that a path lies in. -/
def parent (p : Text) : Text :=
  let rev := p.reverse.dropWhile (· ≠ 0x2f)
  clean rev.reverse

end StubDecl.Path
