/-!
# Directories

A directory on a node is reached over one channel.  `Dir.child` is the directory at a path taken from it, on the same
node and over the same channel: an absolute path replaces, a relative one is joined by one slash, and `./` in
front or a slash behind make no difference.
-/

namespace Rejoin

/-- A directory on a node (the empty name is the controller), reached over a channel. -/
structure Dir where
  node : String
  path : String
  channel : Nat
deriving DecidableEq, Repr

namespace Dir

/-- A path without any `./` at its front. -/
def dropDots : List Char → List Char
  | '.' :: '/' :: r => dropDots r
  | cs => cs

/-- A path without any slash at its end. -/
def dropSlashes (cs : List Char) : List Char := (cs.reverse.dropWhile (· = '/')).reverse

/-- Two directories are the same when they have one path over one channel. -/
def same (d e : Dir) : Bool := d.path = e.path && d.channel = e.channel

theorem same_iff {d e : Dir} : d.same e = true ↔ d.path = e.path ∧ d.channel = e.channel := by simp [same]

@[simp] theorem same_self (d : Dir) : d.same d = true := by simp [same]

/-- Another path, on the same node and channel. -/
def withPath (d : Dir) (path : String) : Dir := { d with path }

@[simp] theorem withPath_self (d : Dir) : d.withPath d.path = d := rfl

/-! ### Children -/

/-- A relative path as it is appended: nothing for the directory itself. -/
def relative (cs : List Char) : List Char :=
  let r := dropSlashes (dropDots cs)
  if r = ['.'] then [] else r

/-- The path of a child: an absolute path replaces, a relative one is joined by one slash. -/
def childPath (base rel : List Char) : List Char :=
  if rel.head? = some '/' then rel
  else if relative rel = [] then base
  else dropSlashes base ++ '/' :: relative rel

/-- The directory at a path taken from this one. -/
def child (d : Dir) (rel : String) : Dir :=
  d.withPath (String.ofList (childPath d.path.toList rel.toList))

@[simp] theorem dropSlashes_nil : dropSlashes [] = [] := rfl

@[simp] theorem dropDots_dots (cs : List Char) : dropDots ('.' :: '/' :: cs) = dropDots cs := rfl

theorem childPath_absolute (base rel : List Char) : childPath base ('/' :: rel) = '/' :: rel := rfl

@[simp] theorem childPath_nil (base : List Char) : childPath base [] = base := rfl

@[simp] theorem childPath_dot (base : List Char) : childPath base ['.'] = base := rfl

@[simp] theorem child_node (d : Dir) (rel : String) : (d.child rel).node = d.node := rfl

@[simp] theorem child_channel (d : Dir) (rel : String) : (d.child rel).channel = d.channel := rfl

@[simp] theorem toList_child_path (d : Dir) (rel : String) :
    (d.child rel).path.toList = childPath d.path.toList rel.toList := by
  simp [child, withPath]

end Dir

end Rejoin
