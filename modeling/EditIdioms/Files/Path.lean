import EditIdioms.Text.Order

/-!
# Paths

A path is a text. It is kept as it was given, so that messages show it unchanged; what it means is
told by its pieces, the texts between its slashes.

## Main definitions

* `Path.join` — a path below another one.
* `Path.pieces` — what stands between the slashes, empty pieces and all.
* `Path.components` — the pieces that count.
* `Path.fileName?` — the last component, if it is a name.
* `Path.isTooLong` — whether nothing can be found by a path.
* `Path.atMost` — the order of paths, component by component.
-/

set_option autoImplicit false

namespace EditIdioms.Path

/-- The pieces of a text between its slashes; there is one more than there are slashes. -/
def split : List Char → List (List Char)
  | [] => [[]]
  | c :: rest =>
    if c = '/' then [] :: split rest
    else
      match split rest with
      | [] => [[c]]
      | piece :: pieces => (c :: piece) :: pieces

/-- The pieces of a path. -/
def pieces (path : String) : List String := (split path.toList).map String.ofList

/-- The pieces of a path without the slashes at its end. -/
def barePieces (path : String) : List String :=
  ((pieces path).reverse.dropWhile (·.isEmpty)).reverse

/-- The most bytes a path may have to lead anywhere. -/
def limit : Nat := 4095

/-- Whether a path is too long to lead anywhere. -/
def isTooLong (path : String) : Bool := limit < path.utf8ByteSize

/-- Whether a path starts at the top. -/
def isAbsolute (path : String) : Bool := path.toList.head? == some '/'

/-- Whether a path ends with a slash, or is empty. -/
def endsOpen (path : String) : Bool := path.toList.getLast?.all (· == '/')

/-- A path below another one; an absolute path stays what it is. -/
def join (base path : String) : String :=
  if isAbsolute path then path
  else if endsOpen base then base ++ path
  else base ++ "/" ++ path

/-- The component of an absolute path that stands for the top. -/
def top : String := "/"

/-- The components of a path: empty pieces do not count, nor does a dot, except in front. -/
def components (path : String) : List String :=
  let counts (piece : String) : Bool := piece ≠ "" && piece ≠ "."
  if isAbsolute path then top :: (pieces path).filter counts
  else
    match pieces path with
    | "." :: rest => "." :: rest.filter counts
    | all => all.filter counts

/-- The path of components. -/
def ofComponents : List String → String
  | [] => ""
  | first :: rest =>
    if first = top then top ++ "/".intercalate rest else "/".intercalate (first :: rest)

/-- The last component of a path, unless it is no name. -/
def fileName? (path : String) : Option String :=
  (components path).getLast?.filter fun last => last ≠ top && last ≠ "." && last ≠ ".."

/-- Whether a path does not come after another one, component by component. -/
def atMost (p q : String) : Bool :=
  lexAtMost (fun a b => !Text.atMost b a) (components p) (components q)

end EditIdioms.Path
