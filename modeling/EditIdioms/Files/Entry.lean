/-!
# Directory trees

## Main definitions

* `Entry` — a file with its content, or a directory with named entries.
* `Entry.child?`, `Entry.at?` — looking up a name, and a list of names.
* `Entry.put` — an entry in the place of another one, or next to it.
-/

set_option autoImplicit false

namespace EditIdioms

/-- A file or a directory. The entries of a directory come in the order in which it lists them. -/
inductive Entry where
  | file (content : List UInt8)
  | directory (entries : List (String × Entry))

namespace Entry

/-- Whether the entry is a directory. -/
def isDirectory : Entry → Bool
  | file _ => false
  | directory _ => true

/-- The entries of a directory. -/
def entries : Entry → List (String × Entry)
  | file _ => []
  | directory entries => entries

/-- The entry of a directory with the given name. -/
def child? (e : Entry) (name : String) : Option Entry := e.entries.lookup name

/-- The entry that a list of names leads to. -/
def at? : Entry → List String → Option Entry
  | e, [] => some e
  | e, name :: rest => (e.child? name).bind (·.at? rest)

/-- Gives the name a new entry, at the end if it had none. -/
def putChild (name : String) (new : Entry) : List (String × Entry) → List (String × Entry)
  | [] => [(name, new)]
  | (other, e) :: rest =>
    if other = name then (name, new) :: rest else (other, e) :: putChild name new rest

/-- Puts a new entry where a list of names leads. Only the last name may be new; otherwise nothing
changes. -/
def put : Entry → List String → (new : Entry) → Entry
  | _, [], new => new
  | file content, _ :: _, _ => file content
  | directory entries, name :: rest, new =>
    match entries.lookup name with
    | some e => directory (putChild name (e.put rest new) entries)
    | none => if rest.isEmpty then directory (putChild name new entries) else directory entries

end Entry

end EditIdioms
