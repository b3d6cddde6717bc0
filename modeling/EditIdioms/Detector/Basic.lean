import EditIdioms.Diff.FileDiff
import EditIdioms.Rule

/-!
# Detectors and chains

A detector recognises one idiom. It says which kinds of edit it looks at and, for such an edit,
which rule it sees. A chain asks one detector after the other and keeps the first answer, so a
detector for a special case stands before one that would also recognise the general case.

Looking at an edit may reach for a node that is not there; the fault then ends the classification,
and a detector that is not asked cannot cause one.

## Main definitions

* `Detector` — a name, the kinds of edit it accepts, and what it recognises.
* `Chain`, `Chain.classify` — detectors in order, and the first rule one of them sees.
* `Chain.slots` — the rules of all edits of a compared file, one slot for each.
-/

set_option autoImplicit false

namespace EditIdioms

/-- Something that recognises one idiom in an edit. -/
structure Detector where
  name : String
  /-- The kinds of edit the detector is asked about. -/
  kinds : List EditKind
  /-- The rule the detector sees in an edit. -/
  recognise : Edit Site → Except ArenaFault (Option Rule)

namespace Detector

/-- Whether the detector is asked about edits of a kind. -/
def accepts (d : Detector) (kind : EditKind) : Bool := kind ∈ d.kinds

/-- A detector that looks at inserted nodes. -/
def onInsert (name : String) (recognise : Site → Except ArenaFault (Option Rule)) : Detector where
  name
  kinds := [.insert]
  recognise edit :=
    match edit.inserted? with
    | none => .ok none
    | some node => recognise node

/-- A detector that looks at deleted nodes. -/
def onDelete (name : String) (recognise : Site → Except ArenaFault (Option Rule)) : Detector where
  name
  kinds := [.delete]
  recognise edit :=
    match edit.deleted? with
    | none => .ok none
    | some node => recognise node

/-- A detector that looks at the two nodes of edits of one kind. -/
def onPair (name : String) (kind : EditKind)
    (recognise : Site → Site → Except ArenaFault (Option Rule)) : Detector where
  name
  kinds := [kind]
  recognise edit :=
    match edit.pair? with
    | none => .ok none
    | some (before, after) => recognise before after

end Detector

/-- Detectors in the order in which they are asked. -/
abbrev Chain := List Detector

namespace Chain

/-- The rule of the first detector that accepts the kind of the edit and recognises it. -/
def classify : Chain → Edit Site → Except ArenaFault (Option Rule)
  | [], _ => .ok none
  | detector :: rest, edit =>
    if detector.accepts edit.kind then
      match detector.recognise edit with
      | .ok none => classify rest edit
      | .ok (some rule) => .ok (some rule)
      | .error fault => .error fault
    else classify rest edit

/-- One slot for every edit of a compared file, in script order. -/
def slots (chain : Chain) (d : FileDiff) : Except ArenaFault (List (Option Rule)) :=
  d.edits.mapM chain.classify

end Chain

end EditIdioms
