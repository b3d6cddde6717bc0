import EditIdioms.Code.Search

/-!
# Null tests and what they guard

Questions about the code around a null test: which expression is tested, whether a branch returns,
and where the tested expression is dereferenced.

## Main definitions

* `Site.nullTest?` — the expression compared with `null`, and how.
* `Site.reachesReturn` — whether the code returns.
* `Dereference`, `Site.dereference?` — the first dereference of an expression in a piece of code.
* `Site.dereferenceAfter` — the first one in the siblings that follow.
-/

set_option autoImplicit false

namespace EditIdioms

/-- How an expression is dereferenced. -/
inductive Dereference where
  | fieldRead (field : String)
  | invocation (signature : String)
deriving DecidableEq

/-- The dereference a node performs on its receiver. -/
def NodeKind.dereference? : NodeKind → Option Dereference
  | fieldRead field => some (.fieldRead field)
  | invocation signature => some (.invocation signature)
  | _ => none

namespace Site

/-- For a comparison by `==` or `!=` of which exactly one side is the literal `null`: the other
side, and the operator. -/
def nullTest? (s : Site) : Option (Site × BinaryOperator) :=
  match s.kind with
  | .binary op =>
    if op = .equal ∨ op = .notEqual then
      match s.child? 0, s.child? 1 with
      | some left, some right =>
        match left.kind.isNullLiteral, right.kind.isNullLiteral with
        | false, true => some (left, op)
        | true, false => some (right, op)
        | _, _ => none
      | _, _ => none
    else none
  | _ => none

/-- Whether a `return` belongs to the code at the site. -/
def reachesReturn (s : Site) : Bool := (s.findFirst? .returnStatement).isSome

/-- Whether the receiver is the same expression as `expr`. -/
def hasReceiver (s expr : Site) : Bool := (s.child? 0).any (·.sameStructure expr)

/-- The first field read or call in the code at the site whose receiver is the same expression as
`expr`. -/
def dereference? (s expr : Site) : Option Dereference :=
  ((s.findAll .dereference).filter (·.hasReceiver expr)).findSome? (·.kind.dereference?)

/-- The first dereference of `expr` in the siblings that follow the site. -/
def dereferenceAfter (s expr : Site) : Except ArenaFault (Option Dereference) :=
  match s.parent? with
  | none => .ok none
  | some parent => do
    match ← s.indexInParent with
    | none => return none
    | some position => return (parent.children.drop (position + 1)).findSome? (·.dereference? expr)

end Site

end EditIdioms
