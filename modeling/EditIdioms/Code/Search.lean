import EditIdioms.Code.Site

/-!
# Searching the code of one executable

A search from a site looks at the site itself and at everything below it, but does not enter the
executables and classes it meets on the way down: what a lambda does is not done by the code around
it.

## Main definitions

* `Pattern`, `Pattern.holds` — conditions on a site: on its kind, on its parent, and their
  combinations.
* `Site.inner` — the children a search goes on to.
* `Site.findAll`, `Site.findFirst?` — the sites of a search on which a pattern holds, in pre-order,
  and the first of them.
-/

set_option autoImplicit false

namespace EditIdioms

/-- A condition on a site. -/
inductive Pattern where
  /-- The kind of the node satisfies a predicate. -/
  | kind (predicate : NodeKind → Bool)
  /-- The node has a parent on which a pattern holds. -/
  | childOf (parent : Pattern)
  | all (p q : Pattern)
  | any (p q : Pattern)
  | not (p : Pattern)

namespace Pattern

/-- Whether the pattern holds on a site. -/
def holds : Pattern → Site → Bool
  | kind predicate, s => predicate s.kind
  | childOf parent, s => s.parent?.any parent.holds
  | all p q, s => p.holds s && q.holds s
  | any p q, s => p.holds s || q.holds s
  | not p, s => !p.holds s

/-- A `return` statement. -/
def returnStatement : Pattern := kind fun k => match k with | .returnStatement => true | _ => false

/-- A `break` statement. -/
def breakStatement : Pattern := kind fun k => match k with | .breakStatement => true | _ => false

/-- An `if` statement. -/
def ifStatement : Pattern := kind fun k => match k with | .ifStatement => true | _ => false

/-- An arm of a `switch` statement. -/
def caseArm : Pattern := kind fun k => match k with | .caseArm => true | _ => false

/-- A `while` loop. -/
def whileLoop : Pattern := kind fun k => match k with | .whileLoop => true | _ => false

/-- A method call, whatever its signature. -/
def invocation : Pattern := kind fun k => match k with | .invocation _ => true | _ => false

/-- A field read or a method call. -/
def dereference : Pattern :=
  kind fun k => match k with | .fieldRead _ => true | .invocation _ => true | _ => false

end Pattern

namespace Site

/-- The children that belong to the same executable. -/
def inner (s : Site) : List Site :=
  s.children.filter fun c => !c.kind.isExecutable && !c.kind.isClass

/-- The sites at most `bound` levels down on which the pattern holds. -/
def findAllWithin (p : Pattern) : (bound : Nat) → Site → List Site
  | 0, _ => []
  | bound + 1, s =>
    let below := s.inner.flatMap (findAllWithin p bound)
    if p.holds s then s :: below else below

/-- The sites of a search on which the pattern holds, in pre-order. -/
def findAll (s : Site) (p : Pattern) : List Site := findAllWithin p s.tree.size s

/-- The first site at most `bound` levels down on which the pattern holds. -/
def findFirstWithin? (p : Pattern) : (bound : Nat) → Site → Option Site
  | 0, _ => none
  | bound + 1, s => if p.holds s then some s else s.inner.findSome? (findFirstWithin? p bound)

/-- The first site of a search, in pre-order, on which the pattern holds. -/
def findFirst? (s : Site) (p : Pattern) : Option Site := findFirstWithin? p s.tree.size s

end Site

end EditIdioms
