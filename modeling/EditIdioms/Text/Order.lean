/-!
# The order of texts

## Main definitions

* `lexAtMost` — the order of lists that goes by the first place where they differ.
* `Text.atMost` — texts by their code points.
-/

set_option autoImplicit false

namespace EditIdioms

/-- Whether a list does not come after another one: the first place where they differ decides, and a
list comes after its beginnings. -/
def lexAtMost {α : Type} (before : α → α → Bool) : List α → List α → Bool
  | [], _ => true
  | _ :: _, [] => false
  | a :: as, b :: bs => before a b || (!before b a && lexAtMost before as bs)

/-- Whether a text does not come after another one by code points, which is also the order of their
UTF-8 bytes. -/
def Text.atMost (s t : String) : Bool :=
  lexAtMost (fun c d => c.toNat < d.toNat) s.toList t.toList

end EditIdioms
