/-!
# Loops that place things

A loop makes an order in which things come after what they need. At every pass it looks for a thing
that is not placed yet and whose needs are all placed, and places it. Neither loop asks whether
there is one: without one the first kind of loop passes over the things for ever, and the second
kind breaks off.
-/

namespace WireModel

variable {α : Type} [DecidableEq α]

/-- Whether a thing can be placed: it is not placed, and its needs are. -/
def canPlace (needs : α → List α) (placed : List α) (x : α) : Bool :=
  !placed.contains x && (needs x).all placed.contains

/-! ## The first of sorted things -/

/-- One pass: the first thing that can be placed is. -/
def placeFirst (needs : α → List α) (sorted placed : List α) : List α :=
  match sorted.find? (canPlace needs placed) with
  | some x => placed ++ [x]
  | none => placed

/-- The loop makes passes until as many things are placed as there are, and has then made this
order. Where no thing can be placed there is no end to it, and no order. -/
inductive PlacesAll (needs : α → List α) (sorted : List α) : (placed order : List α) → Prop
  | stop {placed : List α} (h : ¬ placed.length < sorted.length) :
    PlacesAll needs sorted placed placed
  | pass {placed order : List α} (h : placed.length < sorted.length)
    (rest : PlacesAll needs sorted (placeFirst needs sorted placed) order) :
    PlacesAll needs sorted placed order

/-! ## The one with the smallest rank -/

/-- One pass over all things: of those that can be placed the one with the smallest rank. -/
def leastReady? (rank : α → Nat) (needs : α → List α) (all placed : List α) : Option α :=
  all.foldl (fun next x =>
    if canPlace needs placed x then
      match next with
      | some y => if rank x < rank y then some x else next
      | none => some x
    else next) none

/-- One pass for each thing; nothing if a pass finds none to place. -/
def placeEach? (rank : α → Nat) (needs : α → List α) (all : List α) : Option (List α) :=
  all.foldlM (fun placed _ => (leastReady? rank needs all placed).map fun x => placed ++ [x]) []

end WireModel
