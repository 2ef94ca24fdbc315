/-!
# Orders that respect dependencies

Things are placed one after the other. At every step the first thing of a given ranking goes next
that is not placed yet and whose needs are all placed.
-/

namespace WireModel

variable {α : Type} [DecidableEq α]

/-- The things of `todo` in placing order, after those already placed. Things whose needs can
never be met are left out. -/
def schedule (needs : α → List α) (placed todo : List α) : List α :=
  match h : todo.find? fun x => (needs x).all placed.contains with
  | none => []
  | some x => x :: schedule needs (x :: placed) (todo.erase x)
termination_by todo.length
decreasing_by
  have hx := List.mem_of_find?_eq_some h
  have hpos := List.length_pos_of_mem hx
  rw [List.length_erase_of_mem hx]
  omega

end WireModel
