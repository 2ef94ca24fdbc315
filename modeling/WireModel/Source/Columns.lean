import WireModel.Source.Gap

/-!
# Columns

Neighbouring lines of cells are aligned: all cells of a column are filled up to the widest one and a
blank. A line without a further cell ends the column. The entries of a table are aligned only where
their keys have similar lengths.
-/

namespace WireModel.Source

/-- A text filled up with blanks to a width. -/
def padTo (width : Nat) (t : Text) : Text :=
  t ++ List.replicate (width - t.runes.length) ' '.toUInt8

/-! ## Cells -/

/-- The width of a column: of its widest cell and a blank, or nothing if all cells are empty. -/
def columnWidth (cells : List Text) : Nat :=
  if cells.all (·.isEmpty) then 0 else (cells.map fun c => c.runes.length + 1).foldl max 0

/-- The lines of rows of cells. The fuel bounds the number of columns. -/
def alignCells : (fuel : Nat) → List (List Text) → Lines
  | 0, rows => rows.map List.flatten
  | fuel + 1, rows =>
    let isSplit (r : List Text) : Bool := 1 < r.length
    (rows.splitBy fun a b => isSplit a && isSplit b).flatMap fun block =>
      if block.any isSplit then
        let width := columnWidth (block.map (·.headD []))
        (block.zip (alignCells fuel (block.map List.tail))).map fun (r, rest) =>
          padTo width (r.headD []) ++ rest
      else block.map List.flatten

/-- The lines of rows of cells. -/
def alignColumns (rows : List (List Text)) : Lines :=
  alignCells ((rows.map List.length).foldl max 0) rows

/-! ## Keys and values -/

/-- A line of a table: a key, and a value on one or several lines. -/
structure Row where
  key : Text
  value : Lines

/-- The length of a row's key, and zero for a row on several lines. -/
def Row.size (r : Row) : Nat := if r.value.length ≤ 1 then r.key.length else 0

/-- Up to this length keys are aligned whatever their lengths are. -/
def smallKey : Nat := 40

/-- Whether two keys are small. -/
def areSmall (a b : Nat) : Bool := a ≤ smallKey && b ≤ smallKey

/-- Whether a row may not be aligned with the row before: one of the two spans several lines, or
one is long and its length differs by a factor of two and a half or more from the mean of `sizes`,
the lengths it is measured by. -/
def breaksColumn (prev : Nat) (sizes : List Nat) (size : Nat) : Bool :=
  if prev = 0 || size = 0 then true
  else if areSmall prev size then false
  else
    let n := sizes.length
    let total := sizes.foldr (· + ·) 0
    5 * size * n ≤ 2 * total || 5 * total ≤ 2 * size * n

/-- The rows in groups that are aligned with each other. `sizes` are the lengths by which the next
row is measured: those of the group, but a small one behind a small one does not count. -/
def rowGroups : (sizes : List Nat) → List Row → List (List Row)
  | _, [] => []
  | sizes, r :: rs =>
    match rs with
    | [] => [[r]]
    | next :: _ =>
      if breaksColumn r.size sizes next.size then [r] :: rowGroups [next.size] rs
      else
        match rowGroups (if areSmall r.size next.size then sizes else next.size :: sizes) rs with
        | [] => [[r]]
        | g :: gs => (r :: g) :: gs

/-- The lines of rows, with the values of a group in one column. -/
def alignRows (rs : List Row) : Lines :=
  (rowGroups ((rs.head?.map Row.size).toList) rs).flatMap fun g =>
    let width := (g.map fun r => r.key.runes.length + 2).foldl max 0
    g.flatMap fun r => (Lines.lead (padTo width (r.key ++ ":")) r.value).trail ","

end WireModel.Source
