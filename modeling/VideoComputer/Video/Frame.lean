/-
VideoComputer.Video.Frame — a picture of 262 lines with 160 pixels each.

Pixels are addressed by row and column from the top left. The rows are kept
in one flat vector; `get` and `set` are the only access, and both check that
row and column are on the picture.
-/
import VideoComputer.Video.Color

namespace VideoComputer

/-- A picture. -/
structure Frame where
  pixels : Vector Pixel 41920
  deriving DecidableEq

namespace Frame

/-- Pixels in a row. -/
def width : Nat := 160

/-- Rows of a picture. -/
def height : Nat := 262

/-- A picture of one color. -/
def filled (color : Pixel) : Frame := ⟨.replicate 41920 color⟩

/-- The picture before anything was drawn. -/
def black : Frame := filled .black

/-- Whether there is a pixel at this row and column. -/
def Contains (row col : Nat) : Prop := row < 262 ∧ col < 160

instance (row col : Nat) : Decidable (Contains row col) :=
  inferInstanceAs (Decidable (row < 262 ∧ col < 160))

/-- A row and column on the picture have a place in the flat vector. -/
theorem index_lt {row col : Nat} (h : Contains row col) : row * 160 + col < 41920 := by
  have := h.1
  have := h.2
  omega

/-- The color at a row and column; black off the picture. -/
def get (f : Frame) (row col : Nat) : Pixel :=
  if h : Contains row col then
    have := index_lt h
    f.pixels[row * 160 + col]
  else .black

/-- Changes the color at a row and column; off the picture nothing changes
(`set_pixel`). -/
def set (f : Frame) (row col : Nat) (color : Pixel) : Frame :=
  if h : Contains row col then ⟨f.pixels.set (row * 160 + col) color (index_lt h)⟩ else f

/-- Changes the color at a row and column of the picture. -/
def set? (f : Frame) (row col : Nat) (color : Pixel) : Option Frame :=
  if Contains row col then some (f.set row col color) else none

/-- The colors of a row, from left to right. -/
def row (f : Frame) (r : Nat) : List Pixel :=
  (List.range width).map (f.get r)

/-- All rows, from top to bottom. -/
def rows (f : Frame) : List (List Pixel) :=
  (List.range height).map f.row

/-! ## The picture through its pixels -/

@[simp] theorem get_filled {row col : Nat} (h : Contains row col) (color : Pixel) :
    (filled color).get row col = color := by
  simp [get, filled, h]

/-- Drawing a pixel changes that pixel and no other. -/
theorem get_set {row col r c : Nat} (h : Contains row col) (hr : Contains r c) (f : Frame)
    (color : Pixel) :
    (f.set row col color).get r c = if row = r ∧ col = c then color else f.get r c := by
  have hc := h.2
  have hrc := hr.2
  simp only [get, set, h, hr, dite_true, Vector.getElem_set]
  have same : row * 160 + col = r * 160 + c ↔ row = r ∧ col = c := by omega
  simp only [same]

end Frame

end VideoComputer
