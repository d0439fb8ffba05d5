import Flowchart.Text.Width

/-! # Canvas of character cells

A canvas is a rectangle of cells.  A cell holds a glyph and the width of that glyph; the cells that
a wide glyph covers beside its own have width zero.  Tags may be attached to the two sides of a
cell.  Drawing outside the canvas is refused, and what was drawn before that stays: an action is a
step of the canvas that may end in an overflow.

`Canvas.cell?` is the view through which the effect of an action is described
(`Canvas.cell?_update`). -/

namespace Flowchart

/-- One place of a canvas. -/
structure Cell where
  glyph : String
  width : Nat
  opening : List String
  closing : List String
deriving DecidableEq, Repr

def Cell.blank : Cell := ⟨" ", 1, [], []⟩

/-- A cell of an empty place, tags aside. -/
def Cell.isBlank (c : Cell) : Bool := c.width == 1 && c.glyph == " "

/-- A rectangle of cells. -/
structure Canvas where
  width : Int
  height : Int
  rows : Vector (Vector Cell width.toNat) height.toNat

/-- A place outside a canvas, and the size of the canvas. -/
structure Overflow where
  x : Int
  y : Int
  width : Int
  height : Int
deriving DecidableEq, Repr

def Overflow.message (o : Overflow) : String :=
  s!"Preview content exceeds canvas bounds at ({o.x}, {o.y}) on a {o.width}x{o.height} canvas."

/-- The sides of a cell to which tags are attached. -/
inductive Side
  | before
  | after
deriving DecidableEq, Repr

namespace Canvas

def empty (width height : Int) : Canvas :=
  ⟨width, height, Vector.replicate _ (Vector.replicate _ .blank)⟩

/-- A place lies on the canvas. -/
def Inside (c : Canvas) (x y : Int) : Prop := 0 ≤ y ∧ y < c.height ∧ 0 ≤ x ∧ x < c.width

instance (c : Canvas) (x y : Int) : Decidable (c.Inside x y) :=
  inferInstanceAs (Decidable (_ ∧ _))

def cell? (c : Canvas) (x y : Int) : Option Cell :=
  if h : c.Inside x y then
    have hy : y.toNat < c.height.toNat := by unfold Inside at h; omega
    have hx : x.toNat < c.width.toNat := by unfold Inside at h; omega
    some c.rows[y.toNat][x.toNat]
  else none

/-- Applies a function to one entry of a vector. -/
def modifyAt {α : Type} {n : Nat} (v : Vector α n) (i : Nat) (f : α → α) : Vector α n :=
  ⟨v.toArray.modify i f, by simp⟩

theorem getElem_modifyAt {α : Type} {n : Nat} (v : Vector α n) (i : Nat) (f : α → α) (j : Nat)
    (h : j < n) : (modifyAt v i f)[j] = if i = j then f v[j] else v[j] := by
  rcases v with ⟨a, rfl⟩
  simp only [modifyAt, Vector.getElem_mk]
  rw [Array.getElem_modify]

/-- Changes the cell at a place; a place outside has none to change. -/
def update (c : Canvas) (x y : Int) (f : Cell → Cell) : Canvas :=
  if c.Inside x y then
    { c with rows := modifyAt c.rows y.toNat fun row => modifyAt row x.toNat f }
  else c

@[simp] theorem width_update (c : Canvas) (x y : Int) (f : Cell → Cell) :
    (c.update x y f).width = c.width := by unfold update; split <;> rfl

@[simp] theorem height_update (c : Canvas) (x y : Int) (f : Cell → Cell) :
    (c.update x y f).height = c.height := by unfold update; split <;> rfl

theorem inside_update (c : Canvas) (x y : Int) (f : Cell → Cell) (x' y' : Int) :
    (c.update x y f).Inside x' y' ↔ c.Inside x' y' := by simp [Inside]

theorem cell?_isSome_iff (c : Canvas) (x y : Int) : (c.cell? x y).isSome ↔ c.Inside x y := by
  unfold cell?; split <;> simp [*]

theorem cell?_update (c : Canvas) (x y : Int) (f : Cell → Cell) (x' y' : Int) :
    (c.update x y f).cell? x' y' =
      if x = x' ∧ y = y' then (c.cell? x' y').map f else c.cell? x' y' := by
  unfold update
  by_cases hin : c.Inside x y
  · simp only [hin, if_true]
    by_cases hin' : c.Inside x' y'
    · have hupd : ({ c with rows := modifyAt c.rows y.toNat fun row => modifyAt row x.toNat f } :
          Canvas).Inside x' y' := hin'
      unfold cell?
      rw [dif_pos hupd, dif_pos hin']
      unfold Inside at hin hin'
      simp only [getElem_modifyAt]
      by_cases hy : y = y'
      · subst hy
        by_cases hx : x = x'
        · subst hx; simp [getElem_modifyAt]
        · have : x.toNat ≠ x'.toNat := by omega
          simp [getElem_modifyAt, this, hx]
      · have : y.toNat ≠ y'.toNat := by omega
        simp [this, hy]
    · have h1 : c.cell? x' y' = none := by simp [cell?, hin']
      have h2 : ({ c with rows := modifyAt c.rows y.toNat fun row => modifyAt row x.toNat f } :
          Canvas).cell? x' y' = none := by
        simp only [cell?]
        rw [dif_neg]
        exact hin'
      rw [h1, h2]
      simp
  · simp only [hin, if_false]
    by_cases he : x = x' ∧ y = y'
    · obtain ⟨rfl, rfl⟩ := he
      simp [cell?, hin]
    · simp [he]

/-! ### Actions -/

/-- A step that draws on the canvas. -/
abbrev Action := EStateM Overflow Canvas

/-- Puts a glyph of a width into one cell. -/
def put (x y : Int) (glyph : String) (width : Nat) : Action Unit := do
  let c ← get
  if c.Inside x y then set (c.update x y fun cell => { cell with glyph, width })
  else throw ⟨x, y, c.width, c.height⟩

/-- Covers cells of a row, from left to right. -/
def cover (y : Int) : Nat → Int → Action Unit
  | 0, _ => pure ()
  | count + 1, x => do
    put x y " " 0
    cover y count (x + 1)

/-- Draws a glyph that takes a number of cells, at least one. -/
def draw (x y : Int) (glyph : String) (width : Int) : Action Unit := do
  let cells := (max width 1).toNat
  put x y glyph cells
  cover y (cells - 1) (x + 1)

/-- Draws characters one after the other and answers with the column after them. -/
def writeChars [Text.Measure] (y : Int) : List Char → Int → Action Int
  | [], x => pure x
  | c :: rest, x => do
    draw x y c.toString (Text.charWidth c)
    writeChars y rest (x + Text.charWidth c)

/-- Writes a text and answers with the column after it. -/
def write [Text.Measure] (x y : Int) (text : String) : Action Int := writeChars y text.toList x

/-- A place of the canvas is empty. -/
def isBlank (c : Canvas) (x y : Int) : Bool :=
  match c.cell? x y with
  | some cell => cell.isBlank
  | none => false

/-- Attaches a tag to a side of a cell.  An empty tag changes nothing, and neither does a place
outside the canvas, which is never shown. -/
def mark (c : Canvas) (x y : Int) (tag : String) (side : Side) : Canvas :=
  if tag = "" then c
  else c.update x y fun cell =>
    match side with
    | .before => { cell with opening := cell.opening ++ [tag] }
    | .after => { cell with closing := cell.closing ++ [tag] }

end Canvas

end Flowchart
