import Flowchart.Proofs.Canvas.Action
import Flowchart.Proofs.Canvas.Picture

/-! # Sound canvases

A canvas is sound when every tagged cell has ink at it or right of it in its row, and when its tags
are read as tags; the rows of its picture are then backed (`Sound.backed_of_mem_cells`).  Putting
ink anywhere keeps a canvas sound, and so does putting any glyph left of ink or where no ink is
(`Sound.put`). -/

namespace Flowchart

/-- A cell with one more tag at a side. -/
def Cell.tagging (tag : String) (side : Side) (cell : Cell) : Cell :=
  match side with
  | .before => { cell with opening := cell.opening ++ [tag] }
  | .after => { cell with closing := cell.closing ++ [tag] }

theorem Cell.inked_tagging (cell : Cell) {tag : String} {side : Side} :
    (cell.tagging tag side).Inked ↔ cell.Inked := by
  cases side <;> exact ⟨fun h => ⟨h.1, h.2⟩, fun h => ⟨h.1, h.2⟩⟩

theorem Cell.mem_tags_tagging (cell : Cell) {tag t : String} {side : Side} :
    t ∈ (cell.tagging tag side).opening ++ (cell.tagging tag side).closing ↔
      t = tag ∨ t ∈ cell.opening ++ cell.closing := by
  cases side <;> simp only [tagging, List.mem_append, List.mem_singleton] <;> tauto

namespace Canvas

variable {c : Canvas} {x y x' y' : Int} {glyph tag : String} {width : Nat} {side : Side}

/-! ### Ink -/

/-- A place shows ink. -/
def InkAt (c : Canvas) (x y : Int) : Prop := ∃ cell, c.cell? x y = some cell ∧ cell.Inked

/-- A glyph that shows as ink. -/
def Ink (glyph : String) (width : Nat) : Prop :=
  width ≠ 0 ∧ ∃ d, glyph.toList = [d] ∧ Text.isBlank d = false

theorem Ink.inked (h : Ink glyph width) (cell : Cell) : (cell.holding glyph width).Inked :=
  ⟨by simpa [Cell.isShown, Cell.holding] using h.1, h.2⟩

theorem ink_toString {d : Char} (h : Text.isBlank d = false) : Ink d.toString 1 :=
  ⟨by decide, d, by simp, h⟩

theorem InkAt.put (h : c.InkAt x' y') (hput : Ink glyph width ∨ ¬ (x = x' ∧ y = y')) :
    (c.update x y (Cell.holding glyph width)).InkAt x' y' := by
  obtain ⟨cell, hcell, hinked⟩ := h
  by_cases hplace : x = x' ∧ y = y'
  · have hink := hput.resolve_right (not_not_intro hplace)
    refine ⟨cell.holding glyph width, ?_, hink.inked cell⟩
    rw [cell?_update, if_pos hplace, hcell]
    rfl
  · refine ⟨cell, ?_, hinked⟩
    rw [cell?_update, if_neg hplace, hcell]

theorem inkAt_put (hin : c.Inside x y) (hink : Ink glyph width) :
    (c.update x y (Cell.holding glyph width)).InkAt x y := by
  obtain ⟨cell, hcell⟩ := Option.isSome_iff_exists.mp ((c.cell?_isSome_iff x y).mpr hin)
  refine ⟨cell.holding glyph width, ?_, hink.inked cell⟩
  rw [cell?_update, if_pos ⟨rfl, rfl⟩, hcell]
  rfl

theorem mark_eq_update (c : Canvas) (x y : Int) (htag : tag ≠ "") (side : Side) :
    c.mark x y tag side = c.update x y (Cell.tagging tag side) := by
  rw [mark, if_neg htag]
  rfl

theorem InkAt.mark (h : c.InkAt x' y') (x y : Int) (tag : String) (side : Side) :
    (c.mark x y tag side).InkAt x' y' := by
  by_cases htag : tag = ""
  · rwa [Canvas.mark, if_pos htag]
  · obtain ⟨cell, hcell, hinked⟩ := h
    rw [mark_eq_update c x y htag]
    by_cases hplace : x = x' ∧ y = y'
    · refine ⟨cell.tagging tag side, ?_, cell.inked_tagging.mpr hinked⟩
      rw [cell?_update, if_pos hplace, hcell]
      rfl
    · refine ⟨cell, ?_, hinked⟩
      rw [cell?_update, if_neg hplace, hcell]

/-! ### Sound canvases -/

/-- Every tagged cell has ink at it or right of it, and its tags are read as tags. -/
structure Sound (c : Canvas) : Prop where
  backed : ∀ x y cell, c.cell? x y = some cell → cell.isMarked = true →
    ∃ x', x ≤ x' ∧ c.InkAt x' y
  tagged : ∀ x y cell, c.cell? x y = some cell → ∀ tag ∈ cell.opening ++ cell.closing, IsTag tag

theorem eq_blank_of_empty {w h : Int} {cell : Cell} (hcell : (empty w h).cell? x y = some cell) :
    cell = .blank := by
  unfold cell? at hcell
  split at hcell
  · obtain rfl := Option.some.inj hcell
    simp [empty]
  · cases hcell

theorem sound_empty (width height : Int) : (empty width height).Sound := by
  refine ⟨?_, ?_⟩
  · intro x y cell hcell hmarked
    rw [eq_blank_of_empty hcell] at hmarked
    cases hmarked
  · intro x y cell hcell tag htag
    rw [eq_blank_of_empty hcell] at htag
    cases htag

/-- A glyph may be put where it is ink, left of ink, or where no ink is. -/
theorem Sound.put (h : c.Sound)
    (hsafe : Ink glyph width ∨ (∃ x', x < x' ∧ c.InkAt x' y) ∨ ¬ c.InkAt x y) :
    (c.update x y (Cell.holding glyph width)).Sound := by
  have hold : ∀ x₁ y₁ cell, (c.update x y (Cell.holding glyph width)).cell? x₁ y₁ = some cell →
      ∃ old, c.cell? x₁ y₁ = some old ∧
        old.opening = cell.opening ∧ old.closing = cell.closing := by
    intro x₁ y₁ cell hcell
    rw [cell?_update] at hcell
    split at hcell
    · obtain ⟨old, hold, rfl⟩ := Option.map_eq_some_iff.mp hcell
      exact ⟨old, hold, rfl, rfl⟩
    · exact ⟨cell, hcell, rfl, rfl⟩
  refine ⟨?_, ?_⟩
  · intro x₁ y₁ cell hcell hmarked
    obtain ⟨old, hcell, hopening, hclosing⟩ := hold x₁ y₁ cell hcell
    rw [Cell.isMarked, ← hopening, ← hclosing] at hmarked
    obtain ⟨x₂, hle, hink⟩ := h.backed x₁ y₁ old hcell hmarked
    by_cases hplace : x = x₂ ∧ y = y₁
    · obtain ⟨rfl, rfl⟩ := hplace
      rcases hsafe with hglyph | ⟨x', hlt, hright⟩ | hnone
      · exact ⟨x, hle, hink.put (.inl hglyph)⟩
      · exact ⟨x', by omega, hright.put (.inr (by omega))⟩
      · exact absurd hink hnone
    · exact ⟨x₂, hle, hink.put (.inr hplace)⟩
  · intro x₁ y₁ cell hcell
    obtain ⟨old, hcell, hopening, hclosing⟩ := hold x₁ y₁ cell hcell
    rw [← hopening, ← hclosing]
    exact h.tagged x₁ y₁ old hcell

theorem Sound.mark (h : c.Sound) (htag : IsTag tag) (side : Side)
    (hink : ∃ x', x ≤ x' ∧ c.InkAt x' y) : (c.mark x y tag side).Sound := by
  have hne : tag ≠ "" := by
    rintro rfl
    obtain ⟨body, hbody, -⟩ := htag
    cases hbody
  have hold : ∀ x₁ y₁ cell, (c.mark x y tag side).cell? x₁ y₁ = some cell →
      (∃ old, c.cell? x₁ y₁ = some old ∧ x = x₁ ∧ y = y₁ ∧ cell = old.tagging tag side) ∨
        c.cell? x₁ y₁ = some cell := by
    intro x₁ y₁ cell hcell
    rw [mark_eq_update c x y hne, cell?_update] at hcell
    split at hcell
    · next hplace =>
        obtain ⟨old, hold, rfl⟩ := Option.map_eq_some_iff.mp hcell
        exact .inl ⟨old, hold, hplace.1, hplace.2, rfl⟩
    · exact .inr hcell
  refine ⟨?_, ?_⟩
  · intro x₁ y₁ cell hcell hmarked
    rcases hold x₁ y₁ cell hcell with ⟨old, -, rfl, rfl, -⟩ | hcell
    · obtain ⟨x', hle, hright⟩ := hink
      exact ⟨x', hle, hright.mark x y tag side⟩
    · obtain ⟨x', hle, hright⟩ := h.backed x₁ y₁ cell hcell hmarked
      exact ⟨x', hle, hright.mark x y tag side⟩
  · intro x₁ y₁ cell hcell t ht
    rcases hold x₁ y₁ cell hcell with ⟨old, hcell', -, -, rfl⟩ | hcell
    · rcases old.mem_tags_tagging.mp ht with rfl | ht
      · exact htag
      · exact h.tagged x₁ y₁ old hcell' t ht
    · exact h.tagged x₁ y₁ cell hcell t ht

/-! ### The rows of a sound canvas -/

theorem cell?_natCast (c : Canvas) (x y : Nat) :
    c.cell? x y = c.cells[y]?.bind fun row => row[x]? := by
  by_cases hy : y < c.height.toNat
  · have hrow : c.cells[y]? = some c.rows[y].toList := by simp [cells, hy]
    rw [hrow, Option.bind_some]
    by_cases hx : x < c.width.toNat
    · have hin : c.Inside x y := by unfold Inside; omega
      rw [cell?, dif_pos hin]
      simp [hx]
    · have hin : ¬ c.Inside x y := by unfold Inside; omega
      rw [cell?, dif_neg hin]
      simp [hx]
  · have hin : ¬ c.Inside x y := by unfold Inside; omega
    rw [cell?, dif_neg hin]
    simp [cells, hy]

theorem nonneg_of_cell? {cell : Cell} (h : c.cell? x y = some cell) : 0 ≤ x ∧ 0 ≤ y := by
  have hin : c.Inside x y := (c.cell?_isSome_iff x y).mp (by rw [h]; rfl)
  exact ⟨hin.2.2.1, hin.1⟩

theorem exists_of_mem_cells {row : List Cell} (hrow : row ∈ c.cells) :
    ∃ y : Nat, ∀ x : Nat, c.cell? x y = row[x]? := by
  obtain ⟨y, hy⟩ := List.mem_iff_getElem?.mp hrow
  refine ⟨y, fun x => ?_⟩
  rw [cell?_natCast, hy]
  rfl

theorem Sound.backed_of_mem_cells (h : c.Sound) {row : List Cell} (hrow : row ∈ c.cells) :
    Backed row := by
  obtain ⟨y, hcell⟩ := exists_of_mem_cells hrow
  rintro cell back ⟨front, rfl⟩ hmarked
  have hhere : c.cell? front.length y = some cell := by
    rw [hcell, List.getElem?_append_right (Nat.le_refl _), Nat.sub_self]
    rfl
  obtain ⟨x', hle, cell', hcell', hinked⟩ := h.backed _ _ cell hhere hmarked
  obtain ⟨i, rfl⟩ := Int.eq_ofNat_of_zero_le (nonneg_of_cell? hcell').1
  have hi : front.length ≤ i := by omega
  rw [hcell, List.getElem?_append_right hi] at hcell'
  exact ⟨cell', List.mem_of_getElem? hcell', hinked⟩

theorem Sound.tagged_of_mem_cells (h : c.Sound) {row : List Cell} (hrow : row ∈ c.cells) :
    Tagged row := by
  obtain ⟨y, hcell⟩ := exists_of_mem_cells hrow
  intro cell hmem
  obtain ⟨x, hx⟩ := List.mem_iff_getElem?.mp hmem
  exact h.tagged x y cell ((hcell x).trans hx)

end Canvas

end Flowchart
