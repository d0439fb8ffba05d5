import Mathlib.Algebra.GroupWithZero.Nat
import Flowchart.Proofs.Canvas.Sound

/-! # Rows as tilings

A row is a tiling (`Tiles`) when every glyph is followed by just the cells that it covers.  A part
of a tiling can be replaced by another tiling as long as no glyph is cut in two at either end
(`Tiles.splice_iff`).

A text that is written replaces a part of its row (`overwritten_writeMeasured`).  So a canvas stays
tiled exactly if a text neither begins nor ends behind the first cell of a wide glyph
(`tiled_perform_iff`): what is left of a glyph that was cut is not made good.  The result for runs
of writes is `Canvas.forall_tiled_iff_of_writes`.  The widths of characters may be any. -/

namespace Flowchart

/-- The widths of glyphs one after the other, each followed by the cells that it covers. -/
inductive Tiles : List Nat → Prop
  | nil : Tiles []
  | glyph (covered : Nat) {rest : List Nat} : Tiles rest →
      Tiles ((covered + 1) :: (List.replicate covered 0 ++ rest))

namespace Tiles

variable {s t u t' : List Nat}

theorem exists_of_cons {width : Nat} (h : Tiles (width :: s)) :
    ∃ covered rest, width = covered + 1 ∧ s = List.replicate covered 0 ++ rest ∧ Tiles rest := by
  cases h with
  | glyph covered hrest => exact ⟨covered, _, rfl, rfl, hrest⟩

theorem sum_eq_length (h : Tiles s) : s.sum = s.length := by
  induction h with
  | nil => rfl
  | glyph covered _ ih =>
      simp only [List.sum_cons, List.sum_append_nat, List.sum_replicate_nat, List.length_cons,
        List.length_append, List.length_replicate, ih]
      omega

theorem head?_ne (h : Tiles s) : s.head? ≠ some 0 := by
  cases h <;> simp

theorem append (hs : Tiles s) (ht : Tiles t) : Tiles (s ++ t) := by
  induction hs with
  | nil => exact ht
  | glyph covered _ ih =>
      rw [List.cons_append, List.append_assoc]
      exact glyph covered ih

/-- What follows a tiling at the start of a tiling is one. -/
theorem of_append (hs : Tiles s) (h : Tiles (s ++ t)) : Tiles t := by
  induction hs with
  | nil => exact h
  | @glyph covered rest _ ih =>
      rw [List.cons_append, List.append_assoc] at h
      obtain ⟨covered', rest', hcovered, hrest, h⟩ := exists_of_cons h
      obtain rfl : covered = covered' := by omega
      obtain rfl := List.append_cancel_left hrest
      exact ih h

/-- A tiling may be cut where no covered cell follows. -/
theorem left_iff (h : Tiles (s ++ t)) : Tiles s ↔ t.head? ≠ some 0 := by
  constructor
  · intro hs
    exact (hs.of_append h).head?_ne
  · intro ht
    generalize hl : s ++ t = l at h
    induction h generalizing s with
    | nil =>
        obtain ⟨rfl, -⟩ := List.append_eq_nil_iff.mp hl
        exact nil
    | @glyph covered rest _ ih =>
        cases s with
        | nil => exact nil
        | cons width s =>
            rw [List.cons_append, List.cons.injEq] at hl
            obtain ⟨rfl, hl⟩ := hl
            rcases List.append_eq_append_iff.mp hl with ⟨extra, hover, rfl⟩ | ⟨more, rfl, hrest⟩
            · -- The cut lies among the covered cells, so it is right behind them.
              cases extra with
              | nil =>
                  rw [List.append_nil] at hover
                  rw [← hover, ← List.append_nil (List.replicate covered 0)]
                  exact glyph covered nil
              | cons width extra =>
                  have hmem : width ∈ List.replicate covered 0 := by rw [hover]; simp
                  rw [List.eq_of_mem_replicate hmem] at ht
                  exact absurd rfl ht
            · exact glyph covered (ih hrest.symm)

/-- A part of a tiling may be replaced by another tiling if no glyph is cut at its ends, and only
then. -/
theorem splice_iff (h : Tiles (s ++ (t ++ u))) (ht' : Tiles t') (hne : t' ≠ []) :
    Tiles (s ++ (t' ++ u)) ↔ (t ++ u).head? ≠ some 0 ∧ u.head? ≠ some 0 := by
  constructor
  · intro hnew
    have hhead : (t' ++ u).head? ≠ some 0 := by
      rw [List.head?_append_of_ne_nil t' hne]
      exact ht'.head?_ne
    have hs : Tiles s := hnew.left_iff.mpr hhead
    have hu : Tiles u := ht'.of_append (hs.of_append hnew)
    exact ⟨h.left_iff.mp hs, hu.head?_ne⟩
  · rintro ⟨hfirst, hlast⟩
    have hs : Tiles s := h.left_iff.mpr hfirst
    rw [← List.append_assoc] at h
    have hu : Tiles u := (h.left_iff.mpr hlast).of_append h
    exact hs.append (ht'.append hu)

/-- Widths that are written into a tiling, and the two places that decide whether it stays one. -/
theorem overwrite_iff {row widths : List Nat} (h : Tiles row) (hwidths : Tiles widths)
    (hne : widths ≠ []) (first : Nat) :
    Tiles (row.take first ++ (widths ++ row.drop (first + widths.length))) ↔
      row[first]? ≠ some 0 ∧ row[first + widths.length]? ≠ some 0 := by
  have hcut : (row.drop first).take widths.length ++ row.drop (first + widths.length) =
      row.drop first := by
    rw [← List.drop_drop, List.take_append_drop]
  have hrow : Tiles (row.take first ++ ((row.drop first).take widths.length ++
      row.drop (first + widths.length))) := by
    rwa [hcut, List.take_append_drop]
  rw [hrow.splice_iff hwidths hne, hcut, List.head?_drop, List.head?_drop]

end Tiles

/-! ### Rows of a canvas -/

namespace Canvas

variable {c c₀ c' : Canvas} {x y : Int} {measure : Char → Int}

/-- The widths of the cells of a row; a row outside has none. -/
def rowWidths (c : Canvas) (y : Nat) : List Nat := (c.cells[y]?.getD []).map Cell.width

/-- Every row is a tiling. -/
def Tiled (c : Canvas) : Prop := ∀ y, Tiles (c.rowWidths y)

/-- A place belongs to a wide glyph that begins left of it. -/
def Covered (c : Canvas) (x y : Int) : Prop := ∃ cell, c.cell? x y = some cell ∧ cell.width = 0

instance (c : Canvas) (x y : Int) : Decidable (c.Covered x y) :=
  decidable_of_iff ((c.cell? x y).any fun cell => cell.width == 0) (by
    cases h : c.cell? x y <;> simp [Covered, h])

theorem getElem?_rowWidths (c : Canvas) (x y : Nat) :
    (c.rowWidths y)[x]? = (c.cell? x y).map Cell.width := by
  rw [rowWidths, List.getElem?_map, cell?_natCast]
  cases c.cells[y]? <;> rfl

theorem covered_iff (hx : 0 ≤ x) (hy : 0 ≤ y) :
    c.Covered x y ↔ (c.rowWidths y.toNat)[x.toNat]? = some 0 := by
  rw [getElem?_rowWidths, Int.toNat_of_nonneg hx, Int.toNat_of_nonneg hy, Option.map_eq_some_iff]
  rfl

theorem length_rowWidths {y : Nat} (hy : (y : Int) < c.height) :
    (c.rowWidths y).length = c.width.toNat := by
  have hrow : y < c.height.toNat := by omega
  simp [rowWidths, cells, hrow]

/-- A glyph that is put into a cell changes one width of one row. -/
theorem rowWidths_put (hin : c.Inside x y) (glyph : String) (width y' : Nat) :
    (c.update x y (Cell.holding glyph width)).rowWidths y' =
      if y.toNat = y' then (c.rowWidths y').set x.toNat width else c.rowWidths y' := by
  have hx : 0 ≤ x := hin.2.2.1
  have hy : 0 ≤ y := hin.1
  apply List.ext_getElem?
  intro x'
  rw [getElem?_rowWidths, cell?_update]
  by_cases hrow : y.toNat = y'
  · rw [if_pos hrow, List.getElem?_set]
    by_cases hcolumn : x.toNat = x'
    · have hplace : x = x' ∧ y = y' := by omega
      obtain ⟨cell, hcell⟩ := Option.isSome_iff_exists.mp ((c.cell?_isSome_iff x y).mpr hin)
      have hold := getElem?_rowWidths c x' y'
      rw [← hplace.1, ← hplace.2, hcell] at hold
      have hlt : x' < (c.rowWidths y').length := (List.getElem?_eq_some_iff.mp hold).1
      rw [if_pos hplace, if_pos hcolumn, if_pos (hcolumn ▸ hlt), ← hplace.1, ← hplace.2, hcell]
      rfl
    · rw [if_neg (by omega), if_neg hcolumn, getElem?_rowWidths]
  · rw [if_neg (by omega), if_neg hrow, getElem?_rowWidths]

theorem tiled_empty (width height : Int) : (empty width height).Tiled := by
  intro y
  have hones : ∀ row ∈ (empty width height).cells, Tiles (row.map Cell.width) := by
    intro row hrow
    obtain ⟨y, hcells⟩ := exists_of_mem_cells hrow
    have hwidths : row.map Cell.width = List.replicate row.length 1 := by
      rw [List.eq_replicate_iff]
      refine ⟨by simp, ?_⟩
      intro w hw
      obtain ⟨cell, hcell, rfl⟩ := List.mem_map.mp hw
      obtain ⟨x, hx⟩ := List.mem_iff_getElem?.mp hcell
      rw [eq_blank_of_empty ((hcells x).trans hx)]
      rfl
    rw [hwidths]
    induction row.length with
    | zero => exact .nil
    | succ n ih => exact .glyph 0 ih
  rw [rowWidths]
  cases hrow : (empty width height).cells[y]? with
  | none => exact .nil
  | some row => exact hones row (List.mem_of_getElem? hrow)

/-! ### Writing with any widths -/

/-- The number of cells that a character takes when a measure gives its width. -/
def measured (measure : Char → Int) (d : Char) : Nat := (max (measure d) 1).toNat

/-- The number of cells that some characters take. -/
def extent (measure : Char → Int) (chars : List Char) : Nat := (chars.map (measured measure)).sum

/-- Writes characters one after the other and answers with the column after them. -/
def writeMeasured (measure : Char → Int) (y : Int) : List Char → Int → Action Int
  | [], x => pure x
  | d :: rest, x => do
    draw x y d.toString (measure d)
    writeMeasured measure y rest (x + measured measure d)

/-- The widths of the cells that some characters take. -/
def widthsOf (measure : Char → Int) (chars : List Char) : List Nat :=
  chars.flatMap fun d => measured measure d :: List.replicate (measured measure d - 1) 0

theorem one_le_measured (measure : Char → Int) (d : Char) : 1 ≤ measured measure d := by
  unfold measured
  omega

theorem tiles_widthsOf (measure : Char → Int) (chars : List Char) :
    Tiles (widthsOf measure chars) := by
  induction chars with
  | nil => exact .nil
  | cons d chars ih =>
      obtain ⟨covered, hcovered⟩ := Nat.exists_eq_add_of_le' (one_le_measured measure d)
      rw [widthsOf, List.flatMap_cons, hcovered]
      exact .glyph covered ih

theorem length_widthsOf (measure : Char → Int) (chars : List Char) :
    (widthsOf measure chars).length = extent measure chars := by
  induction chars with
  | nil => rfl
  | cons d chars ih =>
      have hone := one_le_measured measure d
      simp only [widthsOf, extent] at ih
      simp only [widthsOf, extent, List.flatMap_cons, List.length_append, List.length_cons,
        List.length_replicate, List.map_cons, List.sum_cons, ih]
      omega

/-- The widths of the characters of a terminal. -/
def standardMeasure (d : Char) : Int := Text.charWidth d

theorem writeMeasured_standardMeasure (x y : Int) (text : String) :
    writeMeasured standardMeasure y text.toList x = write x y text := by
  rw [write]
  generalize text.toList = chars
  induction chars generalizing x with
  | nil => rfl
  | cons d chars ih =>
      have hwidth := Text.one_le_charWidth d
      have hmeasured : measured standardMeasure d = Text.charWidth d := by
        unfold measured standardMeasure
        omega
      rw [writeChars, writeMeasured, hmeasured, standardMeasure]
      simp only [ih]

/-- The canvas differs from another one by the widths of a part of a row. -/
structure Overwritten (c₀ : Canvas) (x y : Int) (widths : List Nat) (c : Canvas) : Prop where
  row : c.rowWidths y.toNat = (c₀.rowWidths y.toNat).take x.toNat ++
    (widths ++ (c₀.rowWidths y.toNat).drop (x.toNat + widths.length))
  others : ∀ y', y' ≠ y.toNat → c.rowWidths y' = c₀.rowWidths y'
  nonneg : widths ≠ [] → 0 ≤ x ∧ 0 ≤ y

theorem Overwritten.refl (c : Canvas) (x y : Int) : Overwritten c x y [] c where
  row := by simp
  others _ _ := rfl
  nonneg h := absurd rfl h

theorem overwritten_put (c₀ : Canvas) (x y : Int) (widths : List Nat) (glyph : String)
    (width : Nat) : Triple (Overwritten c₀ x y widths) (put (x + widths.length) y glyph width)
      fun _ => Overwritten c₀ x y (widths ++ [width]) := by
  refine Triple.put ?_
  intro c hc hin
  have hx : 0 ≤ x := by
    cases widths with
    | nil => simpa using hin.2.2.1
    | cons w widths => exact (hc.nonneg (by simp)).1
  have hcolumn : (x + widths.length).toNat = x.toNat + widths.length := by omega
  -- The cell that is changed is the first one behind what was written so far.
  have hlt : x.toNat + widths.length < (c₀.rowWidths y.toNat).length := by
    have hcell := (c.cell?_isSome_iff _ _).mpr hin
    have hwidth := getElem?_rowWidths c (x + widths.length).toNat y.toNat
    rw [Int.toNat_of_nonneg hin.2.2.1, Int.toNat_of_nonneg hin.1] at hwidth
    obtain ⟨cell, hcell⟩ := Option.isSome_iff_exists.mp hcell
    rw [hcell, hcolumn, hc.row] at hwidth
    have hlength := (List.getElem?_eq_some_iff.mp hwidth).1
    simp only [List.length_append, List.length_take, List.length_drop] at hlength
    omega
  constructor
  · have htake : ((c₀.rowWidths y.toNat).take x.toNat).length = x.toNat := by
      rw [List.length_take]
      omega
    rw [rowWidths_put hin, if_pos rfl, hc.row, hcolumn, List.drop_eq_getElem_cons hlt,
      List.set_append_right _ _ (by omega), htake, List.set_append_right _ _ (by omega)]
    simp [Nat.add_assoc]
  · intro y' hy'
    rw [rowWidths_put hin, if_neg (Ne.symm hy'), hc.others y' hy']
  · intro _
    exact ⟨hx, hin.1⟩

theorem overwritten_cover (c₀ : Canvas) (x y : Int) (widths : List Nat) (count : Nat) :
    Triple (Overwritten c₀ x y widths) (cover y count (x + widths.length))
      fun _ => Overwritten c₀ x y (widths ++ List.replicate count 0) := by
  induction count generalizing widths with
  | zero =>
      rw [List.replicate_zero, List.append_nil]
      exact Triple.pure (Q := fun _ => Overwritten c₀ x y widths) ()
  | succ count ih =>
      have hnext : x + widths.length + 1 = x + (widths ++ [0]).length := by simp; omega
      refine (overwritten_put c₀ x y widths " " 0).bind fun _ => ?_
      rw [hnext, List.replicate_succ, List.append_cons widths 0 (List.replicate count 0)]
      exact ih (widths ++ [0])

theorem overwritten_draw (c₀ : Canvas) (x y : Int) (widths : List Nat) (d : Char) :
    Triple (Overwritten c₀ x y widths) (draw (x + widths.length) y d.toString (measure d))
      fun _ => Overwritten c₀ x y (widths ++
        measured measure d :: List.replicate (measured measure d - 1) 0) := by
  have hnext : x + widths.length + 1 = x + (widths ++ [measured measure d]).length := by
    simp; omega
  unfold draw
  dsimp only
  change Triple _ (put _ _ _ (measured measure d) >>= fun _ => cover y (measured measure d - 1) _) _
  rw [List.append_cons, hnext]
  exact (overwritten_put c₀ x y widths _ _).bind fun _ => overwritten_cover c₀ x y _ _

/-- Characters replace the widths of the part of the row that they take. -/
theorem overwritten_writeMeasured (c₀ : Canvas) (x y : Int) (widths : List Nat)
    (chars : List Char) :
    Triple (Overwritten c₀ x y widths) (writeMeasured measure y chars (x + widths.length))
      fun _ => Overwritten c₀ x y (widths ++ widthsOf measure chars) := by
  induction chars generalizing widths with
  | nil =>
      rw [widthsOf, List.flatMap_nil, List.append_nil]
      exact Triple.pure (Q := fun _ => Overwritten c₀ x y widths) _
  | cons d chars ih =>
      have hone := one_le_measured measure d
      have hnext : x + widths.length + measured measure d = x +
          (widths ++ measured measure d :: List.replicate (measured measure d - 1) 0).length := by
        simp; omega
      refine (overwritten_draw c₀ x y widths d).bind fun _ => ?_
      rw [hnext, widthsOf, List.flatMap_cons, ← List.append_assoc]
      exact ih _

/-! ### Runs of writes -/

/-- A text that is to be written at a place. -/
structure Writing where
  x : Int
  y : Int
  text : String
deriving DecidableEq, Repr

namespace Writing

/-- Writes the text. -/
def perform (measure : Char → Int) (w : Writing) : Action Int :=
  writeMeasured measure w.y w.text.toList w.x

/-- The column after the text. -/
def stop (measure : Char → Int) (w : Writing) : Int := w.x + extent measure w.text.toList

/-- The text cuts no glyph of a canvas in two: neither its first place nor the one after it belongs
to a glyph that begins further left. -/
def Fits (measure : Char → Int) (w : Writing) (c : Canvas) : Prop :=
  w.text = "" ∨ ¬ c.Covered w.x w.y ∧ ¬ c.Covered (w.stop measure) w.y

instance (measure : Char → Int) (w : Writing) (c : Canvas) : Decidable (w.Fits measure c) :=
  inferInstanceAs (Decidable (_ ∨ _))

end Writing

/-- A run of writes that all end well, with the canvas after each of them. -/
inductive Writes (measure : Char → Int) : Canvas → List Writing → List Canvas → Prop
  | nil (c : Canvas) : Writes measure c [] []
  | cons {c c' : Canvas} {w : Writing} {ws : List Writing} {cs : List Canvas} {stop : Int} :
      (w.perform measure).run c = .ok stop c' → Writes measure c' ws cs →
      Writes measure c (w :: ws) (c' :: cs)

theorem overwritten_perform {w : Writing} {stop : Int}
    (hrun : (w.perform measure).run c = .ok stop c') :
    Overwritten c w.x w.y (widthsOf measure w.text.toList) c' := by
  have htriple : Triple (Overwritten c w.x w.y []) (writeMeasured measure w.y w.text.toList w.x)
      fun _ => Overwritten c w.x w.y (widthsOf measure w.text.toList) := by
    simpa using overwritten_writeMeasured c w.x w.y [] w.text.toList
  exact htriple c stop c' (.refl c w.x w.y) hrun

theorem widthsOf_ne_nil {text : String} (h : text ≠ "") : widthsOf measure text.toList ≠ [] := by
  cases hchars : text.toList with
  | nil => exact absurd (String.toList_eq_nil_iff.mp hchars) h
  | cons d chars => simp [widthsOf]

/-- A canvas stays tiled exactly if the text that is written fits. -/
theorem tiled_perform_iff (hc : c.Tiled) {w : Writing} {stop : Int}
    (hrun : (w.perform measure).run c = .ok stop c') : c'.Tiled ↔ w.Fits measure c := by
  have hover := overwritten_perform hrun
  by_cases htext : w.text = ""
  · have hsame : ∀ y, c'.rowWidths y = c.rowWidths y := by
      intro y
      by_cases hy : y = w.y.toNat
      · rw [hy, hover.row, htext]
        simp [widthsOf]
      · exact hover.others y hy
    refine iff_of_true ?_ (.inl htext)
    intro y
    rw [hsame]
    exact hc y
  have hne : widthsOf measure w.text.toList ≠ [] := widthsOf_ne_nil htext
  obtain ⟨hx, hy⟩ := hover.nonneg hne
  have hstop : (w.stop measure).toNat = w.x.toNat + (widthsOf measure w.text.toList).length := by
    rw [length_widthsOf, Writing.stop]
    omega
  have hstop' : 0 ≤ w.stop measure := by
    rw [Writing.stop]
    omega
  rw [Writing.Fits, or_iff_right htext, covered_iff hx hy, covered_iff hstop' hy, hstop,
    ← (hc w.y.toNat).overwrite_iff (tiles_widthsOf measure w.text.toList) hne, ← hover.row]
  constructor
  · intro h
    exact h w.y.toNat
  · intro h y
    by_cases hy : y = w.y.toNat
    · rw [hy]
      exact h
    · rw [hover.others y hy]
      exact hc y

/-- Where no wide glyph is, narrow characters bring none. -/
theorem uncovered_perform (hc : ∀ y, 0 ∉ c.rowWidths y) {w : Writing}
    (hnarrow : ∀ d ∈ w.text.toList, measure d ≤ 1) {stop : Int}
    (hrun : (w.perform measure).run c = .ok stop c') (y : Nat) : 0 ∉ c'.rowWidths y := by
  have hover := overwritten_perform hrun
  by_cases hy : y = w.y.toNat
  · rw [hy, hover.row]
    intro hmem
    simp only [List.mem_append] at hmem
    rcases hmem with hmem | hmem | hmem
    · exact hc _ (List.mem_of_mem_take hmem)
    · obtain ⟨d, hd, hmem⟩ := List.mem_flatMap.mp hmem
      have hone : measured measure d = 1 := by
        have := hnarrow d hd
        unfold measured
        omega
      rw [hone] at hmem
      simp at hmem
    · exact hc _ (List.mem_of_mem_drop hmem)
  · rw [hover.others y hy]
    exact hc y

theorem not_covered_of_uncovered (hc : ∀ y, 0 ∉ c.rowWidths y) (x y : Int) : ¬ c.Covered x y := by
  rintro ⟨cell, hcell, hwidth⟩
  obtain ⟨hx, hy⟩ := nonneg_of_cell? hcell
  have hzero := (covered_iff hx hy).mp ⟨cell, hcell, hwidth⟩
  exact hc _ (List.mem_of_getElem? hzero)

/-- A run keeps a canvas tiled exactly if each text fits the canvas that it finds. -/
theorem Writes.forall_tiled_iff {ws : List Writing} {cs : List Canvas} (hc : c.Tiled)
    (hrun : Writes measure c ws cs) : (∀ c' ∈ cs, c'.Tiled) ↔
      List.Forall₂ (Writing.Fits measure) ws (c :: cs).dropLast := by
  induction hrun with
  | nil => simp
  | @cons c c' w ws cs stop hwrite _ ih =>
      have hstep := tiled_perform_iff hc hwrite
      rw [List.dropLast_cons_cons, List.forall₂_cons, List.forall_mem_cons, ← hstep]
      exact and_congr_right ih

theorem Writes.tiled_of_narrow {ws : List Writing} {cs : List Canvas} (hc : c.Tiled)
    (hbare : ∀ y, 0 ∉ c.rowWidths y) (hnarrow : ∀ w ∈ ws, ∀ d ∈ w.text.toList, measure d ≤ 1)
    (hrun : Writes measure c ws cs) : ∀ c' ∈ cs, c'.Tiled := by
  induction hrun with
  | nil => simp
  | @cons c c' w ws cs stop hwrite _ ih =>
      obtain ⟨hw, hnarrow⟩ := List.forall_mem_cons.mp hnarrow
      have hfits : w.Fits measure c :=
        .inr ⟨not_covered_of_uncovered hbare _ _, not_covered_of_uncovered hbare _ _⟩
      have hc' : c'.Tiled := (tiled_perform_iff hc hwrite).mpr hfits
      exact List.forall_mem_cons.mpr ⟨hc', ih hc' (uncovered_perform hbare hw hwrite) hnarrow⟩

/-- **Rows keep their width while no glyph is cut in two.**  The canvas is written on with any
widths of characters, the standard ones being one case, and an empty canvas is tiled.  From a tiled
canvas, all canvases of a run of writes are tiled exactly if every text fits the canvas that it
finds.  They are so in particular if there are no wide glyphs.  The widths of a row of a tiled
canvas sum up to the width of the canvas. -/
theorem forall_tiled_iff_of_writes {measure : Char → Int} {c : Canvas} {ws : List Writing}
    {cs : List Canvas} (hc : c.Tiled) (hrun : Writes measure c ws cs) :
    (∀ w : Writing, w.perform standardMeasure = write w.x w.y w.text) ∧
    (∀ width height, (empty width height).Tiled) ∧
    ((∀ c' ∈ cs, c'.Tiled) ↔ List.Forall₂ (Writing.Fits measure) ws (c :: cs).dropLast) ∧
    ((∀ y, 0 ∉ c.rowWidths y) → (∀ w ∈ ws, ∀ d ∈ w.text.toList, measure d ≤ 1) →
      ∀ c' ∈ cs, c'.Tiled) ∧
    ∀ c' ∈ cs, c'.Tiled → ∀ y : Nat, y < c'.height → (c'.rowWidths y).sum = c'.width.toNat := by
  refine ⟨fun w => writeMeasured_standardMeasure w.x w.y w.text, tiled_empty,
    hrun.forall_tiled_iff hc, fun hbare hnarrow => hrun.tiled_of_narrow hc hbare hnarrow, ?_⟩
  intro c' _ htiled y hy
  rw [(htiled y).sum_eq_length, length_rowWidths hy]

/-- Texts over each other that replace wide glyphs as a whole. -/
def wholeGlyphs : List Writing :=
  [⟨0, 1, "日本"⟩, ⟨0, 1, "aé"⟩, ⟨1, 0, "日"⟩, ⟨0, 1, "本"⟩, ⟨0, 0, "x日y"⟩]

theorem forall_tiled_iff_of_writes_whole : ∃ cs, (empty 4 2).Tiled ∧
    Writes standardMeasure (empty 4 2) wholeGlyphs cs ∧ (∀ c ∈ cs, c.Tiled) ∧
    cs.map (fun c => c.picture false) =
      ["\n日本", "\naé本", " 日\naé本", " 日\n本本", "x日y\n本本"] := by
  have hempty : (empty 4 2).Tiled := tiled_empty 4 2
  obtain ⟨cs, hruns, hfits, hpictures⟩ : ∃ cs, Writes standardMeasure (empty 4 2) wholeGlyphs cs ∧
      List.Forall₂ (Writing.Fits standardMeasure) wholeGlyphs (empty 4 2 :: cs).dropLast ∧
      cs.map (fun c => c.picture false) =
        ["\n日本", "\naé本", " 日\naé本", " 日\n本本", "x日y\n本本"] := by
    refine ⟨_, .cons rfl (.cons rfl (.cons rfl (.cons rfl (.cons rfl (.nil _))))), ?_, ?_⟩
    · exact .cons (by decide +kernel) (.cons (by decide +kernel) (.cons (by decide +kernel)
        (.cons (by decide +kernel) (.cons (by decide +kernel) .nil))))
    · decide +kernel
  exact ⟨cs, hempty, hruns, (forall_tiled_iff_of_writes hempty hruns).2.2.1.mpr hfits, hpictures⟩

/-- A narrow glyph on either half of a wide one: the row gets too short or too long. -/
theorem not_tiled_of_writes :
    (∀ d, standardMeasure d ≤ 2) ∧ (empty 3 1).Tiled ∧
    (∃ cs c, Writes standardMeasure (empty 3 1) [⟨0, 0, "日"⟩, ⟨2, 0, "b"⟩, ⟨0, 0, "a"⟩] cs ∧
      cs.getLast? = some c ∧ c.rowWidths 0 = [1, 0, 1] ∧ c.picture false = "ab" ∧ ¬ c.Tiled) ∧
    (∃ cs c, Writes standardMeasure (empty 3 1) [⟨0, 0, "日"⟩, ⟨2, 0, "b"⟩, ⟨1, 0, "a"⟩] cs ∧
      cs.getLast? = some c ∧ c.rowWidths 0 = [2, 1, 1] ∧ c.picture false = "日ab" ∧ ¬ c.Tiled) := by
  have hsum : ∀ {c : Canvas}, (c.rowWidths 0).sum ≠ (c.rowWidths 0).length → ¬ c.Tiled :=
    fun hne hc => hne (hc 0).sum_eq_length
  refine ⟨?_, tiled_empty 3 1, ?_, ?_⟩
  · intro d
    have := Text.charWidth_le_two d
    unfold standardMeasure
    omega
  · refine ⟨_, _, .cons rfl (.cons rfl (.cons rfl (.nil _))), rfl, by decide +kernel,
      by decide +kernel, hsum (by decide +kernel)⟩
  · refine ⟨_, _, .cons rfl (.cons rfl (.cons rfl (.nil _))), rfl, by decide +kernel,
      by decide +kernel, hsum (by decide +kernel)⟩

end Canvas

end Flowchart
