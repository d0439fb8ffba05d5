import Flowchart.Proofs.Canvas.Tiling

/-! # Texts cut to a width

A text that is too wide is cut: its characters are taken as long as they leave a cell for the
ellipsis.  As every character takes a cell at least, the beginning that is taken is the longest one
for which there is room (`longestWithin_takeMeasured`).  So a cut text takes no more cells than it
may, and cutting it once more leaves it as it is (`fitMeasured_longest`).

The widths of characters may be any, as long as the ellipsis takes one cell. -/

namespace Flowchart.Canvas

variable {measure : Char → Int} {chars p : List Char} {text : String} {limit : Int}

@[simp] theorem extent_nil (measure : Char → Int) : extent measure [] = 0 := rfl

@[simp] theorem extent_cons (measure : Char → Int) (d : Char) (chars : List Char) :
    extent measure (d :: chars) = measured measure d + extent measure chars := rfl

theorem extent_append (measure : Char → Int) (chars more : List Char) :
    extent measure (chars ++ more) = extent measure chars + extent measure more := by
  rw [extent, List.map_append, List.sum_append]
  rfl

/-! ### Beginnings -/

/-- The characters of a text that are taken while there is room. -/
def takeMeasured (measure : Char → Int) : Nat → List Char → List Char
  | _, [] => []
  | room, d :: rest =>
    if measured measure d ≤ room then
      d :: takeMeasured measure (room - measured measure d) rest
    else []

/-- The longest beginning of some characters for which a number of cells is enough. -/
structure LongestWithin (measure : Char → Int) (cells : Int) (chars p : List Char) : Prop where
  isPrefix : p <+: chars
  extent_le : (extent measure p : Int) ≤ cells
  longest : ∀ q, q <+: chars → (extent measure q : Int) ≤ cells → q <+: p

theorem takeMeasured_isPrefix (measure : Char → Int) (room : Nat) (chars : List Char) :
    takeMeasured measure room chars <+: chars := by
  induction chars generalizing room with
  | nil => exact List.nil_prefix
  | cons d rest ih =>
      unfold takeMeasured
      split
      · next hfits => exact (List.prefix_cons_inj d).mpr (ih _)
      · next hwide => exact List.nil_prefix

theorem extent_takeMeasured_le (measure : Char → Int) (room : Nat) (chars : List Char) :
    extent measure (takeMeasured measure room chars) ≤ room := by
  induction chars generalizing room with
  | nil => exact Nat.zero_le _
  | cons d rest ih =>
      unfold takeMeasured
      split
      · next hfits =>
          have hrest := ih (room - measured measure d)
          rw [extent_cons]
          omega
      · next hwide => exact Nat.zero_le _

theorem isPrefix_takeMeasured {room : Nat} {q : List Char} (hq : q <+: chars)
    (hroom : extent measure q ≤ room) : q <+: takeMeasured measure room chars := by
  induction chars generalizing room q with
  | nil => exact hq
  | cons d rest ih =>
      rcases List.prefix_cons_iff.mp hq with rfl | ⟨q, rfl, htail⟩
      · exact List.nil_prefix
      · rw [extent_cons] at hroom
        rw [takeMeasured, if_pos (by omega)]
        exact (List.prefix_cons_inj d).mpr (ih htail (by omega))

theorem longestWithin_takeMeasured (measure : Char → Int) (room : Nat) (chars : List Char) :
    LongestWithin measure room chars (takeMeasured measure room chars) where
  isPrefix := takeMeasured_isPrefix measure room chars
  extent_le := Int.ofNat_le.mpr (extent_takeMeasured_le measure room chars)
  longest _ hq hroom := isPrefix_takeMeasured hq (Int.ofNat_le.mp hroom)

/-! ### Fitted texts -/

/-- A text that takes at most `limit` cells, with any widths of characters. -/
def fitMeasured (measure : Char → Int) (text : String) (limit : Int) : String :=
  if limit ≤ 0 then ""
  else if extent measure text.toList ≤ limit then text
  else String.ofList (takeMeasured measure (limit.toNat - 1) text.toList ++ [Text.ellipsis])

theorem fitMeasured_eq_self (hpos : 0 < limit) (hfits : extent measure text.toList ≤ limit) :
    fitMeasured measure text limit = text := by
  rw [fitMeasured, if_neg (by omega), if_pos hfits]

theorem toList_fitMeasured_cut (hpos : 0 < limit) (hwide : limit < extent measure text.toList) :
    (fitMeasured measure text limit).toList =
      takeMeasured measure (limit.toNat - 1) text.toList ++ [Text.ellipsis] := by
  rw [fitMeasured, if_neg (by omega), if_neg (by omega), String.toList_ofList]

theorem extent_fitMeasured_le (hellipsis : measure Text.ellipsis = 1) (text : String)
    (limit : Int) : (extent measure (fitMeasured measure text limit).toList : Int) ≤
      max limit 0 := by
  rcases Int.lt_or_le 0 limit with hpos | hnone
  · rcases Int.lt_or_le limit (extent measure text.toList) with hwide | hfits
    · have htaken := extent_takeMeasured_le measure (limit.toNat - 1) text.toList
      have hcell : measured measure Text.ellipsis = 1 := by
        rw [measured, hellipsis]
        rfl
      rw [toList_fitMeasured_cut hpos hwide, extent_append, extent_cons, extent_nil, hcell]
      omega
    · rw [fitMeasured_eq_self hpos hfits]
      exact Int.le_trans hfits (Int.le_max_left _ _)
  · rw [fitMeasured, if_pos hnone]
    exact Int.le_max_right _ _

theorem fitMeasured_fitMeasured (hellipsis : measure Text.ellipsis = 1) (text : String)
    (limit : Int) : fitMeasured measure (fitMeasured measure text limit) limit =
      fitMeasured measure text limit := by
  rcases Int.lt_or_le 0 limit with hpos | hnone
  · have hle := extent_fitMeasured_le hellipsis text limit
    rw [Int.max_eq_left (Int.le_of_lt hpos)] at hle
    exact fitMeasured_eq_self hpos hle
  · simp only [fitMeasured, if_pos hnone]

/-! ### The widths of a terminal -/

theorem measured_standardMeasure (d : Char) : measured standardMeasure d = Text.charWidth d := by
  have hwidth := Text.one_le_charWidth d
  unfold measured standardMeasure
  omega

theorem extent_standardMeasure (chars : List Char) :
    extent standardMeasure chars = Text.width chars := by
  induction chars with
  | nil => rfl
  | cons d chars ih => rw [extent_cons, Text.width_cons, measured_standardMeasure, ih]

theorem takeMeasured_standardMeasure (room : Nat) (chars : List Char) :
    takeMeasured standardMeasure room chars = Text.takeWidth room chars := by
  induction chars generalizing room with
  | nil => rfl
  | cons d chars ih =>
      rw [takeMeasured, Text.takeWidth, measured_standardMeasure, ih]

theorem fitMeasured_standardMeasure (text : String) (limit : Int) :
    fitMeasured standardMeasure text limit = Text.fitText text limit := by
  rw [fitMeasured, Text.fitText, extent_standardMeasure, takeMeasured_standardMeasure]
  rfl

/-- **A text is cut no earlier than it must be.**  The widths of characters may be any, those of a
terminal being one case; only the ellipsis takes one cell.  A text fitted into a number of cells
takes no more of them.  If the whole text does, it stays as it is; otherwise its longest beginning
that leaves a cell is shown, and the ellipsis.  Fitting it once more changes nothing. -/
theorem fitMeasured_longest {measure : Char → Int} (hellipsis : measure Text.ellipsis = 1)
    (text : String) (limit : Int) :
    (∀ text limit, fitMeasured standardMeasure text limit = Text.fitText text limit) ∧
    (∀ text : String, extent standardMeasure text.toList = Text.displayWidth text) ∧
    (extent measure (fitMeasured measure text limit).toList : Int) ≤ max limit 0 ∧
    (0 < limit → extent measure text.toList ≤ limit → fitMeasured measure text limit = text) ∧
    (0 < limit → limit < extent measure text.toList →
      ∃ p, LongestWithin measure (limit - 1) text.toList p ∧
        (fitMeasured measure text limit).toList = p ++ [Text.ellipsis]) ∧
    fitMeasured measure (fitMeasured measure text limit) limit =
      fitMeasured measure text limit := by
  refine ⟨fitMeasured_standardMeasure, fun text => extent_standardMeasure text.toList,
    extent_fitMeasured_le hellipsis text limit, fitMeasured_eq_self, fun hpos hwide => ?_,
    fitMeasured_fitMeasured hellipsis text limit⟩
  have hcells : ((limit.toNat - 1 : Nat) : Int) = limit - 1 := by omega
  exact ⟨_, hcells ▸ longestWithin_takeMeasured measure (limit.toNat - 1) text.toList,
    toList_fitMeasured_cut hpos hwide⟩

/-- A text of wide characters that is cut in front of one for which there is half the room. -/
theorem fitMeasured_longest_straddling : standardMeasure Text.ellipsis = 1 ∧
    (4 : Int) < extent standardMeasure "漢字x".toList ∧
    (fitMeasured standardMeasure "漢字x" 4).toList = ['漢', '…'] ∧
    LongestWithin standardMeasure 3 "漢字x".toList ['漢'] ∧
    fitMeasured standardMeasure "漢…" 4 = "漢…" := by
  have hellipsis : standardMeasure Text.ellipsis = 1 := by decide +kernel
  have hwide : (4 : Int) < extent standardMeasure "漢字x".toList := by decide +kernel
  have hshown : (fitMeasured standardMeasure "漢字x" 4).toList = ['漢', '…'] := by decide +kernel
  obtain ⟨-, -, -, -, hcut, htwice⟩ := fitMeasured_longest hellipsis "漢字x" 4
  obtain ⟨p, hlongest, hp⟩ := hcut (by decide) hwide
  obtain rfl : p = ['漢'] := List.append_cancel_right (hp.symm.trans hshown)
  rw [String.toList_injective (hshown.trans (by decide : _ = "漢…".toList))] at htwice
  exact ⟨hellipsis, hwide, hshown, hlongest, htwice⟩

end Flowchart.Canvas
