import Flowchart.Text.Width

/-! # Fitting a text

A fitted text takes no more cells than its limit (`displayWidth_fitText_le`), and its characters are
those of the text and the ellipsis (`mem_fitText`).  A text that takes no more cells than the limit
stays as it is (`fitText_eq_self`). -/

namespace Flowchart.Text

variable [Measure]

theorem takeWidth_isPrefix (room : Nat) (s : List Char) : (takeWidth room s).IsPrefix s := by
  induction s generalizing room with
  | nil => exact List.nil_prefix
  | cons c s ih =>
      unfold takeWidth
      split
      · next hfits => exact (List.prefix_cons_inj c).mpr (ih (room - charWidth c))
      · next hwide => exact List.nil_prefix

theorem displayWidth_fitText_le (text : String) {limit : Int} (h : 0 ≤ limit) :
    (displayWidth (fitText text limit) : Int) ≤ limit := by
  unfold fitText
  split
  · exact h
  · next hpos =>
      split
      · assumption
      · have hwidth := width_takeWidth_le (limit.toNat - 1) text.toList
        have hellipsis : width [ellipsis] = 1 := charWidth_ellipsis
        rw [displayWidth, String.toList_ofList, width_append, hellipsis]
        omega

theorem mem_fitText {text : String} {limit : Int} {d : Char} (h : d ∈ (fitText text limit).toList) :
    d ∈ text.toList ∨ d = ellipsis := by
  unfold fitText at h
  split at h
  · cases h
  · split at h
    · exact .inl h
    · rw [String.toList_ofList, List.mem_append, List.mem_singleton] at h
      rcases h with htaken | hellipsis
      · exact .inl ((takeWidth_isPrefix _ _).mem htaken)
      · exact .inr hellipsis

theorem one_le_displayWidth {text : String} (h : text ≠ "") : 1 ≤ displayWidth text := by
  cases hchars : text.toList with
  | nil => exact absurd (String.toList_injective hchars) h
  | cons d rest =>
      have hwidth := one_le_charWidth d
      rw [displayWidth, hchars, width_cons]
      omega

theorem fitText_eq_self {text : String} {limit : Int} (h : (displayWidth text : Int) ≤ limit) :
    fitText text limit = text := by
  rw [fitText, if_pos h]
  split
  · next hnone =>
      by_cases hempty : text = ""
      · exact hempty.symm
      · have hwidth := one_le_displayWidth hempty
        omega
  · rfl

/-- Fitting narrow characters gives narrow characters. -/
theorem charWidth_fitText {text : String} {limit : Int}
    (h : ∀ d ∈ text.toList, charWidth d = 1) :
    ∀ d ∈ (fitText text limit).toList, charWidth d = 1 := by
  intro d hd
  rcases mem_fitText hd with hmem | rfl
  · exact h d hmem
  · exact charWidth_ellipsis

end Flowchart.Text
