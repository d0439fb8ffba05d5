import Mathlib.Data.List.DropRight
import Mathlib.Data.List.TakeWhile
import Flowchart.Diagram.Source

/-! # Lines that are kept as they are

The lines of a text hold no line breaks (`unbroken_of_mem_splitLines`).  Joining lines with line
feeds is undone by `splitLines` if no line holds a break and the last one is not empty
(`splitLines_intercalate`); an empty last line would be lost.  A line that neither starts nor ends
with a blank is not trimmed, so a text that is made of such lines, none of them a comment, has just
these as its content (`contentLines_intercalate`). -/

namespace Flowchart.Text

variable {p : Char → Bool} {s line : List Char}

/-! ### Splitting -/

/-- The characters of the text do not end a line. -/
def Unbroken (s : List Char) : Prop := ∀ c ∈ s, isLineBreak c = false

instance (s : List Char) : Decidable (Unbroken s) :=
  decidable_of_iff (s.all fun c => !isLineBreak c) (by simp [Unbroken])

theorem isLineBreak_of_isBlank {c : Char} (h : isBlank c = false) : isLineBreak c = false := by
  simp only [isBlank, CodeRanges.has, blankRanges, List.any_cons, List.any_nil, Bool.or_false,
    Bool.or_eq_false_iff, Bool.and_eq_false_iff, decide_eq_false_iff_not] at h
  simp only [isLineBreak, Bool.or_eq_false_iff, Bool.and_eq_false_iff, beq_eq_false_iff_ne,
    decide_eq_false_iff_not]
  omega

theorem unbroken_of_isBlank (h : ∀ c ∈ s, isBlank c = false) : Unbroken s :=
  fun c hc => isLineBreak_of_isBlank (h c hc)

theorem Unbroken.mono {t : List Char} (h : Unbroken s) (hsub : t ⊆ s) : Unbroken t :=
  fun c hc => h c (hsub hc)

theorem Unbroken.append {t : List Char} (hs : Unbroken s) (ht : Unbroken t) : Unbroken (s ++ t) :=
  List.forall_mem_append.mpr ⟨hs, ht⟩

theorem splitLines_cons {c : Char} (h : isLineBreak c = false) (rest : List Char) :
    splitLines (c :: rest) = extendFirst c (splitLines rest) := by
  have hreturn : c ≠ '\r' := by
    rintro rfl
    revert h
    decide
  rw [splitLines, if_neg (by simp [h])]
  intro rest' hc
  exact absurd hc hreturn

theorem splitLines_append_feed (h : Unbroken line) (rest : List Char) :
    splitLines (line ++ '\n' :: rest) = line :: splitLines rest := by
  induction line with
  | nil =>
      rw [List.nil_append, splitLines, if_pos (by decide)]
      intro rest' hc
      exact absurd hc (by decide)
  | cons c line ih =>
      obtain ⟨hc, hline⟩ := List.forall_mem_cons.mp h
      rw [List.cons_append, splitLines_cons hc, ih hline]
      rfl

theorem splitLines_of_unbroken (h : Unbroken line) (hne : line ≠ []) :
    splitLines line = [line] := by
  induction line with
  | nil => exact absurd rfl hne
  | cons c line ih =>
      obtain ⟨hc, hline⟩ := List.forall_mem_cons.mp h
      rw [splitLines_cons hc]
      cases line with
      | nil => rw [splitLines_nil]; rfl
      | cons d line => rw [ih hline (by simp)]; rfl

/-- Splitting undoes joining, unless an empty line at the end is lost. -/
theorem splitLines_intercalate {lines : List (List Char)} (h : ∀ line ∈ lines, Unbroken line)
    (hne : ∀ line ∈ lines.getLast?, line ≠ []) : splitLines (['\n'].intercalate lines) = lines := by
  induction lines with
  | nil => exact splitLines_nil
  | cons line lines ih =>
      obtain ⟨hline, h⟩ := List.forall_mem_cons.mp h
      cases lines with
      | nil => rw [List.intercalate_singleton, splitLines_of_unbroken hline (hne line rfl)]
      | cons next lines =>
          rw [List.intercalate_cons_cons, List.append_assoc, List.singleton_append,
            splitLines_append_feed hline, ih h (by simpa using hne)]

theorem unbroken_of_mem_splitLines (h : line ∈ splitLines s) : Unbroken line := by
  induction s using splitLines.induct generalizing line with
  | case1 => rw [splitLines_nil] at h; cases h
  | case2 rest ih =>
      rw [splitLines] at h
      rcases List.mem_cons.mp h with rfl | h
      · exact List.forall_mem_nil _
      · exact ih h
  | case3 c rest hpair hbreak ih =>
      rw [splitLines, if_pos hbreak] at h
      · rcases List.mem_cons.mp h with rfl | h
        · exact List.forall_mem_nil _
        · exact ih h
      · exact hpair
  | case4 c rest hpair hbreak ih =>
      have hc : isLineBreak c = false := by simpa using hbreak
      rw [splitLines_cons hc] at h
      cases hrest : splitLines rest with
      | nil =>
          rw [hrest] at h
          obtain rfl := List.mem_singleton.mp h
          exact List.forall_mem_singleton.mpr hc
      | cons first lines =>
          rw [hrest] at h ih
          rcases List.mem_cons.mp h with rfl | h
          · exact List.forall_mem_cons.mpr ⟨hc, ih List.mem_cons_self⟩
          · exact ih (List.mem_cons_of_mem _ h)

theorem length_splitLines_le (s : List Char) : (splitLines s).length ≤ s.length := by
  induction s using splitLines.induct with
  | case1 => simp
  | case2 rest ih =>
      rw [splitLines, List.length_cons, List.length_cons, List.length_cons]
      omega
  | case3 c rest hpair hbreak ih =>
      rw [splitLines, if_pos hbreak, List.length_cons, List.length_cons]
      · omega
      · exact hpair
  | case4 c rest hpair hbreak ih =>
      rw [splitLines_cons (by simpa using hbreak)]
      cases hrest : splitLines rest with
      | nil => simp [extendFirst]
      | cons first lines =>
          rw [hrest, List.length_cons] at ih
          rw [extendFirst, List.length_cons, List.length_cons]
          omega

/-! ### Trimming -/

theorem dropEndWhile_subset (p : Char → Bool) (s : List Char) : dropEndWhile p s ⊆ s :=
  (List.rdropWhile_prefix p s).subset

theorem trim_subset (s : List Char) : trim s ⊆ s :=
  List.Subset.trans (dropEndWhile_subset isBlank (trimStart s))
    (List.dropWhile_sublist isBlank).subset

theorem dropEndWhile_eq_self (h : ∀ c ∈ s.getLast?, p c = false) : dropEndWhile p s = s := by
  refine List.rdropWhile_eq_self_iff.mpr ?_
  intro hne
  rw [h _ (List.getLast_mem_getLast? hne)]
  decide

theorem exists_dropEndWhile_append (p : Char → Bool) (s : List Char) :
    ∃ tail, s = dropEndWhile p s ++ tail ∧ ∀ c ∈ tail, p c = true := by
  refine ⟨(s.reverse.takeWhile p).reverse, ?_, fun c hc => ?_⟩
  · rw [dropEndWhile, ← List.reverse_append, List.takeWhile_append_dropWhile, List.reverse_reverse]
  · exact List.mem_takeWhile_imp (List.mem_reverse.mp hc)

theorem dropEndWhile_append (p : Char → Bool) (s t : List Char) : dropEndWhile p (s ++ t) =
    if dropEndWhile p t = [] then dropEndWhile p s else s ++ dropEndWhile p t := by
  simp only [dropEndWhile, List.reverse_append, List.dropWhile_append, List.isEmpty_iff,
    List.reverse_eq_nil_iff]
  split <;> simp

theorem trimEnd_append_congr {t t' : List Char} (h : trimEnd t = trimEnd t') (s : List Char) :
    trimEnd (s ++ t) = trimEnd (s ++ t') := by
  unfold trimEnd at h ⊢
  rw [dropEndWhile_append, dropEndWhile_append, h]

/-- Nothing is dropped in front of a character that is kept. -/
theorem dropEndWhile_append_cons {c : Char} (hc : p c = false) (s t : List Char) :
    dropEndWhile p (s ++ c :: t) = s ++ c :: dropEndWhile p t := by
  have hsingle : dropEndWhile p [c] = [c] := by
    apply dropEndWhile_eq_self
    intro d hd
    obtain rfl : c = d := by simpa using hd
    exact hc
  have hfirst : dropEndWhile p (c :: t) = c :: dropEndWhile p t := by
    rw [← List.singleton_append, dropEndWhile_append, hsingle]
    split
    · next hnil => rw [hnil]
    · rfl
  rw [dropEndWhile_append, hfirst, if_neg (List.cons_ne_nil _ _)]

theorem dropEndWhile_eq_nil_iff : dropEndWhile p s = [] ↔ ∀ c ∈ s, p c = true :=
  List.rdropWhile_eq_nil_iff

theorem trimEnd_replicate (count : Nat) : trimEnd (List.replicate count ' ') = [] := by
  refine dropEndWhile_eq_nil_iff.mpr fun d hd => ?_
  rw [List.eq_of_mem_replicate hd]
  decide

theorem getLast?_dropEndWhile (s : List Char) :
    ∀ c ∈ (dropEndWhile p s).getLast?, p c = false := by
  intro c hc
  rw [dropEndWhile, List.getLast?_reverse, Option.mem_def] at hc
  have hhead := List.head?_dropWhile_not p s.reverse
  rw [hc] at hhead
  exact hhead

theorem trimStart_eq_self (h : ∀ c ∈ s.head?, isBlank c = false) : trimStart s = s := by
  cases s with
  | nil => rfl
  | cons c s => rw [trimStart, List.dropWhile_cons_of_neg (by simp [h c rfl])]

theorem head?_trim (s : List Char) : ∀ c ∈ (trim s).head?, isBlank c = false := by
  intro c hc
  obtain ⟨tail, hstart, -⟩ := exists_dropEndWhile_append isBlank (trimStart s)
  have hhead := List.head?_dropWhile_not isBlank s
  rw [← trimStart, hstart, ← trimEnd, ← trim, List.head?_append, hc] at hhead
  exact hhead

theorem trim_eq_self (hhead : ∀ c ∈ s.head?, isBlank c = false)
    (hlast : ∀ c ∈ s.getLast?, isBlank c = false) : trim s = s := by
  rw [trim, trimStart_eq_self hhead, trimEnd, dropEndWhile_eq_self hlast]

end Flowchart.Text

namespace Flowchart

/-- A line that is kept as it is: it is content, unbroken, and no blank stands at its ends. -/
structure Kept (line : List Char) : Prop where
  content : isContent line = true
  unbroken : Text.Unbroken line
  head : ∀ c ∈ line.head?, Text.isBlank c = false
  last : ∀ c ∈ line.getLast?, Text.isBlank c = false

theorem Kept.ne_nil {line : List Char} (h : Kept line) : line ≠ [] := by
  rintro rfl
  exact absurd h.content (by decide)

/-- Lines that are kept are the content of the text that they make up. -/
theorem contentLines_intercalate {lines : List String} (h : ∀ line ∈ lines, Kept line.toList) :
    contentLines ("\n".intercalate lines) = lines := by
  have hkept : ∀ line ∈ lines.map String.toList, Kept line := by
    simpa [List.forall_mem_map] using h
  have hsplit : Text.splitLines ("\n".intercalate lines).toList = lines.map String.toList := by
    rw [String.toList_intercalate]
    exact Text.splitLines_intercalate (fun line hline => (hkept line hline).unbroken)
      fun line hline => (hkept line (List.mem_of_mem_getLast? hline)).ne_nil
  have htrim : (lines.map String.toList).map Text.trim = lines.map String.toList := by
    refine (List.map_congr_left ?_).trans (List.map_id _)
    intro line hline
    exact Text.trim_eq_self (hkept line hline).head (hkept line hline).last
  have hfilter : (lines.map String.toList).filter isContent = lines.map String.toList :=
    List.filter_eq_self.mpr fun line hline => (hkept line hline).content
  rw [contentLines, hsplit, htrim, hfilter, List.map_map]
  exact (List.map_congr_left fun _ _ => String.ofList_toList).trans (List.map_id lines)

end Flowchart
