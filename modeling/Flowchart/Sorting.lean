/-! # Stable sorting

A list is sorted by putting its entries, from the last one to the first, in front of the first entry
that they may stand before.  Entries of equal rank keep their order (`filter_sortBy`), and a list
that is sorted already does not change (`sortBy_eq_self`); sorting loses nothing (`sortBy_perm`) and
gives a sorted list (`pairwise_sortBy`, and `pairwise_sortBy_key` for keys).  To sort by a number is
to take the entries number by number (`sortBy_eq_flatMap_filter`). -/

namespace Flowchart

variable {α : Type}

/-- Puts an entry in front of the first one that it may stand before. -/
def insertBy (le : α → α → Bool) (a : α) : List α → List α
  | [] => [a]
  | b :: rest => if le a b then a :: b :: rest else b :: insertBy le a rest

def sortBy (le : α → α → Bool) : List α → List α
  | [] => []
  | a :: rest => insertBy le a (sortBy le rest)

theorem insertBy_perm (le : α → α → Bool) (a : α) (l : List α) :
    (insertBy le a l).Perm (a :: l) := by
  induction l with
  | nil => exact .refl _
  | cons b rest ih =>
    unfold insertBy
    split
    · exact .refl _
    · exact (ih.cons b).trans (.swap a b rest)

theorem sortBy_perm (le : α → α → Bool) (l : List α) : (sortBy le l).Perm l := by
  induction l with
  | nil => exact .refl _
  | cons a rest ih => exact (insertBy_perm le a _).trans (ih.cons a)

theorem pairwise_insertBy {le : α → α → Bool} (total : ∀ a b, le a b || le b a)
    (trans : ∀ a b c, le a b → le b c → le a c) (a : α) {l : List α}
    (h : l.Pairwise fun a b => le a b) : (insertBy le a l).Pairwise fun a b => le a b := by
  induction l with
  | nil => simp [insertBy]
  | cons b rest ih =>
    obtain ⟨hb, hrest⟩ := List.pairwise_cons.1 h
    unfold insertBy
    split
    · next hab =>
      refine List.pairwise_cons.2 ⟨fun c hc => ?_, h⟩
      rcases List.mem_cons.1 hc with rfl | hc
      · exact hab
      · exact trans a b c hab (hb c hc)
    · next hab =>
      refine List.pairwise_cons.2 ⟨fun c hc => ?_, ih hrest⟩
      rcases List.mem_cons.1 ((insertBy_perm le a rest).mem_iff.1 hc) with rfl | hc
      · simpa [hab] using total c b
      · exact hb c hc

theorem pairwise_sortBy {le : α → α → Bool} (total : ∀ a b, le a b || le b a)
    (trans : ∀ a b c, le a b → le b c → le a c) (l : List α) :
    (sortBy le l).Pairwise fun a b => le a b := by
  induction l with
  | nil => exact .nil
  | cons a rest ih => exact pairwise_insertBy total trans a ih

/-- A list that is sorted by a key is in the order of the keys. -/
theorem pairwise_sortBy_key {κ : Type} [LE κ] [DecidableLE κ] [Std.IsLinearPreorder κ]
    (key : α → κ) (l : List α) :
    (sortBy (fun a b => key a ≤ key b) l).Pairwise fun a b => key a ≤ key b := by
  have htotal : ∀ a b, decide (key a ≤ key b) || decide (key b ≤ key a) := by
    intro a b
    simpa using Std.le_total
  have htrans : ∀ a b c, decide (key a ≤ key b) → decide (key b ≤ key c) →
      decide (key a ≤ key c) := by
    intro a b c hab hbc
    exact decide_eq_true (Std.le_trans (of_decide_eq_true hab) (of_decide_eq_true hbc))
  exact (pairwise_sortBy htotal htrans l).imp of_decide_eq_true

theorem sortBy_eq_self {le : α → α → Bool} {l : List α} (h : l.Pairwise fun a b => le a b) :
    sortBy le l = l := by
  induction l with
  | nil => rfl
  | cons a rest ih =>
    obtain ⟨ha, hrest⟩ := List.pairwise_cons.1 h
    rw [sortBy, ih hrest]
    cases rest with
    | nil => rfl
    | cons b rest => rw [insertBy, if_pos (ha b (by simp))]

/-- An entry goes to the front if it may stand before all others, and none of those that it follows
may stand before it. -/
theorem sortBy_append_cons {le : α → α → Bool} {a : α} {l l' : List α}
    (hl : ∀ b ∈ l, le b a = false) (ha : ∀ b ∈ l ++ l', le a b = true) :
    sortBy le (l ++ a :: l') = a :: sortBy le (l ++ l') := by
  induction l with
  | nil =>
    have hfirst : ∀ b ∈ sortBy le l', le a b = true :=
      fun b hb => ha b ((sortBy_perm le l').mem_iff.mp hb)
    rw [List.nil_append, List.nil_append, sortBy]
    cases hs : sortBy le l' with
    | nil => rfl
    | cons b rest =>
      rw [hs] at hfirst
      rw [insertBy, if_pos (hfirst b List.mem_cons_self)]
  | cons b l ih =>
    obtain ⟨hb, hl⟩ := List.forall_mem_cons.1 hl
    have hrest := ih hl fun c hc => ha c (List.mem_cons_of_mem b hc)
    rw [List.cons_append, List.cons_append, sortBy, hrest, sortBy, insertBy, if_neg (by simp [hb])]

theorem insertBy_map {β : Type} {le : α → α → Bool} {le' : β → β → Bool} {f : α → β}
    (hf : ∀ a b, le' (f a) (f b) = le a b) (a : α) (l : List α) :
    insertBy le' (f a) (l.map f) = (insertBy le a l).map f := by
  induction l with
  | nil => rfl
  | cons b rest ih =>
    simp only [List.map_cons, insertBy, hf, ih]
    split <;> rfl

/-- Sorting sees nothing but the order of the entries. -/
theorem sortBy_map {β : Type} {le : α → α → Bool} {le' : β → β → Bool} {f : α → β}
    (hf : ∀ a b, le' (f a) (f b) = le a b) (l : List α) :
    sortBy le' (l.map f) = (sortBy le l).map f := by
  induction l with
  | nil => rfl
  | cons a rest ih => rw [List.map_cons, sortBy, ih, insertBy_map hf, sortBy]

theorem insertBy_append_left {le : α → α → Bool} {a : α} {l' : List α}
    (h : ∀ b ∈ l', le a b = true) (l : List α) :
    insertBy le a (l ++ l') = insertBy le a l ++ l' := by
  induction l with
  | nil =>
    cases l' with
    | nil => rfl
    | cons b l' => simp [insertBy, h b List.mem_cons_self]
  | cons b l ih =>
    rw [List.cons_append, insertBy, insertBy, ih]
    split <;> rfl

theorem insertBy_append_right {le : α → α → Bool} {a : α} {l : List α}
    (h : ∀ b ∈ l, le a b = false) (l' : List α) :
    insertBy le a (l ++ l') = l ++ insertBy le a l' := by
  induction l with
  | nil => rfl
  | cons b l ih =>
    obtain ⟨hb, hl⟩ := List.forall_mem_cons.1 h
    rw [List.cons_append, insertBy, if_neg (by simp [hb]), ih hl, List.cons_append]

/-- Entries in `p` that stand before all others are sorted on their own. -/
theorem sortBy_eq_append {le : α → α → Bool} {p : α → Bool} {l : List α}
    (h : ∀ a ∈ l, ∀ b ∈ l, p a = true → p b = false → le a b = true ∧ le b a = false) :
    sortBy le l = sortBy le (l.filter p) ++ sortBy le (l.filter fun a => !p a) := by
  induction l with
  | nil => rfl
  | cons a l ih =>
    have hl := ih fun b hb c hc => h b (List.mem_cons_of_mem a hb) c (List.mem_cons_of_mem a hc)
    have ha : a ∈ a :: l := List.mem_cons_self
    cases hp : p a with
    | true =>
      rw [List.filter_cons_of_pos hp, List.filter_cons_of_neg (by simp [hp]), sortBy, hl, sortBy]
      refine insertBy_append_left (fun b hb => ?_) _
      obtain ⟨hmem, hb⟩ := List.mem_filter.1 ((sortBy_perm le _).mem_iff.1 hb)
      exact (h a ha b (List.mem_cons_of_mem a hmem) hp (by simpa using hb)).1
    | false =>
      rw [List.filter_cons_of_neg (by simp [hp]), List.filter_cons_of_pos (by simp [hp]), sortBy,
        hl, sortBy]
      refine insertBy_append_right (fun b hb => ?_) _
      obtain ⟨hmem, hb⟩ := List.mem_filter.1 ((sortBy_perm le _).mem_iff.1 hb)
      exact (h b (List.mem_cons_of_mem a hmem) a ha hb hp).2

theorem filter_insertBy {le : α → α → Bool} {p : α → Bool}
    (hp : ∀ a b, p a = true → p b = true → le a b = true) (a : α) (l : List α) :
    (insertBy le a l).filter p = (a :: l).filter p := by
  induction l with
  | nil => rfl
  | cons b rest ih =>
    unfold insertBy
    split
    · rfl
    · next hab =>
      rw [List.filter_cons, ih]
      cases ha : p a with
      | false => simp [ha, List.filter_cons]
      | true =>
        -- What `p` takes besides `a` may stand behind it, so `b` is not taken.
        have hb : p b = false := Bool.eq_false_iff.2 fun hb => hab (hp a b ha hb)
        simp [ha, hb]

/-- Entries of equal rank keep their order. -/
theorem filter_sortBy {le : α → α → Bool} {p : α → Bool}
    (hp : ∀ a b, p a = true → p b = true → le a b = true) (l : List α) :
    (sortBy le l).filter p = l.filter p := by
  induction l with
  | nil => rfl
  | cons a rest ih => rw [sortBy, filter_insertBy hp, List.filter_cons, List.filter_cons, ih]

/-- Entries are sorted by a number when they are taken number by number. -/
theorem sortBy_eq_flatMap_filter {key : α → Nat} {n : Nat} {l : List α} (h : ∀ a ∈ l, key a < n) :
    sortBy (fun a b => key a ≤ key b) l =
      (List.range n).flatMap fun k => l.filter fun a => key a = k := by
  induction n generalizing l with
  | zero =>
    cases l with
    | nil => rfl
    | cons a l => exact absurd (h a List.mem_cons_self) (Nat.not_lt_zero _)
  | succ n ih =>
    have hsmall : ∀ a ∈ l.filter (fun a => key a < n), key a < n :=
      fun a ha => of_decide_eq_true (List.mem_filter.1 ha).2
    have hlarge : ∀ a ∈ l, (!decide (key a < n)) = decide (key a = n) := by
      intro a ha
      have := h a ha
      rw [← decide_not, decide_eq_decide]
      omega
    have hsorted : (l.filter fun a => key a = n).Pairwise
        fun a b => decide (key a ≤ key b) = true := by
      refine List.pairwise_of_forall_mem_list fun a ha b hb => ?_
      have ha := of_decide_eq_true (List.mem_filter.1 ha).2
      have hb := of_decide_eq_true (List.mem_filter.1 hb).2
      simp [ha, hb]
    rw [sortBy_eq_append (p := fun a => decide (key a < n)), ih hsmall, List.filter_congr hlarge,
      sortBy_eq_self hsorted, List.range_succ, List.flatMap_append, List.flatMap_singleton]
    · congr 1
      rw [List.flatMap_def, List.flatMap_def]
      refine congrArg List.flatten (List.map_congr_left fun k hk => ?_)
      rw [List.filter_filter]
      apply List.filter_congr
      intro a _
      have := List.mem_range.1 hk
      rw [← Bool.decide_and, decide_eq_decide]
      omega
    · intro a _ b _ ha hb
      simp only [decide_eq_true_eq, decide_eq_false_iff_not] at ha hb ⊢
      omega

end Flowchart
