import Mathlib.Data.List.Induction
import Mathlib.Data.List.Nodup

/-! # First occurrences

Without its repetitions a list holds each of its entries once (`nodup_eraseDups`), in the order in
which they first occur (`pairwise_idxOf_eraseDups`). -/

namespace Flowchart

variable {α : Type} [DecidableEq α]

theorem eraseDups_append_singleton (l : List α) (a : α) :
    (l ++ [a]).eraseDups = if a ∈ l then l.eraseDups else l.eraseDups ++ [a] := by
  rw [List.eraseDups_append]
  by_cases h : a ∈ l <;> simp [h, List.removeAll, List.eraseDups_cons]

theorem nodup_eraseDups (l : List α) : l.eraseDups.Nodup := by
  induction l using List.reverseRecOn with
  | nil => exact List.nodup_nil
  | append_singleton l a ih =>
      rw [eraseDups_append_singleton]
      split
      · exact ih
      · next h => exact ih.append (List.nodup_singleton a) (by simpa using h)

theorem eraseDups_perm {l l' : List α} (h : l.Perm l') : l.eraseDups.Perm l'.eraseDups := by
  refine (List.perm_ext_iff_of_nodup (nodup_eraseDups l) (nodup_eraseDups l')).mpr fun a => ?_
  rw [List.mem_eraseDups, List.mem_eraseDups, h.mem_iff]

theorem pairwise_idxOf_eraseDups (l : List α) :
    l.eraseDups.Pairwise fun a b => l.idxOf a < l.idxOf b := by
  induction l using List.reverseRecOn with
  | nil => exact .nil
  | append_singleton l a ih =>
      have hold : ∀ b ∈ l.eraseDups, (l ++ [a]).idxOf b = l.idxOf b :=
        fun b hb => List.idxOf_append_of_mem (List.mem_eraseDups.mp hb)
      have hkept : l.eraseDups.Pairwise fun b c => (l ++ [a]).idxOf b < (l ++ [a]).idxOf c := by
        refine ih.imp_of_mem fun hb hc hlt => ?_
        rwa [hold _ hb, hold _ hc]
      rw [eraseDups_append_singleton]
      split
      · exact hkept
      · next h =>
          refine List.pairwise_append.mpr ⟨hkept, List.pairwise_singleton _ _, fun b hb c hc => ?_⟩
          obtain rfl := List.mem_singleton.mp hc
          rw [hold b hb, List.idxOf_append_of_notMem h]
          have := List.idxOf_lt_length_of_mem (List.mem_eraseDups.mp hb)
          omega

end Flowchart
