import Mathlib.Data.List.Infix
import Flowchart.Proofs.Grammar.Declaration

/-! # Scans in two parts

A scan of a text in two parts finds what begins in the first part, and then goes on with the second
one (`BracketRule.exists_occurrencesFrom_append`).  All that the second scan learns of the first
part is how many characters are covered by a declaration that runs over (`BracketRule.overrun`).

Nothing runs over the end of a text that leaves no opening open
(`BracketRule.Regular.overrun_eq_zero_of_shut`).  A label between bars that holds no character of an
enclosure is passed over, so two scans with such labels stay level
(`BracketRule.Regular.level_overrun`).  Both ways the labels are `Enclosure.Alike`, and then they
cover the same of what follows (`BracketRule.Regular.overrun_eq_of_alike`). -/

namespace Flowchart.Grammar

/-! ### Enclosures in a text -/

namespace Enclosure

/-- Every opening in a text is followed by a stop. -/
def Shut (e : Enclosure) (s : List Char) : Prop :=
  ∀ front rest, s = front ++ (e.opening ++ rest) → e.stop ∈ rest

/-- A text holds no character of the opening and no stop. -/
def Absent (e : Enclosure) (s : List Char) : Prop := (∀ c ∈ e.opening, c ∉ s) ∧ e.stop ∉ s

/-- Two labels behind a text that say the same of an enclosure: neither holds a character of it, or
what is opened before the end of either label is closed there. -/
def Alike (e : Enclosure) (front label label' : List Char) : Prop :=
  e.Absent label ∧ e.Absent label' ∨
    e.Shut (front ++ bars.wrap label) ∧ e.Shut (front ++ bars.wrap label')

variable {e : Enclosure} {s t : List Char}

theorem shut_iff : e.Shut s ↔ ∀ t ∈ s.tails, ∀ rest ∈ after? e.opening t, e.stop ∈ rest := by
  constructor
  · intro h t ht rest hrest
    obtain ⟨front, rfl⟩ := (List.mem_tails _ _).mp ht
    apply h front rest
    rw [after?_eq_some_iff.mp hrest]
  · rintro h front rest rfl
    apply h (e.opening ++ rest) ((List.mem_tails _ _).mpr (List.suffix_append _ _))
    exact after?_eq_some_iff.mpr rfl

instance (e : Enclosure) (s : List Char) : Decidable (e.Shut s) := decidable_of_iff _ shut_iff.symm

instance (e : Enclosure) (s : List Char) : Decidable (e.Absent s) :=
  decidable_of_iff ((e.opening.all fun c => !s.contains c) ∧ e.stop ∉ s) (by simp [Absent])

instance (e : Enclosure) (front label label' : List Char) :
    Decidable (e.Alike front label label') :=
  inferInstanceAs (Decidable (_ ∨ _))

theorem Shut.of_append (h : e.Shut (s ++ t)) : e.Shut t := by
  intro front rest heq
  apply h (s ++ front) rest
  rw [heq, List.append_assoc]

theorem Alike.of_append {front front' label label' : List Char}
    (h : e.Alike (front ++ front') label label') : e.Alike front' label label' := by
  rcases h with h | ⟨h, h'⟩
  · exact .inl h
  · rw [List.append_assoc] at h h'
    exact .inr ⟨h.of_append, h'.of_append⟩

end Enclosure

/-! ### Declarations that are moved -/

/-- A declaration further right. -/
def Declaration.shift (n : Nat) (d : Declaration) : Declaration :=
  { d with column := d.column + n, stop := d.stop + n }

namespace BracketRule

variable {rule : BracketRule} {column covered : Nat} {inside : Bool} {c : Char}
  {s t rest id body : List Char}

/-- What a scan reads at the start of a text, unless it is inside of something there. -/
def readHere? (rule : BracketRule) (inside : Bool) (covered : Nat) (s : List Char) :
    Option (List Char × List Char) :=
  if covered = 0 ∧ inside = false then rule.read? s else none

/-- What a scan declares where it has read an identifier and a label. -/
def declarationAt (rule : BracketRule) (column : Nat) (id body : List Char) : Declaration :=
  ⟨column, column + rule.span id body, String.ofList id, cleanLabel body, rule.shape⟩

theorem occurrencesFrom_of_some (h : rule.readHere? inside covered (c :: s) = some (id, body)) :
    rule.occurrencesFrom column inside covered (c :: s) = rule.declarationAt column id body ::
      rule.occurrencesFrom (column + 1) (isIdChar c) (rule.span id body - 1) s := by
  rw [readHere?] at h
  rw [occurrencesFrom_cons, h]
  rfl

theorem occurrencesFrom_of_none (h : rule.readHere? inside covered (c :: s) = none) :
    rule.occurrencesFrom column inside covered (c :: s) =
      rule.occurrencesFrom (column + 1) (isIdChar c) (covered - 1) s := by
  rw [readHere?] at h
  rw [occurrencesFrom_cons, h]

theorem occurrencesFrom_add (rule : BracketRule) (column n : Nat) (inside : Bool) (covered : Nat)
    (s : List Char) : rule.occurrencesFrom (column + n) inside covered s =
      (rule.occurrencesFrom column inside covered s).map (Declaration.shift n) := by
  induction s generalizing column inside covered with
  | nil => rfl
  | cons c s ih =>
      have hnext : column + n + 1 = column + 1 + n := by omega
      cases hread : rule.readHere? inside covered (c :: s) with
      | none => rw [occurrencesFrom_of_none hread, occurrencesFrom_of_none hread, hnext, ih]
      | some read =>
          rw [occurrencesFrom_of_some hread, occurrencesFrom_of_some hread, hnext, ih]
          simp [Declaration.shift, declarationAt, Nat.add_right_comm]

/-! ### Two parts -/

/-- How many characters of `rest` are covered when a scan comes there from the text before it. -/
def overrun (rule : BracketRule) (rest : List Char) : Bool → Nat → List Char → Nat
  | _, covered, [] => covered
  | inside, covered, c :: s =>
    match rule.readHere? inside covered (c :: (s ++ rest)) with
    | some (id, body) => overrun rule rest (isIdChar c) (rule.span id body - 1) s
    | none => overrun rule rest (isIdChar c) (covered - 1) s

theorem overrun_of_some
    (h : rule.readHere? inside covered (c :: (s ++ rest)) = some (id, body)) :
    rule.overrun rest inside covered (c :: s) =
      rule.overrun rest (isIdChar c) (rule.span id body - 1) s := by
  simp only [overrun, h]

theorem overrun_of_none (h : rule.readHere? inside covered (c :: (s ++ rest)) = none) :
    rule.overrun rest inside covered (c :: s) =
      rule.overrun rest (isIdChar c) (covered - 1) s := by
  simp only [overrun, h]

/-- Whether an identifier character stands at the end of a text, or else before it. -/
def insideAfter (inside : Bool) (s : List Char) : Bool := (s.getLast?.map isIdChar).getD inside

theorem insideAfter_cons (inside : Bool) (c : Char) (s : List Char) :
    insideAfter inside (c :: s) = insideAfter (isIdChar c) s := by
  unfold insideAfter
  cases s with
  | nil => rfl
  | cons d s => rw [List.getLast?_cons_cons, List.getLast?_cons]; rfl

/-- A scan finds what begins in the first part and goes on behind it. -/
theorem exists_occurrencesFrom_append (rule : BracketRule) (column : Nat) (inside : Bool)
    (covered : Nat) (s rest : List Char) :
    ∃ found : List Declaration,
      (∀ d ∈ found, column ≤ d.column ∧ d.column < column + s.length) ∧
      rule.occurrencesFrom column inside covered (s ++ rest) = found ++
        rule.occurrencesFrom (column + s.length) (insideAfter inside s)
          (rule.overrun rest inside covered s) rest := by
  induction s generalizing column inside covered with
  | nil => exact ⟨[], by simp, rfl⟩
  | cons c s ih =>
      have hlength : column + (c :: s).length = column + 1 + s.length := by simp; omega
      rw [hlength, insideAfter_cons, List.cons_append]
      cases hread : rule.readHere? inside covered (c :: (s ++ rest)) with
      | none =>
          obtain ⟨found, hfound, heq⟩ := ih (column + 1) (isIdChar c) (covered - 1)
          rw [occurrencesFrom_of_none hread, overrun_of_none hread]
          refine ⟨found, fun d hd => ?_, heq⟩
          have := hfound d hd
          omega
      | some read =>
          obtain ⟨id, body⟩ := read
          obtain ⟨found, hfound, heq⟩ := ih (column + 1) (isIdChar c) (rule.span id body - 1)
          rw [occurrencesFrom_of_some hread, overrun_of_some hread]
          refine ⟨rule.declarationAt column id body :: found, ?_, by rw [heq, List.cons_append]⟩
          have hfirst : (rule.declarationAt column id body).column = column := rfl
          refine List.forall_mem_cons.mpr ⟨by omega, fun d hd => ?_⟩
          have := hfound d hd
          omega

theorem overrun_append (rule : BracketRule) (rest : List Char) (inside : Bool) (covered : Nat)
    (s t : List Char) : rule.overrun rest inside covered (s ++ t) =
      rule.overrun rest (insideAfter inside s) (rule.overrun (t ++ rest) inside covered s) t := by
  induction s generalizing inside covered with
  | nil => rfl
  | cons c s ih =>
      rw [insideAfter_cons, List.cons_append]
      cases hread : rule.readHere? inside covered (c :: (s ++ (t ++ rest))) with
      | none =>
          rw [overrun_of_none hread, overrun_of_none (by rwa [List.append_assoc]), ih]
      | some read =>
          rw [overrun_of_some hread, overrun_of_some (by rwa [List.append_assoc]), ih]

end BracketRule

/-! ### Bars -/

theorem Enclosure.split_at_bar {e : Enclosure} (hclosing : ∀ c ∈ e.closing, c = e.stop)
    (hstop : e.stop ≠ '|') {inner body rest t : List Char}
    (h : inner ++ '|' :: t = body ++ (e.closing ++ rest)) :
    (∃ after, inner = body ++ (e.closing ++ after)) ∨
      ∃ more, body = inner ++ '|' :: more ∧ t = more ++ (e.closing ++ rest) := by
  have hbar : ∀ {back : List Char}, e.closing ≠ '|' :: back := by
    intro back heq
    exact hstop (hclosing '|' (by rw [heq]; exact List.mem_cons_self)).symm
  rcases List.append_eq_append_iff.mp h with ⟨extra, rfl, hover⟩ | ⟨extra, rfl, hover⟩
  · cases extra with
    | nil =>
        obtain ⟨c, back, hcons⟩ := List.exists_cons_of_ne_nil e.closing_ne_nil
        rw [List.nil_append, hcons, List.cons_append, List.cons.injEq] at hover
        exact absurd (hover.1 ▸ hcons) hbar
    | cons c more =>
        rw [List.cons_append, List.cons.injEq] at hover
        obtain ⟨rfl, rfl⟩ := hover
        exact .inr ⟨more, rfl, rfl⟩
  · rcases List.append_eq_append_iff.mp hover with ⟨after, rfl, -⟩ | ⟨back, hclose, hback⟩
    · exact .inl ⟨after, rfl⟩
    · cases back with
      | nil =>
          rw [List.append_nil] at hclose
          exact .inl ⟨[], by rw [hclose, List.append_nil]⟩
      | cons c back =>
          rw [List.cons_append, List.cons.injEq] at hback
          have hmem : '|' ∈ e.closing := by rw [hclose, hback.1]; simp
          exact absurd (hclosing '|' hmem).symm hstop

namespace BracketRule

variable {rule : BracketRule} {covered : Nat} {inside : Bool}
  {s t rest id body label label' : List Char}

/-- A rule whose closing repeats one character, with no bar around a label. -/
structure Regular (rule : BracketRule) : Prop where
  detached : rule.Detached
  closing : ∀ c ∈ rule.enclosure.closing, c = rule.enclosure.stop
  opening_bar : '|' ∉ rule.enclosure.opening
  stop_bar : rule.enclosure.stop ≠ '|'

theorem regular_of_mem_standard (h : rule ∈ standard) : rule.Regular := by
  have hbars : ∀ rule ∈ standard, (rule.enclosure.closing.all (· == rule.enclosure.stop)) = true ∧
      '|' ∉ rule.enclosure.opening ∧ rule.enclosure.stop ≠ '|' := by decide
  obtain ⟨hclosing, hopening, hstop⟩ := hbars rule h
  exact ⟨detached_of_mem_standard h, by simpa using hclosing, hopening, hstop⟩

/-- What is read before a bar opens there, and it closes there or behind the bar. -/
theorem Regular.exists_of_read? (hr : rule.Regular)
    (h : rule.read? (s ++ '|' :: t) = some (id, body)) :
    IsId id ∧ rule.enclosure.stop ∉ body ∧ ∃ inner, s = id ++ (rule.enclosure.opening ++ inner) ∧
      ((∃ after, inner = body ++ (rule.enclosure.closing ++ after)) ∨
        ∃ more rest, body = inner ++ '|' :: more ∧
          t = more ++ (rule.enclosure.closing ++ rest)) := by
  obtain ⟨rest, heq, hid, hbody⟩ := BracketRule.exists_of_read? h
  refine ⟨hid, hbody, ?_⟩
  have hnotbar : '|' ∉ id ++ rule.enclosure.opening := by
    rw [List.mem_append, not_or]
    exact ⟨fun hmem => absurd (hid.2 '|' hmem) (by decide), hr.opening_bar⟩
  have hclose : ∀ {inner : List Char},
      inner ++ '|' :: t = body ++ (rule.enclosure.closing ++ rest) →
      (∃ after, inner = body ++ (rule.enclosure.closing ++ after)) ∨
        ∃ more rest, body = inner ++ '|' :: more ∧
          t = more ++ (rule.enclosure.closing ++ rest) := by
    intro inner hinner
    rcases Enclosure.split_at_bar hr.closing hr.stop_bar hinner with hafter | ⟨more, hmore, ht⟩
    · exact .inl hafter
    · exact .inr ⟨more, rest, hmore, ht⟩
  rw [Enclosure.wrap, List.append_assoc, List.append_assoc, ← List.append_assoc id] at heq
  rcases List.append_eq_append_iff.mp heq with ⟨extra, hover, hrest⟩ | ⟨inner, rfl, hinner⟩
  · cases extra with
    | nil =>
        rw [List.append_nil] at hover
        rw [List.nil_append] at hrest
        exact ⟨[], by rw [List.append_nil, hover], hclose hrest⟩
    | cons c extra =>
        rw [List.cons_append, List.cons.injEq] at hrest
        rw [hover, hrest.1] at hnotbar
        simp at hnotbar
  · exact ⟨inner, by rw [List.append_assoc], hclose hinner.symm⟩

theorem read?_bar (rule : BracketRule) (t : List Char) : rule.read? ('|' :: t) = none := rfl

theorem readHere?_bar (rule : BracketRule) (inside : Bool) (covered : Nat) (t : List Char) :
    rule.readHere? inside covered ('|' :: t) = none := by
  rw [readHere?, read?_bar, ite_self]

theorem read?_of_readHere? (h : rule.readHere? inside covered s = some (id, body)) :
    rule.read? s = some (id, body) := by
  rw [readHere?] at h
  split at h
  · exact h
  · cases h

/-- Nothing runs over the end of a text in which all is closed. -/
theorem Regular.overrun_eq_zero_of_shut (hr : rule.Regular)
    (hs : rule.enclosure.Shut (s ++ ['|'])) (hcovered : covered ≤ s.length + 1) :
    rule.overrun rest inside covered (s ++ ['|']) = 0 := by
  induction s generalizing inside covered with
  | nil =>
      rw [List.nil_append, overrun_of_none (readHere?_bar rule inside covered _), overrun]
      rw [List.length_nil] at hcovered
      omega
  | cons c s ih =>
      have htail : rule.enclosure.Shut (s ++ ['|']) := Enclosure.Shut.of_append (s := [c]) hs
      rw [List.length_cons] at hcovered
      cases hread : rule.readHere? inside covered (c :: (s ++ ['|'] ++ rest)) with
      | none =>
          rw [List.cons_append, overrun_of_none hread]
          exact ih htail (by omega)
      | some read =>
          obtain ⟨id, body⟩ := read
          rw [List.cons_append, overrun_of_some hread]
          apply ih htail
          have hread := read?_of_readHere? hread
          rw [List.append_assoc, ← List.cons_append] at hread
          obtain ⟨hid, hbody, inner, hinner, hclose⟩ := hr.exists_of_read? hread
          rcases hclose with ⟨after, rfl⟩ | ⟨more, rest', rfl, -⟩
          · have hlength := congrArg List.length hinner
            simp only [List.length_cons, List.length_append] at hlength
            simp only [span, Enclosure.wrap, List.length_append]
            omega
          · -- The stop that must follow would be part of the label.
            have hstop : rule.enclosure.stop ∈ inner ++ ['|'] :=
              hs id _ (by rw [hinner]; simp)
            rcases List.mem_append.mp hstop with hstop | hstop
            · exact absurd (List.mem_append_left _ hstop) hbody
            · exact absurd (List.mem_singleton.mp hstop) hr.stop_bar

theorem Regular.overrun_eq_sub (hr : rule.Regular) (hs : ∀ c ∈ rule.enclosure.opening, c ∉ s) :
    rule.overrun rest inside covered (s ++ ['|']) = covered - (s.length + 1) := by
  induction s generalizing inside covered with
  | nil =>
      rw [List.nil_append, overrun_of_none (readHere?_bar rule inside covered _), overrun]
      rfl
  | cons c s ih =>
      have htail : ∀ d ∈ rule.enclosure.opening, d ∉ s :=
        fun d hd hmem => hs d hd (List.mem_cons_of_mem c hmem)
      have hread : rule.readHere? inside covered (c :: (s ++ ['|'] ++ rest)) = none := by
        by_contra hsome
        obtain ⟨⟨id, body⟩, hread⟩ := Option.ne_none_iff_exists'.mp hsome
        have hread := read?_of_readHere? hread
        rw [List.append_assoc, ← List.cons_append] at hread
        obtain ⟨-, -, inner, hinner, -⟩ := hr.exists_of_read? hread
        obtain ⟨d, hd⟩ := List.exists_mem_of_ne_nil _ hr.detached.ne_nil
        apply hs d hd
        rw [hinner]
        simp [hd]
      rw [List.cons_append, overrun_of_none hread, ih htail, List.length_cons]
      omega

/-- A label without characters of the enclosure may be replaced by another one: what is read before
it closes before it, or closes at the same place behind it. -/
theorem Regular.exists_read?_of_absent (hr : rule.Regular) (hlabel : rule.enclosure.Absent label)
    (hlabel' : rule.enclosure.Absent label')
    (h : rule.read? (s ++ '|' :: (label ++ '|' :: rest)) = some (id, body)) :
    ∃ body', rule.read? (s ++ '|' :: (label' ++ '|' :: rest)) = some (id, body') ∧
      (body = body' ∧ rule.span id body ≤ s.length ∨
        ∃ more, rule.span id body = s.length + (label.length + 2) + more ∧
          rule.span id body' = s.length + (label'.length + 2) + more) := by
  obtain ⟨hid, hbody, inner, rfl, ⟨after, rfl⟩ | ⟨more, behind, rfl, hmore⟩⟩ :=
    hr.exists_of_read? h
  · refine ⟨body, ?_, .inl ⟨rfl, ?_⟩⟩
    · have hread := hr.detached.read?_append hid hbody (after ++ '|' :: (label' ++ '|' :: rest))
      simpa [Enclosure.wrap] using hread
    · simp only [span, Enclosure.wrap, List.length_append]
      omega
  · rcases Enclosure.split_at_bar hr.closing hr.stop_bar hmore with
      ⟨after, rfl⟩ | ⟨more, rfl, rfl⟩
    · have hstop : rule.enclosure.stop ∈ more ++ (rule.enclosure.closing ++ after) := by
        simp [rule.enclosure.stop_mem_closing]
      exact absurd hstop hlabel.2
    · have hbody' : rule.enclosure.stop ∉ inner ++ '|' :: (label' ++ '|' :: more) := by
        simp only [List.mem_append, List.mem_cons, not_or] at hbody ⊢
        exact ⟨hbody.1, hbody.2.1, hlabel'.2, hbody.2.2.2⟩
      refine ⟨inner ++ '|' :: (label' ++ '|' :: more), ?_, .inr
        ⟨more.length + rule.enclosure.closing.length, ?_, ?_⟩⟩
      · have hread := hr.detached.read?_append hid hbody' behind
        simpa [Enclosure.wrap] using hread
      · simp only [span, Enclosure.wrap, List.length_append, List.length_cons]
        omega
      · simp only [span, Enclosure.wrap, List.length_append, List.length_cons]
        omega

/-- Two scans of the same text, with another label behind it, are equally far: both are covered to
the same place in the text, or both to the same place behind the label. -/
def Level (left width width' covered covered' : Nat) : Prop :=
  covered = covered' ∧ covered ≤ left ∨
    ∃ more, covered = left + width + more ∧ covered' = left + width' + more

theorem Level.next {left width width' covered covered' : Nat}
    (h : Level (left + 1) width width' covered covered') :
    Level left width width' (covered - 1) (covered' - 1) := by
  rcases h with ⟨rfl, hle⟩ | ⟨more, rfl, rfl⟩
  · exact .inl ⟨rfl, by omega⟩
  · exact .inr ⟨more, by omega, by omega⟩

theorem Level.eq_zero_iff {left width width' covered covered' : Nat}
    (h : Level left (width + 1) (width' + 1) covered covered') : covered = 0 ↔ covered' = 0 := by
  rcases h with ⟨rfl, -⟩ | ⟨more, rfl, rfl⟩
  · exact Iff.rfl
  · omega

theorem Regular.level_overrun (hr : rule.Regular) (hlabel : rule.enclosure.Absent label)
    (hlabel' : rule.enclosure.Absent label') {covered' : Nat}
    (h : Level s.length (label.length + 2) (label'.length + 2) covered covered') :
    Level 0 (label.length + 2) (label'.length + 2)
      (rule.overrun ('|' :: (label ++ '|' :: rest)) inside covered s)
      (rule.overrun ('|' :: (label' ++ '|' :: rest)) inside covered' s) := by
  induction s generalizing inside covered covered' with
  | nil => exact h
  | cons c s ih =>
      rw [List.length_cons] at h
      have hskip : ∀ {label : List Char} {covered : Nat},
          (covered = 0 ∧ inside = false →
            rule.read? (c :: (s ++ '|' :: (label ++ '|' :: rest))) = none) →
          rule.overrun ('|' :: (label ++ '|' :: rest)) inside covered (c :: s) =
            rule.overrun ('|' :: (label ++ '|' :: rest)) (isIdChar c) (covered - 1) s := by
        intro label covered hread
        apply overrun_of_none
        rw [readHere?]
        split
        · next hfree => exact hread hfree
        · rfl
      by_cases hfree : covered = 0 ∧ inside = false
      · obtain ⟨rfl, rfl⟩ := hfree
        obtain rfl := h.eq_zero_iff.mp rfl
        cases hread : rule.read? (c :: s ++ '|' :: (label ++ '|' :: rest)) with
        | none =>
            -- The other scan reads nothing either, since the two labels can change places.
            have hread' : rule.read? (c :: s ++ '|' :: (label' ++ '|' :: rest)) = none := by
              by_contra hsome
              obtain ⟨⟨id, body⟩, hread'⟩ := Option.ne_none_iff_exists'.mp hsome
              obtain ⟨body', hread', -⟩ := hr.exists_read?_of_absent hlabel' hlabel hread'
              rw [hread] at hread'
              cases hread'
            rw [hskip fun _ => hread, hskip fun _ => hread']
            exact ih h.next
        | some read =>
            obtain ⟨id, body⟩ := read
            obtain ⟨body', hread', hspan⟩ := hr.exists_read?_of_absent hlabel hlabel' hread
            rw [overrun_of_some (by rw [readHere?, if_pos ⟨rfl, rfl⟩]; exact hread),
              overrun_of_some (by rw [readHere?, if_pos ⟨rfl, rfl⟩]; exact hread')]
            apply ih
            apply Level.next
            rcases hspan with ⟨rfl, hle⟩ | ⟨more, hspan, hspan'⟩
            · exact .inl ⟨rfl, hle⟩
            · exact .inr ⟨more, hspan, hspan'⟩
      · have hfree' : ¬ (covered' = 0 ∧ inside = false) := by rwa [← h.eq_zero_iff]
        rw [hskip fun hnow => absurd hnow hfree, hskip fun hnow => absurd hnow hfree']
        exact ih h.next

/-- Labels that are alike cover the text behind them alike. -/
theorem Regular.overrun_eq_of_alike (hr : rule.Regular)
    (h : rule.enclosure.Alike s label label') :
    rule.overrun rest false 0 (s ++ bars.wrap label) =
      rule.overrun rest false 0 (s ++ bars.wrap label') := by
  have hwrap : ∀ label, bars.wrap label = ('|' :: label) ++ ['|'] := fun _ => rfl
  rcases h with ⟨hlabel, hlabel'⟩ | ⟨hshut, hshut'⟩
  · have hbehind : ∀ {label : List Char}, rule.enclosure.Absent label →
        rule.overrun rest false 0 (s ++ bars.wrap label) =
          rule.overrun ('|' :: (label ++ '|' :: rest)) false 0 s - (label.length + 2) := by
      intro label hlabel
      have hopening : ∀ c ∈ rule.enclosure.opening, c ∉ '|' :: label := by
        intro c hc hmem
        rcases List.mem_cons.mp hmem with rfl | hmem
        · exact hr.opening_bar hc
        · exact hlabel.1 c hc hmem
      rw [overrun_append, hwrap, hr.overrun_eq_sub hopening]
      simp
    rw [hbehind hlabel, hbehind hlabel']
    have hlevel : Level 0 (label.length + 2) (label'.length + 2)
        (rule.overrun ('|' :: (label ++ '|' :: rest)) false 0 s)
        (rule.overrun ('|' :: (label' ++ '|' :: rest)) false 0 s) :=
      hr.level_overrun hlabel hlabel' (.inl ⟨rfl, Nat.zero_le s.length⟩)
    rcases hlevel with ⟨heq, hle⟩ | ⟨more, heq, heq'⟩
    · omega
    · omega
  · rw [hwrap, ← List.append_assoc] at hshut hshut'
    rw [hwrap, hwrap, ← List.append_assoc, ← List.append_assoc,
      hr.overrun_eq_zero_of_shut hshut (Nat.zero_le _),
      hr.overrun_eq_zero_of_shut hshut' (Nat.zero_le _)]

end BracketRule

end Flowchart.Grammar
