import Flowchart.Proofs.Grammar.Overrun

/-! # Leftmost declarations

What a rule declares at a column can be said without a scan (`BracketRule.declaredAt?`).  The plain
scan of a line goes from column to column, accepts what the first rule declares there and goes on
behind it (`leftmost`).

The declarations of a line are the same, except that every rule also passes over the columns that
its own scan has covered (`BracketRule.mem_occurrences_iff`, `declarations_eq_acceptFrom`).  A scan
covers columns by declarations that are not kept, too: those inside of another declaration or of
the excluded span.  So the declarations of a line are the leftmost ones exactly if no leftmost one
starts where the scan of its rule is busy (`declarations_eq_leftmost_iff`). -/

namespace Flowchart.Grammar

/-! ### The scan of a rule by columns -/

namespace BracketRule

variable {rule : BracketRule} {line front s id body : List Char} {column covered : Nat}
  {d e : Declaration}

/-- What a rule declares at a column. -/
def declaredAt? (rule : BracketRule) (line : List Char) (column : Nat) : Option Declaration :=
  if insideAfter false (line.take column) then none
  else (rule.read? (line.drop column)).map fun (id, body) => rule.declarationAt column id body

/-- The scan of a rule is inside of a declaration that starts further left. -/
def Busy (rule : BracketRule) (line : List Char) (column : Nat) : Prop :=
  ∃ d ∈ rule.occurrences line, d.column < column ∧ column < d.stop

instance (rule : BracketRule) (line : List Char) (column : Nat) :
    Decidable (rule.Busy line column) :=
  inferInstanceAs (Decidable (∃ d ∈ rule.occurrences line, d.column < column ∧ column < d.stop))

/-- What the scan of a rule finds at a column. -/
def foundAt? (rule : BracketRule) (line : List Char) (column : Nat) : Option Declaration :=
  if rule.Busy line column then none else rule.declaredAt? line column

theorem insideAfter_eq_false_iff :
    insideAfter false front = false ↔ ∀ c ∈ front.getLast?, isIdChar c = false := by
  rw [insideAfter]
  cases front.getLast? with
  | none => simp
  | some c => simp

theorem declaredAt?_append (rule : BracketRule) (front s : List Char) :
    rule.declaredAt? (front ++ s) front.length = (rule.readHere? (insideAfter false front) 0 s).map
      fun (id, body) => rule.declarationAt front.length id body := by
  rw [declaredAt?, readHere?, List.take_left, List.drop_left]
  cases insideAfter false front with
  | false => rfl
  | true => rfl

theorem exists_of_declaredAt? (h : rule.declaredAt? line column = some d) :
    insideAfter false (line.take column) = false ∧ ∃ id body,
      rule.read? (line.drop column) = some (id, body) ∧ rule.declarationAt column id body = d := by
  rw [declaredAt?] at h
  split at h
  · cases h
  · next hfront =>
      obtain ⟨⟨id, body⟩, hread, heq⟩ := Option.map_eq_some_iff.mp h
      exact ⟨by simpa using hfront, id, body, hread, heq⟩

theorem column_eq_of_declaredAt? (h : rule.declaredAt? line column = some d) :
    d.column = column := by
  obtain ⟨-, id, body, -, rfl⟩ := exists_of_declaredAt? h
  rfl

theorem shape_eq_of_declaredAt? (h : rule.declaredAt? line column = some d) :
    d.shape = rule.shape := by
  obtain ⟨-, id, body, -, rfl⟩ := exists_of_declaredAt? h
  rfl

theorem column_lt_of_declaredAt? (h : rule.declaredAt? line column = some d) :
    column < line.length := by
  obtain ⟨-, id, body, hread, -⟩ := exists_of_declaredAt? h
  by_contra hle
  rw [List.drop_eq_nil_of_le (by omega)] at hread
  cases hread

/-- A detached rule declares at a column what can be declared there. -/
theorem Detached.declaredAt?_eq_some_iff (hr : rule.Detached) :
    rule.declaredAt? line column = some d ↔ rule.Declares line d ∧ d.column = column := by
  constructor
  · intro h
    have hlength : (line.take column).length = column :=
      List.length_take_of_le (Nat.le_of_lt (column_lt_of_declaredAt? h))
    obtain ⟨hinside, id, body, hread, rfl⟩ := exists_of_declaredAt? h
    obtain ⟨rest, hdrop, hid, hbody⟩ := exists_of_read? hread
    have hdeclares := @Declares.intro rule (line.take column) id body rest hid hbody
      (insideAfter_eq_false_iff.mp hinside)
    rw [← hdrop, List.take_append_drop, hlength] at hdeclares
    exact ⟨hdeclares, rfl⟩
  · rintro ⟨⟨hid, hbody, hfront⟩, rfl⟩
    rw [declaredAt?_append, insideAfter_eq_false_iff.mpr hfront, readHere?, if_pos ⟨rfl, rfl⟩,
      hr.read?_append hid hbody]
    rfl

theorem covered_eq_zero_of_readHere? {inside : Bool}
    (h : rule.readHere? inside covered s = some (id, body)) : covered = 0 := by
  rw [readHere?] at h
  split at h
  · next hfree => exact hfree.1
  · cases h

theorem span_pos_of_read? (h : rule.read? s = some (id, body)) : 0 < rule.span id body := by
  obtain ⟨_, -, hid, -⟩ := exists_of_read? h
  exact Nat.add_pos_left (List.length_pos_iff.mpr hid.1) _

/-- A scan finds what is declared behind all that it has found further left. -/
theorem mem_occurrencesFrom_iff :
    d ∈ rule.occurrencesFrom front.length (insideAfter false front) covered s ↔
      front.length + covered ≤ d.column ∧ rule.declaredAt? (front ++ s) d.column = some d ∧
        ∀ e ∈ rule.occurrencesFrom front.length (insideAfter false front) covered s,
          e.column < d.column → e.stop ≤ d.column := by
  induction s generalizing front covered d with
  | nil =>
      refine ⟨fun h => absurd h List.not_mem_nil, ?_⟩
      rintro ⟨hle, hd, -⟩
      have := column_lt_of_declaredAt? hd
      rw [List.append_nil] at this
      omega
  | cons c s ih =>
      have hnext : ∀ {covered : Nat} {d : Declaration},
          d ∈ rule.occurrencesFrom (front.length + 1) (isIdChar c) covered s ↔
            front.length + 1 + covered ≤ d.column ∧
              rule.declaredAt? (front ++ c :: s) d.column = some d ∧
              ∀ e ∈ rule.occurrencesFrom (front.length + 1) (isIdChar c) covered s,
                e.column < d.column → e.stop ≤ d.column := by
        intro covered d
        have hlength : (front ++ [c]).length = front.length + 1 := by simp
        have hinside : insideAfter false (front ++ [c]) = isIdChar c := by simp [insideAfter]
        have := @ih (front ++ [c]) covered d
        rwa [hlength, hinside, List.append_assoc, List.singleton_append] at this
      -- What is declared where the scan stands is what the scan reads there.
      have hhere : rule.declaredAt? (front ++ c :: s) front.length =
          (rule.readHere? (insideAfter false front) 0 (c :: s)).map
            fun (id, body) => rule.declarationAt front.length id body :=
        declaredAt?_append rule front (c :: s)
      cases hread : rule.readHere? (insideAfter false front) covered (c :: s) with
      | none =>
          rw [occurrencesFrom_of_none hread, hnext]
          refine and_congr_left ?_
          rintro ⟨hd, -⟩
          refine ⟨fun hle => by omega, fun hle => ?_⟩
          have hcolumn : covered = 0 → d.column ≠ front.length := by
            rintro rfl hcolumn
            rw [hcolumn, hhere, hread] at hd
            cases hd
          omega
      | some read =>
          obtain ⟨id, body⟩ := read
          obtain rfl := covered_eq_zero_of_readHere? hread
          rw [hread, Option.map_some] at hhere
          have hspan := span_pos_of_read? (read?_of_readHere? hread)
          have hbehind : ∀ {d}, d ∈ rule.occurrencesFrom (front.length + 1) (isIdChar c)
              (rule.span id body - 1) s → front.length + rule.span id body ≤ d.column := by
            intro d hd
            have := (hnext.mp hd).1
            omega
          rw [occurrencesFrom_of_some hread, List.mem_cons, List.forall_mem_cons]
          constructor
          · rintro (rfl | hd)
            · refine ⟨Nat.le_refl _, hhere, fun hlt => absurd hlt (Nat.lt_irrefl _), ?_⟩
              intro e he hlt
              have hle := hbehind he
              have : e.column < front.length := hlt
              omega
            · obtain ⟨-, hat, hstop⟩ := hnext.mp hd
              exact ⟨by have := hbehind hd; omega, hat, fun _ => hbehind hd, hstop⟩
          · rintro ⟨hle, hat, hfirst, hstop⟩
            rcases Nat.eq_or_lt_of_le hle with hcolumn | hlt
            · left
              rw [← hcolumn, Nat.add_zero, hhere] at hat
              exact (Option.some.inj hat).symm
            · right
              have : front.length + rule.span id body ≤ d.column := hfirst hlt
              exact hnext.mpr ⟨by omega, hat, hstop⟩

theorem mem_occurrences_iff : d ∈ rule.occurrences line ↔
    rule.declaredAt? line d.column = some d ∧ ¬ rule.Busy line d.column := by
  refine (@mem_occurrencesFrom_iff rule [] line 0 d).trans ?_
  rw [Busy]
  push Not
  exact ⟨fun ⟨_, hd, hstop⟩ => ⟨hd, hstop⟩, fun ⟨hd, hstop⟩ => ⟨Nat.zero_le _, hd, hstop⟩⟩

/-- At the first column a scan finds all that is declared there. -/
theorem foundAt?_zero (rule : BracketRule) (line : List Char) :
    rule.foundAt? line 0 = rule.declaredAt? line 0 := by
  rw [foundAt?, if_neg]
  rintro ⟨d, -, hlt, -⟩
  exact absurd hlt (Nat.not_lt_zero _)

theorem foundAt?_eq_find? (rule : BracketRule) (line : List Char) (column : Nat) :
    rule.foundAt? line column = (rule.occurrences line).find? fun d => d.column = column := by
  rw [foundAt?]
  cases hfind : (rule.occurrences line).find? fun d => d.column = column with
  | none =>
      rw [List.find?_eq_none] at hfind
      split
      · rfl
      · next hidle =>
          by_contra hsome
          obtain ⟨d, hd⟩ := Option.ne_none_iff_exists'.mp hsome
          have hcolumn := column_eq_of_declaredAt? hd
          rw [← hcolumn] at hd hidle
          exact hfind d (mem_occurrences_iff.mpr ⟨hd, hidle⟩) (decide_eq_true hcolumn)
  | some d =>
      have hcolumn : d.column = column := by simpa using List.find?_some hfind
      obtain ⟨hd, hidle⟩ := mem_occurrences_iff.mp (List.mem_of_find?_eq_some hfind)
      rw [hcolumn] at hd hidle
      rw [if_neg hidle, hd]

/-- The rules of the language differ in their shapes. -/
theorem eq_of_shape_eq {rule rule' : BracketRule} (h : rule ∈ standard) (h' : rule' ∈ standard)
    (hshape : rule.shape = rule'.shape) : rule = rule' := by
  simp only [standard, List.mem_cons, List.not_mem_nil, or_false] at h h'
  rcases h with rfl | rfl | rfl | rfl <;> rcases h' with rfl | rfl | rfl | rfl <;>
    first | rfl | cases hshape

end BracketRule

/-! ### From column to column -/

section
variable {found? other? : Nat → Option Declaration} {free : Nat} {columns : List Nat}
  {d : Declaration}

/-- Accepts what is found at one column after the other, unless the column lies before the end of
what was accepted last. -/
def acceptFrom (found? : Nat → Option Declaration) (free : Nat) : List Nat → List Declaration
  | [] => []
  | column :: columns =>
    match if column < free then none else found? column with
    | some d => d :: acceptFrom found? d.stop columns
    | none => acceptFrom found? free columns

theorem acceptFrom_cons_of_none {column : Nat}
    (h : (if column < free then none else found? column) = none) :
    acceptFrom found? free (column :: columns) = acceptFrom found? free columns := by
  simp only [acceptFrom, h]

theorem acceptFrom_cons_of_some {column : Nat}
    (h : (if column < free then none else found? column) = some d) :
    acceptFrom found? free (column :: columns) = d :: acceptFrom found? d.stop columns := by
  simp only [acceptFrom, h]

/-- It is enough that the same is found where something is accepted, and nothing more. -/
theorem acceptFrom_congr (hnone : ∀ column, found? column = none → other? column = none)
    (h : ∀ d ∈ acceptFrom found? free columns, ∀ column, found? column = some d →
      other? column = some d) :
    acceptFrom other? free columns = acceptFrom found? free columns := by
  induction columns generalizing free with
  | nil => rfl
  | cons column columns ih =>
      cases hfound : if column < free then none else found? column with
      | none =>
          rw [acceptFrom_cons_of_none hfound] at h ⊢
          rw [acceptFrom_cons_of_none, ih h]
          split
          · rfl
          · next hfree => exact hnone column (by rwa [if_neg hfree] at hfound)
      | some d =>
          rw [acceptFrom_cons_of_some hfound] at h ⊢
          obtain ⟨hd, hlater⟩ := List.forall_mem_cons.mp h
          rw [acceptFrom_cons_of_some, ih hlater]
          split at hfound
          · cases hfound
          · next hfree => rw [if_neg hfree, hd column hfound]

/-- What starts before the end of what is kept is passed over. -/
theorem keepApart_append_of_forall_lt {l : List Declaration} (h : ∀ d ∈ l, d.column < free)
    (l' : List Declaration) : keepApart free (l ++ l') = keepApart free l' := by
  induction l with
  | nil => rfl
  | cons d l ih =>
      obtain ⟨hd, hl⟩ := List.forall_mem_cons.mp h
      rw [List.cons_append, keepApart, if_pos hd, ih hl]

/-- Of declarations that stand column by column, the first one of a column is accepted. -/
theorem keepApart_flatMap {found : Nat → List Declaration}
    (hcolumn : ∀ column, ∀ d ∈ found column, d.column = column ∧ column < d.stop) :
    keepApart free (columns.flatMap found) =
      acceptFrom (fun column => (found column).head?) free columns := by
  induction columns generalizing free with
  | nil => rfl
  | cons column columns ih =>
      rw [List.flatMap_cons]
      by_cases hfree : column < free
      · have hskip : ∀ d ∈ found column, d.column < free := by
          intro d hd
          rwa [(hcolumn column d hd).1]
        rw [acceptFrom_cons_of_none (if_pos hfree), keepApart_append_of_forall_lt hskip, ih]
      · cases hfound : found column with
        | nil => rw [List.nil_append, acceptFrom_cons_of_none (by simp [hfound]), ih]
        | cons d l =>
            have hall := hcolumn column
            rw [hfound] at hall
            obtain ⟨⟨hd, hstop⟩, hl⟩ := List.forall_mem_cons.mp hall
            have hskip : ∀ e ∈ l, e.column < d.stop := by
              intro e he
              rwa [(hl e he).1]
            rw [acceptFrom_cons_of_some (d := d) (by simp [hfree, hfound]), List.cons_append,
              keepApart, if_neg (by omega), keepApart_append_of_forall_lt hskip, ih]

end

/-! ### Declarations from column to column -/

section
variable {rules : List BracketRule} {excluded : Option Span} {line : List Char} {column : Nat}
  {d : Declaration} {declared? : BracketRule → Nat → Option Declaration}

/-- What the first rule that declares something at a column declares there; in an excluded span
nothing. -/
def firstAt? (declared? : BracketRule → Nat → Option Declaration) (rules : List BracketRule)
    (excluded : Option Span) (column : Nat) : Option Declaration :=
  if covers excluded column then none else rules.findSome? fun rule => declared? rule column

/-- The leftmost declarations on a line that do not overlap and do not start in a span; at one
column that of the earlier rule. -/
def leftmost (rules : List BracketRule) (excluded : Option Span) (line : List Char) :
    List Declaration :=
  acceptFrom (firstAt? (fun rule => rule.declaredAt? line) rules excluded) 0
    (List.range line.length)

theorem firstAt?_eq_some_iff : firstAt? declared? rules excluded column = some d ↔
    covers excluded column = false ∧ ∃ before rule after, rules = before ++ rule :: after ∧
      declared? rule column = some d ∧ ∀ earlier ∈ before, declared? earlier column = none := by
  rw [firstAt?]
  split
  · next h => simp [h]
  · next h => simp [h, List.findSome?_eq_some_iff]

theorem firstAt?_eq_none_iff : firstAt? declared? rules excluded column = none ↔
    covers excluded column = true ∨ ∀ rule ∈ rules, declared? rule column = none := by
  rw [firstAt?]
  split
  · next h => simp [h]
  · next h => simp [h]

/-- Of all that the scans find at a column outside of a span, that of the first rule comes first. -/
theorem head?_filter_occurrences (rules : List BracketRule) (excluded : Option Span)
    (line : List Char) (column : Nat) :
    (((rules.flatMap fun rule => rule.occurrences line).filter
      fun d => !covers excluded d.column).filter fun d => d.column = column).head? =
        firstAt? (fun rule => rule.foundAt? line) rules excluded column := by
  rw [List.filter_filter, List.head?_filter, List.find?_flatMap, firstAt?]
  cases hcovers : covers excluded column with
  | true =>
      rw [if_pos rfl, List.findSome?_eq_none_iff]
      intro rule _
      rw [List.find?_eq_none]
      intro d _ hd
      obtain ⟨rfl, hoff⟩ : d.column = column ∧ covers excluded d.column = false := by
        simpa using hd
      rw [hcovers] at hoff
      cases hoff
  | false =>
      rw [if_neg (by decide)]
      congr 1
      funext rule
      rw [BracketRule.foundAt?_eq_find?]
      congr 1
      funext d
      by_cases hd : d.column = column
      · simp [hd, hcovers]
      · simp [hd]

/-- The declarations of a line are accepted from column to column, too, from what the scans of the
rules find there. -/
theorem declarations_eq_acceptFrom (rules : List BracketRule) (excluded : Option Span)
    (line : List Char) : declarations (rules.map .ofBracket) excluded line =
      acceptFrom (firstAt? (fun rule => rule.foundAt? line) rules excluded) 0
        (List.range line.length) := by
  have hmem : ∀ d ∈ (rules.flatMap fun rule => rule.occurrences line).filter
      (fun d => !covers excluded d.column), d.column < line.length ∧ d.column < d.stop := by
    intro d hd
    obtain ⟨rule, -, hd⟩ := List.mem_flatMap.mp (List.mem_filter.mp hd).1
    have hdeclares := BracketRule.declares_of_mem_occurrences hd
    exact ⟨hdeclares.column_lt, hdeclares.column_lt_stop⟩
  rw [declarations, candidates, flatMap_occurrences_ofBracket,
    sortBy_eq_flatMap_filter fun d hd => (hmem d hd).1, keepApart_flatMap]
  · congr 1
    funext column
    exact head?_filter_occurrences rules excluded line column
  · intro column d hd
    obtain ⟨hcandidate, hcolumn⟩ := List.mem_filter.mp hd
    have hcol : d.column = column := of_decide_eq_true hcolumn
    exact ⟨hcol, hcol.symm.trans_lt (hmem d hcandidate).2⟩

/-- What the first rule declares at the first column is kept. -/
theorem head?_declarations
    (h : firstAt? (fun rule => rule.declaredAt? line) rules excluded 0 = some d) :
    (declarations (rules.map .ofBracket) excluded line).head? = some d := by
  have hpos : 0 < line.length := by
    obtain ⟨-, -, rule, -, -, hdeclared, -⟩ := firstAt?_eq_some_iff.mp h
    exact BracketRule.column_lt_of_declaredAt? hdeclared
  have hfound : firstAt? (fun rule => rule.foundAt? line) rules excluded 0 = some d := by
    rw [← h, firstAt?, firstAt?]
    simp only [BracketRule.foundAt?_zero]
  obtain ⟨n, hn⟩ := Nat.exists_eq_succ_of_ne_zero hpos.ne'
  rw [declarations_eq_acceptFrom, hn, List.range_succ_eq_map,
    acceptFrom_cons_of_some (by rwa [if_neg (Nat.lt_irrefl 0)]), List.head?_cons]

/-- Nothing is kept beside a first declaration that all others start inside of. -/
theorem declarations_eq_singleton
    (h : firstAt? (fun rule => rule.declaredAt? line) rules excluded 0 = some d)
    (hinside : ∀ e ∈ declarations (rules.map .ofBracket) excluded line, e.column < d.stop) :
    declarations (rules.map .ofBracket) excluded line = [d] := by
  have hhead := head?_declarations h
  have hapart := pairwise_declarations (rules.map .ofBracket) excluded line
  cases hkept : declarations (rules.map .ofBracket) excluded line with
  | nil =>
      rw [hkept] at hhead
      cases hhead
  | cons first later =>
      rw [hkept] at hhead hapart hinside
      obtain rfl := Option.some.inj hhead
      obtain rfl : later = [] := by
        refine List.eq_nil_iff_forall_not_mem.mpr fun e he => ?_
        have hbehind := (List.pairwise_cons.mp hapart).1 e he
        have := hinside e (List.mem_cons_of_mem first he)
        omega
      rfl

/-- **When all declarations are found.**  The declarations of a line are the leftmost ones exactly
if no leftmost one starts where the scan of its own rule is inside of another declaration, kept or
not. -/
theorem declarations_eq_leftmost_iff (excluded : Option Span) (line : List Char) :
    declarations ShapeRule.standard excluded line = leftmost BracketRule.standard excluded line ↔
      ∀ d ∈ leftmost BracketRule.standard excluded line, ∀ rule ∈ BracketRule.standard,
        rule.shape = d.shape → ¬ rule.Busy line d.column := by
  constructor
  · intro heq d hd rule hrule hshape
    rw [← heq] at hd
    obtain ⟨⟨rule', hrule', hfound⟩, -⟩ :=
      mem_candidates_ofBracket.mp (mem_of_mem_keepApart hd)
    obtain ⟨hdeclared, hidle⟩ := BracketRule.mem_occurrences_iff.mp hfound
    have hsame := hshape.trans (BracketRule.shape_eq_of_declaredAt? hdeclared)
    rwa [BracketRule.eq_of_shape_eq hrule hrule' hsame]
  · intro hidle
    rw [declarations_eq_acceptFrom]
    apply acceptFrom_congr
    · intro column hnone
      rw [firstAt?_eq_none_iff] at hnone ⊢
      refine hnone.imp_right fun hnone rule hrule => ?_
      rw [BracketRule.foundAt?, hnone rule hrule, ite_self]
    · intro d hd column hfirst
      rw [firstAt?_eq_some_iff] at hfirst ⊢
      obtain ⟨hcovers, before, rule, after, hrules, hdeclared, hbefore⟩ := hfirst
      have hrule : rule ∈ BracketRule.standard := by
        rw [hrules]
        exact List.mem_append_right _ List.mem_cons_self
      have hfree := hidle d hd rule hrule (BracketRule.shape_eq_of_declaredAt? hdeclared).symm
      rw [BracketRule.column_eq_of_declaredAt? hdeclared] at hfree
      refine ⟨hcovers, before, rule, after, hrules, ?_, fun earlier hearlier => ?_⟩
      · rw [BracketRule.foundAt?, if_neg hfree, hdeclared]
      · rw [BracketRule.foundAt?, hbefore earlier hearlier, ite_self]

/-- From inside of the label `x(y`, the scan for rounded nodes runs over the declaration of `B`. -/
theorem declarations_ne_leftmost :
    (declarations ShapeRule.standard none "A[x(y] B(z)".toList).map Declaration.id = ["A"] ∧
    (leftmost BracketRule.standard none "A[x(y] B(z)".toList).map Declaration.id = ["A", "B"] ∧
    declarations ShapeRule.standard none "A[x(y] B(z)".toList ≠
      leftmost BracketRule.standard none "A[x(y] B(z)".toList := by
  decide +kernel

end

end Flowchart.Grammar
