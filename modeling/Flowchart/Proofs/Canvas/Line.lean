import Mathlib.Algebra.Order.Ring.Abs
import Mathlib.Data.List.Chain
import Mathlib.Tactic.Linarith
import Mathlib.Tactic.Ring
import Flowchart.Canvas.Line

/-! # Lines are straight

A walk takes steps until it is at the end of its course (`LineCourse.Walk`), whether it ever comes
there or not.  After `k` steps it has gone `a` columns and `b` rows, and the error says how far this
is off the ideal line: at most half a cell (`LineCourse.Reached`).  A step keeps this, and the
longer extent shrinks with every step (`Reached.step`).  So the walk comes to the end after as many
steps as the longer extent has, not earlier (`Reached.eq_stop_iff`), and `lineCells` are its places
(`Reached.walk_cellsFrom`).

`isLine_lineCells` says what this means for the cells. -/

namespace Flowchart

namespace LineCourse

/-- The places of a walk, which goes on until it is at the end. -/
inductive Walk (l : LineCourse) : Place → Int → List Place → Prop
  | stop {err : Int} : Walk l l.stop err [l.stop]
  | step {here : Place} {err : Int} {cells : List Place} : here ≠ l.stop →
      Walk l (l.step here err).1 (l.step here err).2 cells → Walk l here err (here :: cells)

/-- A course leads from a place to its end: its directions are units, and the extents in these
directions lead there. -/
structure From (l : LineCourse) (start : Place) : Prop where
  dx_nonneg : 0 ≤ l.dx
  dy_nonpos : l.dy ≤ 0
  sx : l.sx = 1 ∨ l.sx = -1
  sy : l.sy = 1 ∨ l.sy = -1
  stop : l.stop = (start.1 + l.dx * l.sx, start.2 + -l.dy * l.sy)

/-- After `k` steps a walk has gone `a` columns and `b` rows: one of both with every step, and never
more than half a cell off the line. -/
structure Reached (l : LineCourse) (start : Place) (k a b : Nat) (here : Place) (err : Int) :
    Prop where
  place : here = (start.1 + a * l.sx, start.2 + b * l.sy)
  err : err = b * l.dx + a * l.dy + (l.dx + l.dy)
  above : 2 * (b * l.dx + a * l.dy) ≤ max l.dx (-l.dy)
  below : -max l.dx (-l.dy) ≤ 2 * (b * l.dx + a * l.dy)
  wide : -l.dy ≤ l.dx → a = k
  high : l.dx ≤ -l.dy → b = k

variable {l : LineCourse} {start here : Place} {k k' a b a' b' n : Nat} {err err' : Int}
  {cells cells' : List Place}

theorem from_between (start stop : Place) : (between start stop).From start := by
  obtain ⟨x, y⟩ := start
  obtain ⟨x', y'⟩ := stop
  refine ⟨?_, ?_, ?_, ?_, ?_⟩
  · simp only [between]
    omega
  · simp only [between]
    omega
  · simp only [between]
    split <;> simp
  · simp only [between]
    split <;> simp
  · simp only [between, Prod.mk.injEq]
    constructor <;> split <;> omega

theorem From.offset_inj (h : l.From start) {p q p' q' : Int}
    (heq : (start.1 + p * l.sx, start.2 + q * l.sy) = (start.1 + p' * l.sx, start.2 + q' * l.sy)) :
    p = p' ∧ q = q' := by
  obtain ⟨hx, hy⟩ := Prod.mk.inj heq
  constructor
  · rcases h.sx with hs | hs <;> rw [hs] at hx <;> omega
  · rcases h.sy with hs | hs <;> rw [hs] at hy <;> omega

theorem From.reached_start (h : l.From start) : l.Reached start 0 0 0 start (l.dx + l.dy) where
  place := by simp
  err := by simp
  above := by simpa using Or.inl h.dx_nonneg
  below := by simpa using Or.inl h.dx_nonneg
  wide _ := rfl
  high _ := rfl

/-- Half a step of the longer extent `m` is less than one of the shorter extent `n`. -/
theorem le_of_near {m n p q : Int} (hm : 0 < m) (hn : 0 ≤ n) (hp : p ≤ m)
    (h : 2 * (q * m - p * n) ≤ m) : q ≤ n := by
  by_contra hlt
  have hq : 0 ≤ (q - n - 1) * m := mul_nonneg (by omega) hm.le
  have hrest : 0 ≤ (m - p) * n := mul_nonneg (by omega) hn
  linarith

theorem ge_of_near {m n q : Int} (hm : 0 < m) (h : -m ≤ 2 * (q * m - m * n)) : n ≤ q := by
  by_contra hlt
  have hq : 0 ≤ (n - q - 1) * m := mul_nonneg (by omega) hm.le
  linarith

namespace Reached

/-- A step keeps a walk within half a cell of the line. -/
theorem step (hl : l.From start) (h : l.Reached start k a b here err) :
    ∃ a' b', (a' = a ∨ a' = a + 1) ∧ (b' = b ∨ b' = b + 1) ∧
      l.Reached start (k + 1) a' b' (l.step here err).1 (l.step here err).2 := by
  have hdx := hl.dx_nonneg
  have hdy := hl.dy_nonpos
  obtain ⟨rfl, herr, habove, hbelow, hwide, hhigh⟩ := h
  -- How far the place is off the line; all that follows is linear in it.
  generalize hoff : b * l.dx + a * l.dy = off at herr habove hbelow
  have hmove : ∀ i j : Nat, 2 * (off + j * l.dx + i * l.dy) ≤ max l.dx (-l.dy) →
      -max l.dx (-l.dy) ≤ 2 * (off + j * l.dx + i * l.dy) → (-l.dy ≤ l.dx → i = 1) →
      (l.dx ≤ -l.dy → j = 1) →
      l.Reached start (k + 1) (a + i) (b + j)
        (start.1 + a * l.sx + i * l.sx, start.2 + b * l.sy + j * l.sy)
        (err + i * l.dy + j * l.dx) := by
    intro i j habove' hbelow' hi hj
    have hoff' : ((b + j : Nat) : Int) * l.dx + ((a + i : Nat) : Int) * l.dy =
        off + j * l.dx + i * l.dy := by
      rw [← hoff]
      push_cast
      ring
    refine ⟨?_, ?_, ?_, ?_, ?_, ?_⟩
    · push_cast
      rw [add_mul, add_mul, add_assoc, add_assoc]
    · rw [hoff', herr]
      ring
    · rwa [hoff']
    · rwa [hoff']
    · intro h
      rw [hwide h, hi h]
    · intro h
      rw [hhigh h, hj h]
  by_cases hx : l.dy ≤ 2 * err
  · by_cases hy : 2 * err ≤ l.dx
    · have := hmove 1 1 (by push_cast; omega) (by push_cast; omega) (by omega) (by omega)
      refine ⟨a + 1, b + 1, .inr rfl, .inr rfl, ?_⟩
      simpa [LineCourse.step, hx, hy] using this
    · have := hmove 1 0 (by push_cast; omega) (by push_cast; omega) (by omega) (by omega)
      refine ⟨a + 1, b, .inr rfl, .inl rfl, ?_⟩
      simpa [LineCourse.step, hx, hy] using this
  · by_cases hy : 2 * err ≤ l.dx
    · have := hmove 0 1 (by push_cast; omega) (by push_cast; omega) (by omega) (by omega)
      refine ⟨a, b + 1, .inl rfl, .inr rfl, ?_⟩
      simpa [LineCourse.step, hx, hy] using this
    · omega

/-- A walk never goes beyond its extents, and reaches both with the last step. -/
theorem extents (hl : l.From start) (h : l.Reached start k a b here err) (hk : k ≤ l.steps) :
    a ≤ l.dx ∧ b ≤ -l.dy ∧ (k = l.steps → a = l.dx ∧ b = -l.dy) := by
  have hdx := hl.dx_nonneg
  have hdy := hl.dy_nonpos
  obtain ⟨-, -, habove, hbelow, hwide, hhigh⟩ := h
  unfold steps at hk ⊢
  by_cases hflat : -l.dy ≤ l.dx
  · rw [max_eq_left hflat] at habove hbelow
    obtain rfl := hwide hflat
    rcases hdx.eq_or_lt with hzero | hpos
    · omega
    · have ha : (a : Int) ≤ l.dx := by omega
      have hb : (b : Int) ≤ -l.dy := le_of_near hpos (by omega) ha (by linarith)
      refine ⟨ha, hb, fun hlast => ?_⟩
      have ha : (a : Int) = l.dx := by omega
      rw [ha] at hbelow
      exact ⟨ha, le_antisymm hb (ge_of_near hpos (by linarith))⟩
  · have hsteep : l.dx ≤ -l.dy := by omega
    rw [max_eq_right hsteep] at habove hbelow
    obtain rfl := hhigh hsteep
    have hpos : 0 < -l.dy := by omega
    have hb : (b : Int) ≤ -l.dy := by omega
    have ha : (a : Int) ≤ l.dx := le_of_near hpos hdx hb (by linarith)
    refine ⟨ha, hb, fun hlast => ?_⟩
    have hb : (b : Int) = -l.dy := by omega
    rw [hb] at habove
    exact ⟨le_antisymm ha (ge_of_near hpos (by linarith)), hb⟩

/-- A walk is at its end after the last step and not before. -/
theorem eq_stop_iff (hl : l.From start) (h : l.Reached start k a b here err) (hk : k ≤ l.steps) :
    here = l.stop ↔ k = l.steps := by
  have hdx := hl.dx_nonneg
  have hdy := hl.dy_nonpos
  constructor
  · intro hhere
    rw [h.place, hl.stop] at hhere
    obtain ⟨ha, hb⟩ := hl.offset_inj hhere
    have hwide := h.wide
    have hhigh := h.high
    unfold steps
    omega
  · intro hlast
    obtain ⟨ha, hb⟩ := (h.extents hl hk).2.2 hlast
    rw [h.place, hl.stop, ha, hb]

/-- Before its end a walk has a step left. -/
theorem next (hl : l.From start) (h : l.Reached start k a b here err) (hk : k ≤ l.steps)
    (hne : here ≠ l.stop) : k < l.steps ∧
      ∃ a' b', l.Reached start (k + 1) a' b' (l.step here err).1 (l.step here err).2 := by
  have hlast : k ≠ l.steps := (h.eq_stop_iff hl hk).not.mp hne
  obtain ⟨a', b', -, -, hnext⟩ := h.step hl
  exact ⟨by omega, a', b', hnext⟩

/-- A walk is at every place once. -/
theorem unique (hl : l.From start) (h : l.Reached start k a b here err)
    (h' : l.Reached start k' a' b' here err') : k = k' := by
  have heq := h.place.symm.trans h'.place
  obtain ⟨ha, hb⟩ := hl.offset_inj heq
  -- The moves along the longer extent count the steps.
  have hwide := h.wide
  have hwide' := h'.wide
  have hhigh := h.high
  have hhigh' := h'.high
  omega

/-- The walk comes to its end in the number of steps that `cellsFrom` allows. -/
theorem walk_cellsFrom (hl : l.From start) (h : l.Reached start k a b here err)
    (hn : k + n = l.steps) : l.Walk here err (l.cellsFrom n here err) := by
  induction n generalizing k a b here err with
  | zero =>
      obtain rfl := (h.eq_stop_iff hl (by omega)).mpr hn
      exact .stop
  | succ n ih =>
      have hne : here ≠ l.stop := fun heq => by
        have := (h.eq_stop_iff hl (by omega)).mp heq
        omega
      obtain ⟨-, a', b', hnext⟩ := h.next hl (by omega) hne
      rw [cellsFrom, if_neg hne]
      exact .step hne (ih hnext (by omega))

end Reached

/-! ### Walks -/

namespace Walk

theorem unique (h : l.Walk here err cells) (h' : l.Walk here err cells') : cells = cells' := by
  induction h generalizing cells' with
  | stop =>
      cases h' with
      | stop => rfl
      | step hne => exact absurd rfl hne
  | step hne _ ih =>
      cases h' with
      | stop => exact absurd rfl hne
      | step _ h' => rw [ih h']

theorem head? (h : l.Walk here err cells) : cells.head? = some here := by
  cases h <;> rfl

theorem getLast? (h : l.Walk here err cells) : cells.getLast? = some l.stop := by
  induction h with
  | stop => rfl
  | step _ h ih => rw [List.getLast?_cons, ih]; rfl

section
variable (hl : l.From start)
include hl

theorem length (h : l.Walk here err cells) (hr : l.Reached start k a b here err)
    (hk : k ≤ l.steps) : k + cells.length = l.steps + 1 := by
  induction h generalizing k a b with
  | stop => rw [(hr.eq_stop_iff hl hk).mp rfl, List.length_singleton]
  | step hne _ ih =>
      obtain ⟨hlt, a', b', hnext⟩ := hr.next hl hk hne
      have := ih hnext hlt
      rw [List.length_cons]
      omega

/-- All places of a walk are reached by it, one after the other. -/
theorem exists_reached (h : l.Walk here err cells) (hr : l.Reached start k a b here err)
    (hk : k ≤ l.steps) {p : Place} (hp : p ∈ cells) :
    ∃ j a' b' err', k ≤ j ∧ l.Reached start j a' b' p err' := by
  induction h generalizing k a b with
  | stop =>
      obtain rfl := List.mem_singleton.mp hp
      exact ⟨k, a, b, _, le_refl k, hr⟩
  | step hne _ ih =>
      rcases List.mem_cons.mp hp with rfl | hp
      · exact ⟨k, a, b, _, le_refl k, hr⟩
      · obtain ⟨hlt, a', b', hnext⟩ := hr.next hl hk hne
        obtain ⟨j, c, d, e, hj, hreached⟩ := ih hnext hlt hp
        exact ⟨j, c, d, e, by omega, hreached⟩

theorem nodup (h : l.Walk here err cells) (hr : l.Reached start k a b here err)
    (hk : k ≤ l.steps) : cells.Nodup := by
  induction h generalizing k a b with
  | stop => exact List.pairwise_singleton _ _
  | step hne h ih =>
      obtain ⟨hlt, a', b', hnext⟩ := hr.next hl hk hne
      refine List.nodup_cons.mpr ⟨fun hmem => ?_, ih hnext hlt⟩
      obtain ⟨j, c, d, e, hj, hreached⟩ := h.exists_reached hl hnext hlt hmem
      have := hr.unique hl hreached
      omega

end

end Walk

end LineCourse

/-! ### Lines -/

/-- A coordinate moves one cell nearer to a target. -/
def Nears (target c c' : Int) : Prop :=
  (c' - c).natAbs = 1 ∧ (target - c').natAbs + 1 = (target - c).natAbs

/-- From one cell of a line to the next, each coordinate stays or moves one cell nearer to the end,
and the one with the longer extent moves. -/
structure Advances (start stop p q : Place) : Prop where
  column : q.1 = p.1 ∨ Nears stop.1 p.1 q.1
  row : q.2 = p.2 ∨ Nears stop.2 p.2 q.2
  wide : (stop.2 - start.2).natAbs ≤ (stop.1 - start.1).natAbs → Nears stop.1 p.1 q.1
  high : (stop.1 - start.1).natAbs ≤ (stop.2 - start.2).natAbs → Nears stop.2 p.2 q.2

/-- The cells of a straight line: they lead from its start to its end, each one once, and none is
more than half a cell off. -/
structure IsLine (start stop : Place) (cells : List Place) : Prop where
  length : cells.length = max (stop.1 - start.1).natAbs (stop.2 - start.2).natAbs + 1
  nodup : cells.Nodup
  first : cells.head? = some start
  last : cells.getLast? = some stop
  advances : cells.IsChain (Advances start stop)
  near : ∀ p ∈ cells,
    2 * |(p.2 - start.2) * |stop.1 - start.1| * (LineCourse.between start stop).sy -
        (p.1 - start.1) * |stop.2 - start.2| * (LineCourse.between start stop).sx| ≤
      max |stop.1 - start.1| |stop.2 - start.2|

namespace LineCourse

variable {start stop here : Place} {k a b : Nat} {err : Int} {cells : List Place}

theorem nears_of_sign {origin extent sign : Int} {a a' : Nat} (hsign : sign = 1 ∨ sign = -1)
    (ha : a' = a + 1) (hle : a' ≤ extent) :
    Nears (origin + extent * sign) (origin + a * sign) (origin + a' * sign) := by
  subst ha
  unfold Nears
  rcases hsign with rfl | rfl <;> push_cast <;> omega

theorem Reached.advances (h : (between start stop).Reached start k a b here err)
    (hk : k < (between start stop).steps) :
    Advances start stop here ((between start stop).step here err).1 := by
  have hl := from_between start stop
  have hstop : stop = (start.1 + (between start stop).dx * (between start stop).sx,
      start.2 + -(between start stop).dy * (between start stop).sy) := hl.stop
  have hdx : (between start stop).dx = (stop.1 - start.1).natAbs := rfl
  have hdy : (between start stop).dy = -(stop.2 - start.2).natAbs := rfl
  obtain ⟨a', b', ha, hb, hnext⟩ := h.step hl
  obtain ⟨hcolumn, hrow, -⟩ := hnext.extents hl hk
  have hx : a' = a + 1 → Nears stop.1 (start.1 + a * (between start stop).sx)
      (start.1 + a' * (between start stop).sx) := fun hmove =>
    congrArg Prod.fst hstop ▸ nears_of_sign hl.sx hmove hcolumn
  have hy : b' = b + 1 → Nears stop.2 (start.2 + b * (between start stop).sy)
      (start.2 + b' * (between start stop).sy) := fun hmove =>
    congrArg Prod.snd hstop ▸ nears_of_sign hl.sy hmove hrow
  rw [hnext.place, h.place]
  refine ⟨ha.imp (congrArg fun n : Nat => start.1 + n * (between start stop).sx) hx,
    hb.imp (congrArg fun n : Nat => start.2 + n * (between start stop).sy) hy,
    fun hle => hx ?_, fun hle => hy ?_⟩
  · rw [h.wide (by omega), hnext.wide (by omega)]
  · rw [h.high (by omega), hnext.high (by omega)]

theorem Walk.isChain (h : (between start stop).Walk here err cells)
    (hr : (between start stop).Reached start k a b here err)
    (hk : k ≤ (between start stop).steps) : cells.IsChain (Advances start stop) := by
  have hl := from_between start stop
  induction h generalizing k a b with
  | stop => exact .singleton _
  | step hne h ih =>
      obtain ⟨hlt, a', b', hnext⟩ := hr.next hl hk hne
      refine (ih hnext hlt).cons fun p hp => ?_
      rw [h.head?] at hp
      obtain rfl := Option.some.inj hp
      exact hr.advances hlt

theorem Reached.offset_le (h : (between start stop).Reached start k a b here err) :
    2 * |(here.2 - start.2) * |stop.1 - start.1| * (between start stop).sy -
      (here.1 - start.1) * |stop.2 - start.2| * (between start stop).sx| ≤
        max |stop.1 - start.1| |stop.2 - start.2| := by
  have hl := from_between start stop
  have hdx : (between start stop).dx = |stop.1 - start.1| := Int.natCast_natAbs _
  have hdy : -(between start stop).dy = |stop.2 - start.2| :=
    (neg_neg _).trans (Int.natCast_natAbs _)
  have hoff : (here.2 - start.2) * |stop.1 - start.1| * (between start stop).sy -
      (here.1 - start.1) * |stop.2 - start.2| * (between start stop).sx =
      b * (between start stop).dx + a * (between start stop).dy := by
    rw [h.place, ← hdx, ← hdy]
    dsimp only
    rcases hl.sx with hx | hx <;> rcases hl.sy with hy | hy <;> rw [hx, hy] <;> ring
  have habs : 2 * |b * (between start stop).dx + a * (between start stop).dy| =
      |2 * (b * (between start stop).dx + a * (between start stop).dy)| := by
    rw [abs_mul, abs_two]
  rw [hoff, habs, ← hdx, ← hdy]
  exact abs_le.mpr ⟨h.below, h.above⟩

end LineCourse

open LineCourse in
/-- **Lines are straight.**  However long a walk may go on, it ends, with the cells of the line: as
many as the longer extent has steps and one more, each one once, from the start to the end.  From
one to the next no coordinate changes by more than one, and only towards the end, and that of the
longer extent always changes; and no cell is more than half a cell off the ideal line. -/
theorem isLine_lineCells (start stop : Place) :
    (∀ cells, (between start stop).Walk start
      ((between start stop).dx + (between start stop).dy) cells ↔ cells = lineCells start stop) ∧
    IsLine start stop (lineCells start stop) := by
  have hl := from_between start stop
  have hreached := hl.reached_start
  have hwalk : (between start stop).Walk start ((between start stop).dx + (between start stop).dy)
      (lineCells start stop) := hreached.walk_cellsFrom hl (Nat.zero_add _)
  have hlength := hwalk.length hl hreached (Nat.zero_le _)
  refine ⟨fun cells => ⟨fun h => h.unique hwalk, fun h => h ▸ hwalk⟩, ?_⟩
  exact {
    length := by
      simp only [steps, between] at hlength
      omega
    nodup := hwalk.nodup hl hreached (Nat.zero_le _)
    first := hwalk.head?
    last := hwalk.getLast?
    advances := hwalk.isChain hreached (Nat.zero_le _)
    near := by
      intro p hp
      obtain ⟨j, a, b, err, -, hp⟩ := hwalk.exists_reached hl hreached (Nat.zero_le _) hp
      exact hp.offset_le }

end Flowchart
