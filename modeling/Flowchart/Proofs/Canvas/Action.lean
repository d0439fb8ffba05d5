import Flowchart.Canvas.Preview

/-! # Runs of drawing actions

A triple says what an action that ends well leaves of a canvas.  There is a rule for every way in
which actions are put together.  All that actions do to a canvas is to put one glyph after the other
into one cell (`Triple.put`) and to attach tags (`Triple.of_modify`). -/

namespace Flowchart

/-- A cell with another glyph of a width, and with the tags that it has. -/
def Cell.holding (glyph : String) (width : Nat) (cell : Cell) : Cell := { cell with glyph, width }

namespace Canvas

/-- A property of actions that putting them one after the other keeps. -/
structure Composes (R : Action Unit → Prop) : Prop where
  pure : R (pure ())
  bind : ∀ {act : Action Unit} {next : Unit → Action Unit}, R act → (∀ u, R (next u)) →
    R (act >>= next)

theorem Composes.forM {R : Action Unit → Prop} (hR : Composes R) {ι : Type} {f : ι → Action Unit}
    {l : List ι} (h : ∀ i ∈ l, R (f i)) : R (l.forM f) := by
  induction l with
  | nil => exact hR.pure
  | cons i l ih =>
      obtain ⟨hi, hl⟩ := List.forall_mem_cons.mp h
      exact hR.bind hi fun _ => ih hl

/-- An action that starts on a canvas with `P` and ends well leaves one with `Q`. -/
def Triple {α : Type} (P : Canvas → Prop) (act : Action α) (Q : α → Canvas → Prop) : Prop :=
  ∀ c a c', P c → act.run c = .ok a c' → Q a c'

theorem run_put (x y : Int) (glyph : String) (width : Nat) (c : Canvas) :
    (put x y glyph width).run c =
      if c.Inside x y then .ok () (c.update x y (Cell.holding glyph width))
      else .error ⟨x, y, c.width, c.height⟩ c := by
  unfold put
  rw [EStateM.run_bind, EStateM.run_get]
  dsimp only
  split
  · exact EStateM.run_set _ _
  · exact EStateM.run_throw _ _

section
variable {α β : Type} {act : Action α} {next : α → Action β} {c c' c'' : Canvas} {a : α} {b : β}

/-- A run that ended well is taken apart into two that did. -/
theorem exists_of_run_bind (hrun : (act >>= next).run c = .ok b c'') :
    ∃ a c', act.run c = .ok a c' ∧ (next a).run c' = .ok b c'' := by
  rw [EStateM.run_bind] at hrun
  split at hrun
  · next a c' hact => exact ⟨a, c', hact, hrun⟩
  · cases hrun

theorem run_bind_eq_ok (hact : act.run c = .ok a c') (hnext : (next a).run c' = .ok b c'') :
    (act >>= next).run c = .ok b c'' := by
  rw [EStateM.run_bind, hact]
  exact hnext

end

namespace Triple

variable {α β : Type} {P P' : Canvas → Prop} {Q : α → Canvas → Prop} {act : Action α}

theorem mono {Q' : α → Canvas → Prop} (h : Triple P act Q) (hQ : ∀ a c, Q a c → Q' a c) :
    Triple P act Q' :=
  fun c a c' hc hrun => hQ a c' (h c a c' hc hrun)

theorem of_imp (h : Triple P act Q) (hP : ∀ c, P' c → P c) : Triple P' act Q :=
  fun c a c' hc hrun => h c a c' (hP c hc) hrun

theorem and {Q' : α → Canvas → Prop} (h : Triple P act Q) (h' : Triple P' act Q') :
    Triple (fun c => P c ∧ P' c) act fun a c => Q a c ∧ Q' a c :=
  fun c a c' hc hrun => ⟨h c a c' hc.1 hrun, h' c a c' hc.2 hrun⟩

theorem pure (a : α) : Triple (Q a) (pure a) Q := by
  intro c b c' hc hrun
  rw [EStateM.run_pure] at hrun
  obtain ⟨rfl, rfl⟩ := EStateM.Result.ok.inj hrun
  exact hc

theorem bind {R : β → Canvas → Prop} {f : α → Action β} (h : Triple P act Q)
    (hf : ∀ a, Triple (Q a) (f a) R) : Triple P (act >>= f) R := by
  intro c b c'' hc hrun
  obtain ⟨a, c', hact, hrun⟩ := exists_of_run_bind hrun
  exact hf a c' b c'' (h c a c' hc hact) hrun

theorem of_modify {f : Canvas → Canvas} {Q : Canvas → Prop} (h : ∀ c, P c → Q (f c)) :
    Triple P (modify f) fun _ => Q := by
  intro c a c' hc hrun
  rw [EStateM.run_modify] at hrun
  obtain ⟨-, rfl⟩ := EStateM.Result.ok.inj hrun
  exact h c hc

theorem put {x y : Int} {glyph : String} {width : Nat} {Q : Canvas → Prop}
    (h : ∀ c, P c → c.Inside x y → Q (c.update x y (Cell.holding glyph width))) :
    Triple P (put x y glyph width) fun _ => Q := by
  intro c a c' hc hrun
  rw [run_put] at hrun
  split at hrun
  · next hin =>
      obtain ⟨-, rfl⟩ := EStateM.Result.ok.inj hrun
      exact h c hc hin
  · cases hrun

theorem drawGlyph {x y : Int} {glyph : Char} {Q : Canvas → Prop}
    (h : ∀ c, P c → c.Inside x y → Q (c.update x y (Cell.holding glyph.toString 1))) :
    Triple P (drawGlyph x y glyph) fun _ => Q :=
  (put h).bind fun _ => pure (Q := fun _ => Q) ()

theorem composes (P : Canvas → Prop) : Composes fun act => Triple P act fun _ => P :=
  ⟨pure (Q := fun _ => P) (), fun hact hnext => hact.bind hnext⟩

/-- What every step keeps is kept by a loop. -/
theorem forM {ι : Type} {f : ι → Action Unit} {l : List ι}
    (h : ∀ i ∈ l, Triple P (f i) fun _ => P) : Triple P (l.forM f) fun _ => P :=
  (composes P).forM h

/-! ### Drawing along a row

What holds in front of each column of a row, and still holds in front of the next one when a glyph
has been put there, holds behind a text that was written.  The glyphs may be restricted, as long as
the blank is allowed that stands in a covered cell. -/

section row
variable {y limit : Int} {P : Int → Canvas → Prop} {G : String → Prop} (hblank : G " ")
  (hstep : ∀ x glyph width, x < limit → G glyph →
    Triple (P x) (Canvas.put x y glyph width) fun _ => P (x + 1))
include hblank hstep

theorem cover (count : Nat) (x : Int) (hx : x + count ≤ limit) :
    Triple (P x) (Canvas.cover y count x) fun _ => P (x + count) := by
  induction count generalizing x with
  | zero =>
      have h : Triple (P x) (Canvas.cover y 0 x) fun _ => P x := pure (Q := fun _ => P x) ()
      simpa using h
  | succ count ih =>
      have hrest : x + 1 + count = x + (count + 1 : Nat) := by omega
      refine (hstep x " " 0 (by omega) hblank).bind fun _ => ?_
      rw [← hrest]
      exact ih (x + 1) (by omega)

theorem draw (x : Int) {glyph : String} (hglyph : G glyph) (width : Int)
    (hx : x + max width 1 ≤ limit) :
    Triple (P x) (Canvas.draw x y glyph width) fun _ => P (x + max width 1) := by
  have hcells : x + 1 + (((max width 1).toNat - 1 : Nat) : Int) = x + max width 1 := by omega
  refine (hstep x glyph _ (by omega) hglyph).bind fun _ => ?_
  rw [← hcells]
  exact cover hblank hstep _ _ (by omega)

theorem writeChars [Text.Measure] {chars : List Char} (hchars : ∀ d ∈ chars, G d.toString) (x : Int)
    (hx : x + Text.width chars ≤ limit) : Triple (P x) (Canvas.writeChars y chars x)
      fun stop c => stop = x + Text.width chars ∧ P stop c := by
  induction chars generalizing x with
  | nil =>
      intro c stop c' hc hrun
      rw [Canvas.writeChars, EStateM.run_pure] at hrun
      obtain ⟨rfl, rfl⟩ := EStateM.Result.ok.inj hrun
      exact ⟨by simp, hc⟩
  | cons d chars ih =>
      obtain ⟨hd, hchars⟩ := List.forall_mem_cons.mp hchars
      have hwidth := Text.one_le_charWidth d
      have hmax : max (Text.charWidth d : Int) 1 = Text.charWidth d := by omega
      rw [Text.width_cons] at hx ⊢
      have hdraw := draw hblank hstep x hd (Text.charWidth d) (by omega)
      rw [hmax] at hdraw
      refine hdraw.bind fun _ => (ih hchars (x + Text.charWidth d) (by omega)).mono ?_
      rintro stop c ⟨hstop, hc⟩
      exact ⟨by omega, hc⟩

theorem write [Text.Measure] {text : String} (htext : ∀ d ∈ text.toList, G d.toString) (x : Int)
    (hx : x + Text.displayWidth text ≤ limit) : Triple (P x) (Canvas.write x y text)
      fun stop c => stop = x + Text.displayWidth text ∧ P stop c :=
  writeChars hblank hstep htext x hx

end row

end Triple

end Canvas

end Flowchart
