import Flowchart.Proofs.Canvas.Overflow
import Flowchart.Proofs.Canvas.Room

/-! # Actions confined to an area

On the canvases of a size, an action either fails whatever they show, or it always ends well and
applies a function to each cell of an area (`Confined`).  Actions that are put together stay so
(`Confined.composes`), and a box with its label is confined to the box (`confined_drawLabelled`).

Two actions that are confined to areas without a common cell can be carried out in either order
(`Confined.run_swap`), and so can any number of them (`run_forM_of_perm`). -/

namespace Flowchart.Canvas

variable {c c' : Canvas} {w h x y : Int} {area area' : Place → Prop} {act act' : Action Unit}

/-- An action ends well on every canvas of a size; it applies a function to each cell of an area,
and leaves all other cells alone. -/
structure Applies (w h : Int) (area : Place → Prop) (f : Place → Cell → Cell)
    (act : Action Unit) : Prop where
  outside : ∀ p, ¬ area p → f p = id
  run : ∀ c, Sized w h c → ∃ c', act.run c = .ok () c' ∧ c'.Sized w h ∧
    ∀ x y, c'.cell? x y = (c.cell? x y).map (f (x, y))

/-- An action fails on every canvas of a size. -/
def Fails (w h : Int) (act : Action Unit) : Prop :=
  ∀ c, Sized w h c → ∃ o c', act.run c = .error o c'

/-- An action fails on every canvas of a size, or applies a function to the cells of an area. -/
def Confined (w h : Int) (area : Place → Prop) (act : Action Unit) : Prop :=
  Fails w h act ∨ ∃ f, Applies w h area f act

/-! ### How confined actions are put together -/

theorem Applies.pure (w h : Int) (area : Place → Prop) :
    Applies w h area (fun _ => id) (pure ()) where
  outside _ _ := rfl
  run c hc := ⟨c, EStateM.run_pure () c, hc, fun _ _ => (congrFun Option.map_id _).symm⟩

theorem Applies.bind {f f' : Place → Cell → Cell} {next : Unit → Action Unit}
    (hact : Applies w h area f act) (hnext : Applies w h area f' (next ())) :
    Applies w h area (fun p => f' p ∘ f p) (act >>= next) where
  outside p hout := by rw [hact.outside p hout, hnext.outside p hout, Function.id_comp]
  run c hc := by
    obtain ⟨c₁, hrun, hc₁, hcell⟩ := hact.run c hc
    obtain ⟨c₂, hrun', hc₂, hcell'⟩ := hnext.run c₁ hc₁
    refine ⟨c₂, run_bind_eq_ok hrun hrun', hc₂, fun x y => ?_⟩
    rw [hcell', hcell, Option.map_map]

theorem Fails.bind (hact : Fails w h act) (next : Unit → Action Unit) :
    Fails w h (act >>= next) := by
  intro c hc
  obtain ⟨o, c', hrun⟩ := hact c hc
  refine ⟨o, c', ?_⟩
  rw [EStateM.run_bind, hrun]

theorem Applies.bind_fails {f : Place → Cell → Cell} {next : Unit → Action Unit}
    (hact : Applies w h area f act) (hnext : Fails w h (next ())) : Fails w h (act >>= next) := by
  intro c hc
  obtain ⟨c₁, hrun, hc₁, -⟩ := hact.run c hc
  obtain ⟨o, c₂, hrun'⟩ := hnext c₁ hc₁
  refine ⟨o, c₂, ?_⟩
  rw [EStateM.run_bind, hrun]
  exact hrun'

namespace Confined

theorem pure (w h : Int) (area : Place → Prop) : Confined w h area (pure ()) :=
  .inr ⟨_, .pure w h area⟩

theorem bind {next : Unit → Action Unit} (hact : Confined w h area act)
    (hnext : ∀ u, Confined w h area (next u)) : Confined w h area (act >>= next) := by
  rcases hact with hact | ⟨f, hact⟩
  · exact .inl (hact.bind next)
  · rcases hnext () with hnext | ⟨f', hnext⟩
    · exact .inl (hact.bind_fails hnext)
    · exact .inr ⟨_, hact.bind hnext⟩

theorem composes (w h : Int) (area : Place → Prop) : Composes (Confined w h area) :=
  ⟨pure w h area, bind⟩

theorem mono (hact : Confined w h area act) (harea : ∀ p, area p → area' p) :
    Confined w h area' act :=
  hact.imp_right fun ⟨f, hf⟩ => ⟨f, fun p hout => hf.outside p (mt (harea p) hout), hf.run⟩

theorem of_update {f : Cell → Cell} (harea : area (x, y))
    (hact : ∀ c, Sized w h c → act.run c = .ok () (c.update x y f)) : Confined w h area act := by
  refine .inr ⟨fun p => if (x, y) = p then f else id, ⟨fun p hout => if_neg ?_, fun c hc => ?_⟩⟩
  · rintro rfl
    exact hout harea
  · refine ⟨_, hact c hc, hc.update x y f, fun x' y' => ?_⟩
    rw [cell?_update]
    by_cases hplace : x = x' ∧ y = y'
    · rw [if_pos hplace, if_pos (Prod.ext hplace.1 hplace.2)]
    · rw [if_neg hplace, if_neg fun heq => hplace (Prod.mk.inj heq), Option.map_id]
      rfl

theorem put (harea : area (x, y)) (glyph : String) (width : Nat) :
    Confined w h area (put x y glyph width) := by
  by_cases hin : 0 ≤ y ∧ y < h ∧ 0 ≤ x ∧ x < w
  · refine of_update (f := Cell.holding glyph width) harea fun c hc => ?_
    rw [run_put, if_pos (hc.inside_iff.mpr hin)]
  · refine .inl fun c hc => ⟨⟨x, y, c.width, c.height⟩, c, ?_⟩
    rw [run_put, if_neg (mt hc.inside_iff.mp hin)]

theorem mark (harea : area (x, y)) (tag : String) (side : Side) :
    Confined w h area (modify fun c => c.mark x y tag side) := by
  by_cases htag : tag = ""
  · have hsame : (fun c : Canvas => c.mark x y tag side) = id := funext fun c => if_pos htag
    rw [hsame]
    exact pure w h area
  · refine of_update (f := Cell.tagging tag side) harea fun c _ => ?_
    rw [EStateM.run_modify, mark_eq_update c x y htag]

theorem drawGlyph (harea : area (x, y)) (d : Char) : Confined w h area (drawGlyph x y d) :=
  (put harea d.toString 1).bind fun _ => pure w h area

theorem putFaces {shown : List (String × Nat)}
    (harea : ∀ i : Nat, i < shown.length → area (x + i, y)) :
    Confined w h area (putFaces y shown x) := by
  induction shown generalizing x with
  | nil => exact pure w h area
  | cons face shown ih =>
      have hfirst := harea 0 (Nat.zero_lt_succ _)
      rw [Int.natCast_zero, Int.add_zero] at hfirst
      refine (put hfirst face.1 face.2).bind fun _ => ih fun i hi => ?_
      have hnext : x + 1 + (i : Int) = x + ((i + 1 : Nat) : Int) := by omega
      rw [hnext]
      exact harea (i + 1) (Nat.succ_lt_succ hi)

end Confined

theorem drawLabelled_eq [Text.Measure] (g : BoxGlyphs) (b : Box) (text tag : String) :
    drawLabelled g b text tag = (do
      drawBox g b
      let label := Text.fitText text b.innerWidth
      putFaces b.middle (faces label.toList) (b.labelColumn label)
      if label ≠ "" then do
        let last := b.labelColumn label + Text.displayWidth label - 1
        modify fun c => c.mark (b.labelColumn label) b.middle tag .before
        modify fun c => c.mark last b.middle closingTag .after) := by
  unfold drawLabelled write
  simp only [writeChars_eq_putFaces, bind_assoc, pure_bind]
  rfl

theorem confined_drawLabelled [Text.Measure] (w h : Int) (g : BoxGlyphs) {b : Box} (hb : b.Roomy)
    (text tag : String) :
    Confined w h (fun p => b.contains p = true) (drawLabelled g b text tag) := by
  obtain ⟨hfirst, hlast, habove, hbelow⟩ := hb.label_inside text
  rw [drawLabelled_eq]
  refine ((Confined.composes w h _).drawBox hb fun d _ x y hin => .drawGlyph hin d).bind fun _ => ?_
  refine (Confined.putFaces fun i hi => ?_).bind fun _ => ?_
  · rw [length_faces] at hi
    unfold Text.displayWidth at hlast
    rw [Box.contains_iff]
    omega
  · split
    · next hlabel =>
        have hwidth := Text.one_le_displayWidth hlabel
        refine (Confined.mark ?_ tag .before).bind fun _ => .mark ?_ closingTag .after
        · rw [Box.contains_iff]
          omega
        · rw [Box.contains_iff]
          omega
    · exact .pure w h _

/-! ### Actions in any order -/

theorem Confined.sized (hact : Confined w h area act) (hc : c.Sized w h)
    (hrun : act.run c = .ok () c') : c'.Sized w h := by
  rcases hact with hact | ⟨f, hact⟩
  · obtain ⟨o, c₁, herror⟩ := hact c hc
    cases hrun.symm.trans herror
  · obtain ⟨c₁, hrun₁, hc₁, -⟩ := hact.run c hc
    obtain ⟨-, rfl⟩ := EStateM.Result.ok.inj (hrun.symm.trans hrun₁)
    exact hc₁

/-- Actions confined to areas without a common cell may change places. -/
theorem Confined.run_swap (hact : Confined w h area act) (hact' : Confined w h area' act')
    (hapart : ∀ p, ¬ (area p ∧ area' p)) (hc : c.Sized w h)
    (hrun : (do act; act').run c = .ok () c') : (do act'; act).run c = .ok () c' := by
  have hfails : ¬ Fails w h (do act; act') := by
    intro hfails
    obtain ⟨o, c₁, herror⟩ := hfails c hc
    cases hrun.symm.trans herror
  rcases hact with hact | ⟨f, hact⟩
  · exact absurd (hact.bind _) hfails
  rcases hact' with hact' | ⟨f', hact'⟩
  · exact absurd (hact.bind_fails hact') hfails
  obtain ⟨c₁, hrun₁, hc₁, hcell₁⟩ := hact.run c hc
  obtain ⟨c₂, hrun₂, hc₂, hcell₂⟩ := hact'.run c₁ hc₁
  obtain ⟨d₁, hrun₁', hd₁, hcell₁'⟩ := hact'.run c hc
  obtain ⟨d₂, hrun₂', hd₂, hcell₂'⟩ := hact.run d₁ hd₁
  obtain ⟨-, rfl⟩ := EStateM.Result.ok.inj (hrun.symm.trans (run_bind_eq_ok hrun₁ hrun₂))
  refine (run_bind_eq_ok hrun₁' hrun₂').trans (congrArg _ ?_)
  refine ext_cell? (hd₂.width.trans hc₂.width.symm) (hd₂.height.trans hc₂.height.symm) fun x y => ?_
  -- One of the two functions does nothing at a place.
  rw [hcell₂', hcell₁', hcell₂, hcell₁, Option.map_map, Option.map_map]
  by_cases hin : area (x, y)
  · rw [hact'.outside _ fun hin' => hapart _ ⟨hin, hin'⟩]
    rfl
  · rw [hact.outside _ hin]
    rfl

/-- Actions confined to areas of which no two have a common cell are carried out in any order. -/
theorem run_forM_of_perm {ι : Type} {f : ι → Action Unit} {area : ι → Place → Prop}
    {l l' : List ι} (hperm : l.Perm l') (hf : ∀ i ∈ l, Confined w h (area i) (f i))
    (hapart : l.Pairwise fun i j => ∀ p, ¬ (area i p ∧ area j p)) (hc : c.Sized w h)
    (hrun : (l.forM f).run c = .ok () c') : (l'.forM f).run c = .ok () c' := by
  induction hperm generalizing c with
  | nil => exact hrun
  | cons i _ ih =>
      obtain ⟨hi, hl⟩ := List.forall_mem_cons.mp hf
      obtain ⟨_, c₁, hfirst, hrest⟩ := exists_of_run_bind hrun
      exact run_bind_eq_ok hfirst
        (ih hl (List.pairwise_cons.mp hapart).2 (hi.sized hc hfirst) hrest)
  | swap i j l =>
      obtain ⟨hj, hf⟩ := List.forall_mem_cons.mp hf
      obtain ⟨hi, -⟩ := List.forall_mem_cons.mp hf
      obtain ⟨_, c₁, hfirst, hrun⟩ := exists_of_run_bind hrun
      obtain ⟨_, c₂, hsecond, hrest⟩ := exists_of_run_bind hrun
      have hpair := hj.run_swap hi ((List.pairwise_cons.mp hapart).1 i List.mem_cons_self) hc
        (run_bind_eq_ok hfirst hsecond)
      obtain ⟨_, d₁, hfirst', hsecond'⟩ := exists_of_run_bind hpair
      exact run_bind_eq_ok hfirst' (run_bind_eq_ok hsecond' hrest)
  | trans hperm _ ih ih' =>
      have hsymm : ∀ {i j}, (∀ p, ¬ (area i p ∧ area j p)) → ∀ p, ¬ (area j p ∧ area i p) :=
        fun hij p hin => hij p hin.symm
      refine ih' (fun i hi => hf i (hperm.mem_iff.mpr hi)) ?_ hc (ih hf hapart hc hrun)
      exact (hperm.pairwise_iff hsymm).mp hapart

end Flowchart.Canvas
