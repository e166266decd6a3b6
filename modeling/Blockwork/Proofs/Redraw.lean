import Blockwork.Proofs.Tokens
import Blockwork.Proofs.Turns
import Blockwork.Proofs.WriteFrame

/-!
Nothing that can be seen changes unannounced.

What can be seen of a target is where a visible one stands, where it points, and what it wears.  A frame
begins by forgetting the redraw requests, and within it they are only made.  A body that moves or dresses
a target that can be seen, or that shows or hides one, asks for a redraw (`Body.run_announces`); nothing
else touches what can be seen.  So whatever looks different after a frame, a redraw has been asked for,
also if the frame failed.
-/

namespace Blockwork

/-! ### What can be seen -/

/-- How a visible target is drawn. -/
structure Target.Look where
  x : Float
  y : Float
  direction : Float
  costume : Nat

/-- How a target is drawn, unless it is hidden. -/
def Target.look? (t : Target) : Option Target.Look :=
  if t.visible then some ⟨t.x, t.y, t.direction, t.costume⟩ else none

/-- How a target of a scene is drawn. -/
def Scene.look? (s : Scene) (i : Nat) : Option Target.Look := (s.target? i).bind Target.look?

/-- Unless a redraw is asked for afterwards, none was before, and everything is drawn as it was. -/
structure World.Announces (w w' : World) : Prop where
  redraw : w'.services.redraw = false → w.services.redraw = false
  look : w'.services.redraw = false → ∀ i, w'.scene.look? i = w.scene.look? i

namespace World

variable {w w' w'' : World}

theorem announces_of_eq (hscene : w'.scene = w.scene)
    (hredraw : w'.services.redraw = w.services.redraw) : w.Announces w' :=
  ⟨fun h => hredraw.symm.trans h, fun _ i => congrArg (Scene.look? · i) hscene⟩

theorem Announces.refl (w : World) : w.Announces w := announces_of_eq rfl rfl

theorem Announces.trans (h : w.Announces w') (h' : w'.Announces w'') : w.Announces w'' :=
  ⟨fun hr => h.redraw (h'.redraw hr),
    fun hr i => (h'.look hr i).trans (h.look (h'.redraw hr) i)⟩

theorem announces_of_redraw (h : w'.services.redraw = true) : w.Announces w' :=
  ⟨fun hr => absurd (h.symm.trans hr) Bool.noConfusion,
    fun hr => absurd (h.symm.trans hr) Bool.noConfusion⟩

end World

theorem Scene.look?_modifyTarget {s : Scene} {j : Nat} {f : Target → Target}
    (hf : ∀ t, s.target? j = some t → (f t).look? = t.look?) (i : Nat) :
    (s.modifyTarget j f).look? i = s.look? i := by
  by_cases hij : i = j
  · subst hij
    rw [look?, target?_modifyTarget_self, look?]
    cases ht : s.target? i with
    | none => rfl
    | some t => exact hf t ht
  · rw [look?, target?_modifyTarget_of_ne hij, look?]

/-! ### Bodies -/

namespace Target

theorem visible_motion (m : Motion) (args : Args) (t : Target) :
    (m.apply args t).visible = t.visible := by
  cases m <;> rfl

theorem visible_nextCostume (t : Target) : t.nextCostume.visible = t.visible := by
  obtain ⟨n, h⟩ := t.nextCostume_eq
  rw [h]

theorem visible_switchCostume (v : Value) (t : Target) :
    (t.switchCostume v).visible = t.visible := by
  obtain ⟨n, h⟩ := t.switchCostume_eq v
  rw [h]

theorem look?_of_hidden {t : Target} (h : t.visible = false) : t.look? = none := by
  rw [look?, h]
  rfl

end Target

namespace Context

/-- A target that cannot be seen before and after a change looks the same; for one that can be seen
afterwards, a redraw is asked for. -/
theorem announces_redrawIfVisible (cx : Context) {f : Target → Target}
    (hf : ∀ t, (f t).visible = t.visible) :
    cx.world.Announces (cx.modifySelf f).redrawIfVisible.world := by
  rw [redrawIfVisible]
  split
  · exact World.announces_of_redraw rfl
  · rename_i hhidden
    refine ⟨id, fun _ => Scene.look?_modifyTarget fun t ht => ?_⟩
    have hself : (cx.modifySelf f).self = f t := by
      have hmodify : (cx.modifySelf f).scene.target? cx.target = some (f t) := by
        refine (Scene.target?_modifyTarget_self ..).trans ?_
        exact congrArg (Option.map f) ht
      exact congrArg (Option.getD · default) hmodify
    rw [hself, Bool.not_eq_true] at hhidden
    rw [Target.look?_of_hidden hhidden, Target.look?_of_hidden ((hf t).symm.trans hhidden)]

theorem announces_setVariable {cx cx' : Context} {name : String} {v : Value}
    (h : cx.setVariable name v = .ok cx') : cx.world.Announces cx'.world := by
  rw [setVariable] at h
  split at h
  · rename_i scene hs
    cases h
    obtain ⟨j, -, rfl⟩ := Option.map_eq_some_iff.mp hs
    exact ⟨id, fun _ => Scene.look?_modifyTarget fun _ _ => rfl⟩
  · cases h

theorem announces_setList {cx cx' : Context} {name : String} {items : List Value}
    (h : cx.setList name items = .ok cx') : cx.world.Announces cx'.world := by
  rw [setList] at h
  split at h
  · rename_i scene hs
    cases h
    obtain ⟨j, -, rfl⟩ := Option.map_eq_some_iff.mp hs
    exact ⟨id, fun _ => Scene.look?_modifyTarget fun _ _ => rfl⟩
  · cases h

end Context

namespace Body

theorem announces_command {cx : Context} {x : Except ExecError Context}
    (hx : ∀ cx', x = .ok cx' → cx.world.Announces cx'.world) :
    cx.world.Announces (command cx x).2.world := by
  cases x with
  | error e => exact .refl _
  | ok cx' => exact hx cx' rfl

theorem announces_report (cx : Context) (x : Except ExecError Value) :
    cx.world.Announces (report cx x).2.world := by
  cases x <;> exact .refl _

theorem run_announces (body : Body) (opcode : String) (args : Args) (cx : Context) :
    cx.world.Announces (body.run opcode args cx).2.world := by
  have hsame : ∀ {w' : World}, w'.scene = cx.world.scene →
      w'.services.redraw = cx.world.services.redraw → cx.world.Announces w' :=
    World.announces_of_eq
  cases body with
  | extended e =>
    cases e with
    | redraw => exact World.announces_of_redraw rfl
    | _ => exact hsame rfl rfl
  | stop | costumeInfo =>
    simp only [run]
    repeat' split
    all_goals exact hsame rfl rfl
  | getVariable | itemOfList | lengthOfList => exact announces_report cx _
  | setVariable => exact announces_command fun cx' h => Context.announces_setVariable h
  | clearList => exact announces_command fun cx' h => Context.announces_setList h
  | changeVariable =>
    refine announces_command fun cx' h => ?_
    cases hv : cx.getVariable (args.text "VARIABLE") with
    | error e => rw [hv] at h; cases h
    | ok current => rw [hv] at h; exact Context.announces_setVariable h
  | addToList =>
    refine announces_command fun cx' h => ?_
    cases hv : cx.getList (args.text "LIST") with
    | error e => rw [hv] at h; cases h
    | ok items => rw [hv] at h; exact Context.announces_setList h
  | motion m => exact cx.announces_redrawIfVisible (Target.visible_motion m args)
  | switchCostume => exact cx.announces_redrawIfVisible (Target.visible_switchCostume _)
  | nextCostume => exact cx.announces_redrawIfVisible Target.visible_nextCostume
  | reveal | hide => exact World.announces_of_redraw rfl
  | wait | broadcast | broadcastAndWait | resetTimer => exact hsame rfl rfl
  | idle | binary | unary | timerAbove | reading | timer | parameter => exact .refl _

end Body

/-! ### Slices -/

theorem Routine.resume_announces (r : Routine) (v : Option Value) (cx : Context) :
    cx.world.Announces (r.resume v cx).2.world := by
  rcases r.resume_world v cx with hworld | ⟨b, body, args, hrun⟩
  · rw [hworld]
    exact .refl _
  · rw [hrun]
    exact body.run_announces b.opcode args cx

namespace Machine

theorem step_announces (m : Machine) : m.cx.world.Announces m.step.machine.cx.world := by
  cases hframes : m.stack.frames with
  | nil =>
    rw [step, hframes]
    exact .refl _
  | cons top rest =>
    rw [step_cx hframes]
    exact top.resume_announces m.stack.resumed m.cx

theorem drive_announces {fuel : Nat} {m m' : Machine} {result : Except ExecError Slice}
    (h : drive fuel m = some (result, m')) : m.cx.world.Announces m'.cx.world := by
  have hnext : ∀ x x' : Machine, m.cx.world.Announces x.cx.world → x.step = .next x' →
      m.cx.world.Announces x'.cx.world := by
    intro x x' hx hstep
    have hx' := x.step_announces
    rw [hstep] at hx'
    exact hx.trans hx'
  obtain ⟨last, hlast, hhalt⟩ := drive_induction hnext (.refl _) h
  have hm' := last.step_announces
  rw [hhalt] at hm'
  exact hlast.trans hm'

end Machine

theorem Thread.step_announces {t t' : Thread} {fuel : Nat} {w w' : World}
    {outcome : Except ExecError Status} (h : t.step fuel w = some (outcome, t', w')) :
    w.Announces w' := by
  rw [Thread.step] at h
  split at h
  · cases h
    exact .refl _
  · split at h
    · cases h
      exact .refl _
    · obtain ⟨⟨result, m⟩, hdrive, heq⟩ := Option.map_eq_some_iff.mp h
      cases heq
      exact Machine.drive_announces hdrive

/-! ### Frames -/

namespace Interpreter

/-- Effects start and stop threads; nothing that is drawn depends on them. -/
theorem applyEffect_announces (s : Interpreter) (e : Effect) :
    s.world.Announces (s.applyEffect e).world := by
  cases e with
  | broadcast t completion =>
    have htrigger : s.world.Announces (s.trigger t).2.world := by
      rw [trigger_world]
      exact .refl _
    simp only [applyEffect]
    split
    · exact htrigger
    · split
      · exact htrigger.trans (World.announces_of_eq rfl rfl)
      · exact htrigger
  | stopAll => exact World.announces_of_eq rfl rfl
  | stopOthers target except => exact .refl _

theorem applyEffects_announces (s : Interpreter) : s.world.Announces s.applyEffects.world :=
  applyEffects_induction (P := fun s₁ => s.world.Announces s₁.world) (World.announces_of_eq rfl rfl)
    fun s₁ e hs => hs.trans (s₁.applyEffect_announces e)

theorem Takes.announces {fuel i : Nat} {s : Interpreter} {u : Turn} (h : s.Takes fuel i u) :
    s.world.Announces u.after.world := by
  cases h with
  | rests ht hrest => exact .refl _
  | @runs t t' w outcome _ _ hstep =>
    exact (Thread.step_announces hstep).trans
      (applyEffects_announces { s with threads := s.threads.set i t', world := w })

theorem Turns.announces {fuel i : Nat} {s s' : Interpreter} {log : List Turn}
    (h : s.Turns fuel i log s') : s.world.Announces s'.world := by
  induction h with
  | nil i s => exact .refl _
  | cons htakes _ _ ih => exact htakes.announces.trans ih

theorem round_announces {fuel active finished : Nat} {failure : Option ExecError}
    {s s' : Interpreter} (h : s.round fuel = some (active, finished, failure, s')) :
    s.world.Announces s'.world := by
  obtain ⟨s₁, hturns, -, rfl⟩ := round_cases h
  obtain ⟨log, hlog, -⟩ := turns_log hturns
  have hcompact : s.world.Announces s₁.compact.2.world := hlog.announces
  split
  · exact hcompact
  · rw [settleWatchers_eq]
    exact hcompact.trans (World.announces_of_eq rfl rfl)

theorem BeginsRound.announces {fuel : Nat} {budget : Budget} {report : Report} {s s₁ : Interpreter}
    (h : s.BeginsRound fuel budget report s₁) : s.beginFrame.world.Announces s₁.world := by
  induction h with
  | first => exact .refl _
  | next _ hround _ ih => exact ih.trans (round_announces hround)

end Interpreter

/-- If a target is drawn differently after a frame, a redraw has been asked for.  This holds for frames
of any number of rounds, whether they fail or not. -/
theorem visible_change_requests_redraw {fuel i : Nat} {budget : Interpreter.Budget}
    {r : Except ExecError Interpreter.Report} {s s' : Interpreter}
    (h : s.stepThreads fuel budget = some (r, s'))
    (hlook : s'.world.scene.look? i ≠ s.world.scene.look? i) :
    s'.world.services.redraw = true := by
  obtain ⟨report, s₁, active, finished, failure, timedOut, hbegins, hround, -⟩ :=
    Interpreter.stepThreads_round h
  -- beginning the frame leaves the scene alone
  have hannounces : s.beginFrame.world.Announces s'.world :=
    hbegins.announces.trans (Interpreter.round_announces hround)
  cases hredraw : s'.world.services.redraw with
  | true => rfl
  | false => exact absurd (hannounces.look hredraw i) hlook

/-- Puts on the next costume, then fails for want of a variable. -/
def Script.dressing : Script :=
  ⟨.mk (Library.command "looks_nextcostume" [] .nextCostume) "dress" 0 [],
    [.mk (Library.command "data_setvariableto" [("VARIABLE", .field), ("VALUE", .any)] .setVariable)
      "lost" 1 [("VARIABLE", .literal (.str "lost")), ("VALUE", .literal (.bool true))]]⟩

/-- A sprite with two costumes that is about to change them, under the policy that ends the frame. -/
def Interpreter.dressing : Interpreter :=
  { world := { scene := { targets := [{ Target.sprite "Cat" with costumes := ["day", "night"] }] } }
    threads := [.launch 0 .dressing 0 none]
    nextId := 1
    settings := { errorPolicy := .abortFrame } }

/-- The frame fails after the sprite has changed, and a redraw has been asked for. -/
theorem visible_change_requests_redraw_dressing :
    ∃ s', Interpreter.dressing.stepThreads 12 .unlimited =
        some (.error (.unknownVariable "lost"), s') ∧
      Interpreter.dressing.world.services.redraw = false ∧
      s'.world.scene.look? 0 ≠ Interpreter.dressing.world.scene.look? 0 ∧
      s'.world.services.redraw = true := by
  obtain ⟨s', hframe, hcostume⟩ : ∃ s', Interpreter.dressing.stepThreads 12 .unlimited =
      some (.error (.unknownVariable "lost"), s') ∧
        (s'.world.scene.look? 0).map Target.Look.costume = some 1 := ⟨_, rfl, rfl⟩
  have hlook : s'.world.scene.look? 0 ≠ Interpreter.dressing.world.scene.look? 0 := by
    intro h
    rw [h] at hcostume
    cases hcostume
  exact ⟨s', hframe, rfl, hlook, visible_change_requests_redraw hframe hlook⟩

end Blockwork
