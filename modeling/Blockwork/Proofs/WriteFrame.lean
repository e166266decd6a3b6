import Blockwork.Proofs.Outline

/-!
What a slice may write.

A body moves and dresses the target that it runs on, and gives values to the variables and lists that
this target or the stage owns.  It reaches no other target, and nothing else of the stage: every body
spares the rest (`Body.run_spares`).  No step of the machine does more than a body, and the target of a
computation never changes, so a whole slice writes within the same bounds.
-/

namespace Blockwork

/-! ### What is written -/

/-- A target without its variables and lists. -/
def Target.bare (t : Target) : Target := { t with vars := [], lists := [] }

namespace Scene

/-- Of the targets other than the given one, the stage has at most other variables and lists, and the
rest are as they were. -/
structure Spares (i : Nat) (s s' : Scene) : Prop where
  others : ∀ j, j ≠ i → s.stage ≠ some j → s'.target? j = s.target? j
  stage : ∀ j, j ≠ i → (s'.target? j).map Target.bare = (s.target? j).map Target.bare

/-- What running on a target can make of a scene.  Moreover, there are the same targets, each with the
same name, costumes and scripts and with variables and lists of the same names in the same order, the
same stage, the same registry and the same custom blocks. -/
structure WritesOn (i : Nat) (s s' : Scene) : Prop extends Spares i s s' where
  outline : s'.outline = s.outline

variable {i j : Nat} {s s' s'' : Scene}

theorem Spares.refl (i : Nat) (s : Scene) : s.Spares i s :=
  ⟨fun _ _ _ => rfl, fun _ _ => rfl⟩

theorem WritesOn.refl (i : Nat) (s : Scene) : s.WritesOn i s := ⟨.refl i s, rfl⟩

theorem WritesOn.trans (h : s.WritesOn i s') (h' : s'.WritesOn i s'') : s.WritesOn i s'' := by
  have hstage : s'.stage = s.stage := congrArg Outline.stage h.outline
  refine ⟨⟨fun j hj hs => ?_, fun j hj => ?_⟩, h'.outline.trans h.outline⟩
  · have hs' : s'.stage ≠ some j := by rwa [hstage]
    exact (h'.others j hj hs').trans (h.others j hj hs)
  · exact (h'.stage j hj).trans (h.stage j hj)

theorem target?_modifyTarget_self (i : Nat) (f : Target → Target) (s : Scene) :
    (s.modifyTarget i f).target? i = (s.target? i).map f := by
  simp [target?, modifyTarget]

theorem target?_modifyTarget_of_ne (h : j ≠ i) (f : Target → Target) (s : Scene) :
    (s.modifyTarget i f).target? j = s.target? j := by
  simp [target?, modifyTarget, Ne.symm h]

/-- A change of the target itself spares the others. -/
theorem spares_modifyTarget (i : Nat) (f : Target → Target) (s : Scene) :
    s.Spares i (s.modifyTarget i f) := by
  refine ⟨fun j hj _ => target?_modifyTarget_of_ne hj f s, fun j hj => ?_⟩
  rw [target?_modifyTarget_of_ne hj]

/-- So does a change of a variable or a list of the stage. -/
theorem spares_modifyStage (hstage : s.stage = some j) {f : Target → Target}
    (hf : ∀ t, (f t).bare = t.bare) : s.Spares i (s.modifyTarget j f) := by
  refine ⟨fun k _ hk => ?_, fun k _ => ?_⟩
  · refine target?_modifyTarget_of_ne ?_ f s
    rintro rfl
    exact hk hstage
  · by_cases hkj : k = j
    · subst hkj
      rw [target?_modifyTarget_self, Option.map_map]
      exact congrArg (Option.map · (s.target? k)) (funext hf)
    · rw [target?_modifyTarget_of_ne hkj]

/-- A name is owned by the target itself or by the stage. -/
theorem eq_or_stage_of_owner? {has : Target → Bool} (h : s.owner? i has = some j) :
    j = i ∨ s.stage = some j := by
  rw [owner?] at h
  split at h
  · cases h
    exact .inl rfl
  · exact .inr (Option.filter_eq_some_iff.mp h).1

/-- Writing a variable or a list of its owner spares the rest. -/
theorem spares_modifyOwner {has : Target → Bool} (h : s.owner? i has = some j)
    {f : Target → Target} (hf : ∀ t, (f t).bare = t.bare) : s.Spares i (s.modifyTarget j f) := by
  rcases eq_or_stage_of_owner? h with rfl | hstage
  · exact spares_modifyTarget j f s
  · exact spares_modifyStage hstage hf

theorem spares_setVariable? {name : String} {v : Value} (h : s.setVariable? i name v = some s') :
    s.Spares i s' := by
  obtain ⟨j, howner, rfl⟩ := Option.map_eq_some_iff.mp h
  exact spares_modifyOwner howner fun _ => rfl

theorem spares_setList? {name : String} {items : List Value}
    (h : s.setList? i name items = some s') : s.Spares i s' := by
  obtain ⟨j, howner, rfl⟩ := Option.map_eq_some_iff.mp h
  exact spares_modifyOwner howner fun _ => rfl

end Scene

/-! ### Bodies -/

namespace Context

/-- What a context may have become while something ran on its target. -/
def Spares (cx cx' : Context) : Prop := cx.scene.Spares cx.target cx'.scene

theorem spares_modifySelf (f : Target → Target) (cx : Context) : cx.Spares (cx.modifySelf f) :=
  Scene.spares_modifyTarget cx.target f cx.scene

theorem Spares.redrawIfVisible {cx cx' : Context} (h : cx.Spares cx') :
    cx.Spares cx'.redrawIfVisible := by
  rw [Spares, redrawIfVisible_scene]
  exact h

theorem spares_setVariable {cx cx' : Context} {name : String} {v : Value}
    (h : cx.setVariable name v = .ok cx') : cx.Spares cx' := by
  rw [setVariable] at h
  split at h
  · rename_i hs
    cases h
    exact Scene.spares_setVariable? hs
  · cases h

theorem spares_setList {cx cx' : Context} {name : String} {items : List Value}
    (h : cx.setList name items = .ok cx') : cx.Spares cx' := by
  rw [setList] at h
  split at h
  · rename_i hs
    cases h
    exact Scene.spares_setList? hs
  · cases h

end Context

namespace Body

theorem spares_command {cx : Context} {x : Except ExecError Context}
    (hx : ∀ cx', x = .ok cx' → cx.Spares cx') : cx.Spares (command cx x).2 := by
  cases x with
  | error e => exact .refl _ _
  | ok cx' => exact hx cx' rfl

theorem spares_report (cx : Context) (x : Except ExecError Value) : cx.Spares (report cx x).2 := by
  cases x <;> exact .refl _ _

theorem run_spares (body : Body) (opcode : String) (args : Args) (cx : Context) :
    cx.Spares (body.run opcode args cx).2 := by
  cases body with
  | extended e => cases e <;> exact .refl _ _
  | stop =>
    simp only [run]
    repeat' split
    all_goals exact .refl _ _
  | costumeInfo =>
    simp only [run]
    repeat' split
    all_goals exact .refl _ _
  | getVariable | itemOfList | lengthOfList => exact spares_report cx _
  | setVariable => exact spares_command fun cx' h => Context.spares_setVariable h
  | clearList => exact spares_command fun cx' h => Context.spares_setList h
  | changeVariable =>
    refine spares_command fun cx' h => ?_
    cases hv : cx.getVariable (args.text "VARIABLE") with
    | error e => rw [hv] at h; cases h
    | ok current => rw [hv] at h; exact Context.spares_setVariable h
  | addToList =>
    refine spares_command fun cx' h => ?_
    cases hv : cx.getList (args.text "LIST") with
    | error e => rw [hv] at h; cases h
    | ok items => rw [hv] at h; exact Context.spares_setList h
  | motion m => exact (cx.spares_modifySelf (m.apply args)).redrawIfVisible
  | switchCostume =>
    exact (cx.spares_modifySelf (Target.switchCostume (args.value "COSTUME"))).redrawIfVisible
  | nextCostume => exact (cx.spares_modifySelf Target.nextCostume).redrawIfVisible
  | reveal => exact cx.spares_modifySelf fun t => { t with visible := true }
  | hide => exact cx.spares_modifySelf fun t => { t with visible := false }
  | wait | broadcast | broadcastAndWait | resetTimer => exact .refl _ _
  | idle | binary | unary | timerAbove | reading | timer | parameter => exact .refl _ _

end Body

/-! ### Steps -/

theorem Routine.resume_writes (r : Routine) (v : Option Value) (cx : Context) :
    cx.scene.WritesOn cx.target (r.resume v cx).2.scene := by
  refine ⟨?_, r.resume_outline v cx⟩
  rcases r.resume_world v cx with hworld | ⟨b, body, args, hrun⟩
  · have hscene : (r.resume v cx).2.scene = cx.scene := congrArg World.scene hworld
    rw [hscene]
    exact .refl cx.target cx.scene
  · rw [hrun]
    exact body.run_spares b.opcode args cx

namespace Machine

/-- What the machine may have become by writing on the target that it runs on. -/
structure Writes (m m' : Machine) : Prop where
  target : m'.cx.target = m.cx.target
  scene : m.cx.scene.WritesOn m.cx.target m'.cx.scene

theorem Writes.refl (m : Machine) : m.Writes m := ⟨rfl, .refl _ _⟩

theorem Writes.trans {m m' m'' : Machine} (h : m.Writes m') (h' : m'.Writes m'') :
    m.Writes m'' := by
  have hscene := h'.scene
  rw [h.target] at hscene
  exact ⟨h'.target.trans h.target, h.scene.trans hscene⟩

theorem step_writes (m : Machine) : m.Writes m.step.machine := by
  refine ⟨m.stays_step.target, ?_⟩
  cases hframes : m.stack.frames with
  | nil =>
    rw [step, hframes]
    exact .refl _ _
  | cons top rest =>
    rw [step_cx hframes]
    exact top.resume_writes m.stack.resumed m.cx

theorem Writes.next {m x x' : Machine} (h : m.Writes x) (hstep : x.step = .next x') :
    m.Writes x' := by
  have hx := x.step_writes
  rw [hstep] at hx
  exact h.trans hx

theorem Reaches.writes {m m' : Machine} (h : m.Reaches m') : m.Writes m' := by
  induction h with
  | refl => exact .refl m
  | tail _ hstep ih => exact ih.next hstep

theorem drive_writes {fuel : Nat} {m m' : Machine} {result : Except ExecError Slice}
    (h : drive fuel m = some (result, m')) : m.Writes m' := by
  have hnext : ∀ x x' : Machine, m.Writes x → x.step = .next x' → m.Writes x' :=
    fun _ _ hx => hx.next
  obtain ⟨last, hlast, hhalt⟩ := drive_induction hnext (.refl m) h
  have hm' := last.step_writes
  rw [hhalt] at hm'
  exact hlast.trans hm'

end Machine

/-! ### Threads -/

theorem Thread.step_writes {t t' : Thread} {fuel : Nat} {w w' : World}
    {outcome : Except ExecError Status} (h : t.step fuel w = some (outcome, t', w')) :
    w.scene.WritesOn t.target w'.scene := by
  rw [Thread.step] at h
  split at h
  · cases h
    exact .refl _ _
  · split at h
    · cases h
      exact .refl _ _
    · obtain ⟨⟨result, m⟩, hdrive, heq⟩ := Option.map_eq_some_iff.mp h
      cases heq
      exact (Machine.drive_writes hdrive).scene

/-- A slice writes on the target of its thread, and on the variables and lists of the stage.  However it
ends, and at every iteration of its drive if it does not: the other targets are as they were, the stage
has at most other values in its variables and lists, and no target, script, costume, variable, list,
block definition or custom block has been added, removed, renamed or moved. -/
theorem slice_writes_on_its_target (t : Thread) (w : World) :
    (∀ m, (t.machine w).Reaches m → w.scene.WritesOn t.target m.cx.scene) ∧
    ∀ fuel outcome t' w', t.step fuel w = some (outcome, t', w') →
      w.scene.WritesOn t.target w'.scene :=
  ⟨fun _ hreach => hreach.writes.scene, fun _ _ _ _ hstep => Thread.step_writes hstep⟩

/-- Hides the sprite, and marks on the stage that this has been done. -/
def Script.hiding : Script :=
  ⟨.mk (Library.command "looks_hide" [] .hide) "hide" 0 [],
    [.mk (Library.command "data_setvariableto" [("VARIABLE", .field), ("VALUE", .any)] .setVariable)
      "mark" 1 [("VARIABLE", .literal (.str "hidden")), ("VALUE", .literal (.bool true))]]⟩

/-- A stage with a variable, and two sprites. -/
def Scene.hiding : Scene :=
  { targets := [{ Target.stage with vars := [("hidden", .bool false)] }, .sprite "Cat", .sprite "Dog"]
    stage := some 0 }

/-- The first sprite is hidden and the variable of the stage is set; the other sprite is untouched, and
so is the rest of the stage. -/
theorem slice_writes_on_its_target_hiding :
    ∃ t' w', (Thread.launch 0 .hiding 1 none).step 8 { scene := .hiding } =
        some (.ok .done, t', w') ∧
      (w'.scene.target? 1).map Target.visible = some false ∧
      w'.scene.getVariable? 1 "hidden" = some (.bool true) ∧
      Scene.hiding.WritesOn 1 w'.scene ∧ w'.scene.target? 2 = some (.sprite "Dog") := by
  have hstep : (Thread.launch 0 .hiding 1 none).step 8 { scene := .hiding } =
    some (.ok .done, _, _) := rfl
  have hwrites := (slice_writes_on_its_target _ _).2 8 _ _ _ hstep
  exact ⟨_, _, hstep, rfl, rfl, hwrites, hwrites.others 2 (by decide) (by decide)⟩

end Blockwork
