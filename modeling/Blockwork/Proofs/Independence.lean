import Blockwork.Proofs.WriteFrame

/-!
Threads on different targets are independent.

Leave out the blocks that begin a wait or restart the stopwatch, and let every variable and list that a
slice names be one of its own target.  Then all that the slice reads and writes of the scene is that
target, the outbox only grows at its end and the redraw request is only made.  So the slice does the
same beside whatever has become of the other targets and of the services (`Thread.step_doing`): it does
not matter which of two such slices, on two targets, comes first.
-/

namespace Blockwork

/-! ### What a slice may use -/

namespace Body

/-- Whether the body begins no wait and leaves the stopwatch alone, for a block of the library. -/
def isInstant : Body → Bool
  | .wait | .broadcastAndWait | .resetTimer | .extended _ => false
  | _ => true

/-- Whether the variable or list that the body names, if any, is one of the target. -/
def owns (args : Args) (t : Target) : Body → Bool
  | .getVariable | .setVariable | .changeVariable =>
    Table.contains (args.text "VARIABLE") t.vars
  | .addToList | .itemOfList | .lengthOfList | .clearList =>
    Table.contains (args.text "LIST") t.lists
  | _ => true

end Body

/-- Whether the body that the routine runs next, if any, is instant and names only what the target
has. -/
def Routine.isLocal (r : Routine) (v : Option Value) (t : Target) : Bool :=
  (r.runs? v).all fun (_, body, args) => body.isInstant && body.owns args t

namespace Machine

def isLocal (m : Machine) : Bool :=
  m.stack.frames.head?.all fun top => top.isLocal m.stack.resumed m.cx.self

/-- Every body that the slice runs is instant and names only what its own target has. -/
def StaysLocal (m : Machine) : Prop := ∀ m', m.Reaches m' → m'.isLocal = true

/-- Runs a slice to its end, as far as every step is local. -/
def runsLocal : Nat → Machine → Bool
  | 0, _ => false
  | fuel + 1, m =>
    m.isLocal && match m.step with
      | .next m => runsLocal fuel m
      | .halt .. => true

theorem StaysLocal.next {m m' : Machine} (h : m.StaysLocal) (hstep : m.step = .next m') :
    m'.StaysLocal := fun _ hreach => h _ (.head hstep hreach)

theorem staysLocal_of_runsLocal {fuel : Nat} {m : Machine} (h : m.runsLocal fuel = true) :
    m.StaysLocal := by
  induction fuel generalizing m with
  | zero => cases h
  | succ fuel ih =>
    rw [runsLocal, Bool.and_eq_true] at h
    intro m' hreach
    rcases Relation.ReflTransGen.cases_head hreach with rfl | ⟨m₁, hstep, hreach⟩
    · exact h.1
    · rw [hstep] at h
      exact ih h.2 m' hreach

end Machine

/-! ### The same work in other surroundings -/

theorem Scene.modifyTarget_of_none {s : Scene} {i : Nat} (h : s.target? i = none)
    (f : Target → Target) : s.modifyTarget i f = s := by
  rw [modifyTarget, List.modify_eq_self (List.getElem?_eq_none_iff.mp h)]

/-- Putting a target in its own place changes nothing. -/
theorem Scene.modifyTarget_own (s : Scene) (i : Nat) :
    (s.modifyTarget i fun _ => (s.target? i).getD default) = s := by
  have htargets : (s.targets.modify i fun _ => (s.target? i).getD default) = s.targets := by
    apply List.ext_getElem?
    intro j
    rw [List.getElem?_modify]
    by_cases hij : i = j
    · subst hij
      rw [target?]
      cases s.targets[i]? <;> simp
    · simp [hij]
  exact congrArg (fun targets => { s with targets }) htargets

theorem Scene.modifyTarget_comm (s : Scene) {i j : Nat} (h : i ≠ j) (f g : Target → Target) :
    (s.modifyTarget i f).modifyTarget j g = (s.modifyTarget j g).modifyTarget i f := by
  simp only [modifyTarget, List.modify_modify_ne f g s.targets h]

theorem Scene.modifyTarget_modifyTarget (s : Scene) (i : Nat) (f g : Target → Target) :
    (s.modifyTarget i f).modifyTarget i g = s.modifyTarget i (g ∘ f) := by
  simp only [modifyTarget, List.modify_modify_eq]

namespace World

/-- A world with what a slice on the given target has done elsewhere: the target as it is there, its
effects after those that are waiting, and its redraw request. -/
def doing (x : World) (i : Nat) (w : World) : World :=
  { x with
    scene := x.scene.modifyTarget i fun _ => (w.scene.target? i).getD default
    services := { x.services with
      outbox := x.services.outbox ++ w.services.outbox
      redraw := x.services.redraw || w.services.redraw } }

/-- Other surroundings of a target.  The targets may be others, as long as this one is there in both or
in neither; the custom blocks, the timers, the signals and the time are the same. -/
structure Surrounds (i : Nat) (w x : World) : Prop where
  target : (x.scene.target? i).isSome = (w.scene.target? i).isSome
  procedures : x.scene.procedures = w.scene.procedures
  timers : x.services.timers = w.services.timers
  signals : x.signals = w.signals
  clock : x.clock = w.clock

variable {i : Nat} {w x : World}

theorem Surrounds.cases (h : w.Surrounds i x) :
    (∃ t t', w.scene.target? i = some t ∧ x.scene.target? i = some t') ∨
      w.scene.target? i = none ∧ x.scene.target? i = none := by
  have htarget := h.target
  cases hw : w.scene.target? i with
  | none =>
    rw [hw] at htarget
    exact .inr ⟨rfl, Option.not_isSome_iff_eq_none.mp (Bool.eq_false_iff.mp htarget)⟩
  | some t =>
    rw [hw] at htarget
    obtain ⟨t', ht'⟩ := Option.isSome_iff_exists.mp htarget
    exact .inl ⟨t, t', rfl, ht'⟩

end World

/-- The timers, the signals and the time are as before. -/
structure World.SameTime (w w' : World) : Prop where
  timers : w'.services.timers = w.services.timers
  signals : w'.signals = w.signals
  clock : w'.clock = w.clock

theorem World.SameTime.refl (w : World) : w.SameTime w := ⟨rfl, rfl, rfl⟩

/-- Surroundings stay such as long as the time, the outline of the scene and the number of targets do. -/
theorem World.Surrounds.mono {i : Nat} {w w' x : World} (h : w.Surrounds i x)
    (htime : w.SameTime w') (houtline : w'.scene.outline = w.scene.outline) : w'.Surrounds i x := by
  have htarget : (w'.scene.target? i).isSome = (w.scene.target? i).isSome := by
    rw [← Option.isSome_map (f := Target.outline), ← Scene.outline_target?, houtline,
      Scene.outline_target?, Option.isSome_map]
  exact ⟨h.target.trans htarget.symm,
    h.procedures.trans (congrArg Scene.Outline.procedures houtline).symm,
    h.timers.trans htime.timers.symm, h.signals.trans htime.signals.symm,
    h.clock.trans htime.clock.symm⟩

namespace Context

/-- A context in other surroundings. -/
def amid (x : World) (cx : Context) : Context := { cx with world := x.doing cx.target cx.world }

variable {cx : Context} {x : World}

theorem requestRedraw_amid : (cx.amid x).requestRedraw = cx.requestRedraw.amid x := by
  have hredraw : true = (x.services.redraw || true) := (Bool.or_true _).symm
  exact congrArg (fun redraw => withServices { (cx.amid x).services with redraw } (cx.amid x)) hredraw

theorem post_amid (e : Effect) : (cx.amid x).post e = (cx.post e).amid x := by
  have happend := List.append_assoc x.services.outbox cx.services.outbox [e]
  exact congrArg (fun outbox => withServices { (cx.amid x).services with outbox } (cx.amid x)) happend

/-- The running target owns what it has. -/
theorem owner?_self (has : Target → Bool) (h : has cx.self = true) (hdefault : has default = false) :
    cx.scene.owner? cx.target has = some cx.target ∧ cx.scene.target? cx.target = some cx.self := by
  have htarget : cx.scene.target? cx.target = some cx.self := by
    cases ht : cx.scene.target? cx.target with
    | some t =>
      rw [self, ht]
      rfl
    | none =>
      rw [self, ht, Option.getD_none, hdefault] at h
      cases h
  refine ⟨?_, htarget⟩
  rw [Scene.owner?, if_pos]
  rw [htarget, Option.any_some, h]

theorem getVariable_of_owns {name : String} (h : Table.contains name cx.self.vars = true) :
    cx.getVariable name = .ok ((Table.get? name cx.self.vars).getD .null) := by
  obtain ⟨howner, htarget⟩ := owner?_self (fun t => Table.contains name t.vars) h rfl
  obtain ⟨v, hv⟩ := Option.isSome_iff_exists.mp h
  rw [getVariable, Scene.getVariable?, Scene.variableOwner?, howner, Option.bind_some, htarget,
    Option.bind_some, hv]
  rfl

theorem setVariable_of_owns {name : String} (h : Table.contains name cx.self.vars = true)
    (v : Value) : cx.setVariable name v =
      .ok (cx.modifySelf fun t => { t with vars := Table.insert name v t.vars }) := by
  obtain ⟨howner, -⟩ := owner?_self (fun t => Table.contains name t.vars) h rfl
  rw [setVariable, Scene.setVariable?, Scene.variableOwner?, howner]
  rfl

theorem getList_of_owns {name : String} (h : Table.contains name cx.self.lists = true) :
    cx.getList name = .ok ((Table.get? name cx.self.lists).getD []) := by
  obtain ⟨howner, htarget⟩ := owner?_self (fun t => Table.contains name t.lists) h rfl
  obtain ⟨items, hitems⟩ := Option.isSome_iff_exists.mp h
  rw [getList, Scene.getList?, Scene.listOwner?, howner, Option.bind_some, htarget,
    Option.bind_some, hitems]
  rfl

theorem setList_of_owns {name : String} (h : Table.contains name cx.self.lists = true)
    (items : List Value) : cx.setList name items =
      .ok (cx.modifySelf fun t => { t with lists := Table.insert name items t.lists }) := by
  obtain ⟨howner, -⟩ := owner?_self (fun t => Table.contains name t.lists) h rfl
  rw [setList, Scene.setList?, Scene.listOwner?, howner]
  rfl

section

variable (hx : cx.world.Surrounds cx.target x)
include hx

theorem target?_amid : (cx.amid x).scene.target? cx.target = cx.scene.target? cx.target := by
  have hmodify : (cx.amid x).scene.target? cx.target =
      (x.scene.target? cx.target).map fun _ => cx.self := Scene.target?_modifyTarget_self ..
  rw [hmodify, self, scene]
  rcases hx.cases with ⟨t, t', ht, ht'⟩ | ⟨ht, ht'⟩
  · rw [ht, ht']
    rfl
  · rw [ht, ht']
    rfl

theorem self_amid : (cx.amid x).self = cx.self :=
  congrArg (Option.getD · default) (target?_amid hx)

theorem modifySelf_amid (f : Target → Target) :
    (cx.amid x).modifySelf f = (cx.modifySelf f).amid x := by
  have hscene : (x.scene.modifyTarget cx.target fun _ => cx.self).modifyTarget cx.target f =
      x.scene.modifyTarget cx.target fun _ => (cx.modifySelf f).self := by
    rcases hx.cases with ⟨t, t', ht, -⟩ | ⟨-, ht'⟩
    · have hself : (cx.modifySelf f).self = f cx.self := by
        have hmodify : (cx.modifySelf f).scene.target? cx.target =
            (cx.scene.target? cx.target).map f := Scene.target?_modifyTarget_self ..
        have ht : cx.scene.target? cx.target = some t := ht
        show ((cx.modifySelf f).scene.target? cx.target).getD default = _
        rw [hmodify, self, ht]
        rfl
      rw [Scene.modifyTarget_modifyTarget, hself]
      rfl
    · rw [Scene.modifyTarget_of_none ht', Scene.modifyTarget_of_none ht',
        Scene.modifyTarget_of_none ht']
  exact congrArg (fun scene => withScene scene (cx.amid x)) hscene

theorem redrawIfVisible_amid : (cx.amid x).redrawIfVisible = cx.redrawIfVisible.amid x := by
  rw [redrawIfVisible, redrawIfVisible, self_amid hx]
  split
  · exact requestRedraw_amid
  · rfl

theorem getVariable_amid {name : String} (h : Table.contains name cx.self.vars = true) :
    (cx.amid x).getVariable name = cx.getVariable name := by
  have hself := self_amid hx
  have h' : Table.contains name (cx.amid x).self.vars = true := by rwa [hself]
  rw [getVariable_of_owns h, getVariable_of_owns h', hself]

theorem setVariable_amid {name : String} (h : Table.contains name cx.self.vars = true) (v : Value) :
    (cx.amid x).setVariable name v = (cx.setVariable name v).map (amid x) := by
  have h' : Table.contains name (cx.amid x).self.vars = true := by rwa [self_amid hx]
  rw [setVariable_of_owns h, setVariable_of_owns h', modifySelf_amid hx]
  rfl

theorem getList_amid {name : String} (h : Table.contains name cx.self.lists = true) :
    (cx.amid x).getList name = cx.getList name := by
  have hself := self_amid hx
  have h' : Table.contains name (cx.amid x).self.lists = true := by rwa [hself]
  rw [getList_of_owns h, getList_of_owns h', hself]

theorem setList_amid {name : String} (h : Table.contains name cx.self.lists = true)
    (items : List Value) :
    (cx.amid x).setList name items = (cx.setList name items).map (amid x) := by
  have h' : Table.contains name (cx.amid x).self.lists = true := by rwa [self_amid hx]
  rw [setList_of_owns h, setList_of_owns h', modifySelf_amid hx]
  rfl

theorem timerSeconds_amid : (cx.amid x).timerSeconds = cx.timerSeconds := by
  have htimers : (cx.amid x).services.timers = cx.services.timers := hx.timers
  have hclock : (cx.amid x).world.clock = cx.world.clock := hx.clock
  rw [timerSeconds, timerSeconds, htimers, World.now, World.now, hclock]

end

end Context

/-! ### Bodies -/

namespace Body

theorem run_sameTime {body : Body} (h : body.isInstant = true) (opcode : String) (args : Args)
    (cx : Context) : cx.world.SameTime (body.run opcode args cx).2.world := by
  have hset : ∀ name v, cx.world.SameTime (command cx (cx.setVariable name v)).2.world := by
    intro name v
    rw [Context.setVariable]
    split <;> exact ⟨rfl, rfl, rfl⟩
  have hlist : ∀ name items, cx.world.SameTime (command cx (cx.setList name items)).2.world := by
    intro name items
    rw [Context.setList]
    split <;> exact ⟨rfl, rfl, rfl⟩
  have hreport : ∀ r, cx.world.SameTime (report cx r).2.world := by
    intro r
    cases r <;> exact .refl _
  have hredraw : ∀ f, cx.world.SameTime (cx.modifySelf f).redrawIfVisible.world := by
    intro f
    rw [Context.redrawIfVisible]
    split <;> exact ⟨rfl, rfl, rfl⟩
  cases body with
  | wait | broadcastAndWait | resetTimer | extended => cases h
  | stop | costumeInfo =>
    simp only [run]
    repeat' split
    all_goals exact ⟨rfl, rfl, rfl⟩
  | getVariable | itemOfList | lengthOfList => exact hreport _
  | setVariable => exact hset _ _
  | clearList => exact hlist _ _
  | changeVariable =>
    simp only [run]
    cases cx.getVariable (args.text "VARIABLE") with
    | error e => exact .refl _
    | ok current => exact hset _ _
  | addToList =>
    simp only [run]
    cases cx.getList (args.text "LIST") with
    | error e => exact .refl _
    | ok items => exact hlist _ _
  | motion | switchCostume | nextCostume => exact hredraw _
  | broadcast | reveal | hide => exact ⟨rfl, rfl, rfl⟩
  | idle | binary | unary | timerAbove | reading | timer | parameter => exact .refl _

theorem command_amid (x : World) (cx : Context) (y : Except ExecError Context) :
    command (cx.amid x) (y.map (Context.amid x)) =
      ((command cx y).1, (command cx y).2.amid x) := by
  cases y <;> rfl

theorem report_amid (x : World) (cx : Context) (y : Except ExecError Value) :
    report (cx.amid x) y = ((report cx y).1, (report cx y).2.amid x) := by
  cases y <;> rfl

/-- In other surroundings, an instant body that names only what its target has does the same. -/
theorem run_amid {body : Body} {args : Args} {cx : Context} {x : World} (hinst : body.isInstant = true)
    (howns : body.owns args cx.self = true) (hx : cx.world.Surrounds cx.target x) (opcode : String) :
    body.run opcode args (cx.amid x) =
      ((body.run opcode args cx).1, (body.run opcode args cx).2.amid x) := by
  have hmodify := Context.modifySelf_amid hx
  have hredraw : ∀ f : Target → Target, (∀ t, (f t).outline = t.outline) →
      ((cx.amid x).modifySelf f).redrawIfVisible = (cx.modifySelf f).redrawIfVisible.amid x := by
    intro f hf
    rw [hmodify]
    have htime : cx.world.SameTime (cx.modifySelf f).world := ⟨rfl, rfl, rfl⟩
    exact Context.redrawIfVisible_amid (hx.mono htime (cx.outline_modifySelf hf))
  cases body with
  | wait | broadcastAndWait | resetTimer | extended => cases hinst
  | stop =>
    simp only [run, Context.post_amid]
    repeat' split
    all_goals rfl
  | costumeInfo =>
    simp only [run, Context.self_amid hx]
    repeat' split
    all_goals rfl
  | broadcast => exact congrArg (Prod.mk _) (Context.post_amid _)
  | timerAbove | timer => simp only [run, Context.timerSeconds_amid hx]
  | reading => simp only [run, Context.self_amid hx]
  | getVariable =>
    rw [run, Context.getVariable_amid hx howns]
    exact report_amid x cx _
  | itemOfList | lengthOfList =>
    rw [run, Context.getList_amid hx howns]
    exact report_amid x cx _
  | setVariable =>
    rw [run, Context.setVariable_amid hx howns]
    exact command_amid x cx _
  | clearList =>
    rw [run, Context.setList_amid hx howns]
    exact command_amid x cx _
  | changeVariable =>
    simp only [run, Context.getVariable_amid hx howns]
    cases cx.getVariable (args.text "VARIABLE") with
    | error e => rfl
    | ok current =>
      exact (congrArg (command _) (Context.setVariable_amid hx howns _)).trans (command_amid x cx _)
  | addToList =>
    simp only [run, Context.getList_amid hx howns]
    cases cx.getList (args.text "LIST") with
    | error e => rfl
    | ok items =>
      exact (congrArg (command _) (Context.setList_amid hx howns _)).trans (command_amid x cx _)
  | motion m => exact congrArg (Prod.mk _) (hredraw _ (Target.outline_motion m args))
  | switchCostume => exact congrArg (Prod.mk _) (hredraw _ (Target.outline_switchCostume _))
  | nextCostume => exact congrArg (Prod.mk _) (hredraw _ Target.outline_nextCostume)
  | reveal | hide => simp only [run, hmodify, Context.requestRedraw_amid]
  | idle | binary | unary | parameter => rfl

end Body

/-! ### Slices -/

namespace Routine

/-- In other surroundings, a routine does the same. -/
theorem resume_amid {r : Routine} {v : Option Value} {cx : Context} {x : World}
    (hr : r.isLocal v cx.self = true) (hx : cx.world.Surrounds cx.target x) :
    r.resume v (cx.amid x) = ((r.resume v cx).1, (r.resume v cx).2.amid x) := by
  cases hruns : r.runs? v with
  | none =>
    have hbodies : ∀ signature, (cx.amid x).scene.bodyOf? signature =
        cx.scene.bodyOf? signature := by
      intro signature
      have hprocedures : (cx.amid x).scene.procedures = cx.scene.procedures := hx.procedures
      rw [Scene.bodyOf?, Scene.bodyOf?, Scene.procedure?, Scene.procedure?, hprocedures]
    exact resume_mapCx hbodies (fun _ => rfl) rfl hruns
  | some run =>
    obtain ⟨b, body, args⟩ := run
    rw [isLocal, hruns, Option.all_some, Bool.and_eq_true] at hr
    rw [resume_of_runs hruns, resume_of_runs hruns, Body.run_amid hr.1 hr.2 hx]

theorem resume_sameTime {r : Routine} {v : Option Value} {cx : Context}
    (hr : r.isLocal v cx.self = true) : cx.world.SameTime (r.resume v cx).2.world := by
  cases hruns : r.runs? v with
  | none =>
    rw [resume_world_of_none hruns]
    exact .refl _
  | some run =>
    obtain ⟨b, body, args⟩ := run
    rw [isLocal, hruns, Option.all_some, Bool.and_eq_true] at hr
    rw [resume_of_runs hruns]
    exact Body.run_sameTime hr.1 b.opcode args cx

end Routine

namespace Machine

variable {m : Machine} {x : World}

theorem isLocal_top {top : Routine} {rest : List Routine} (hm : m.isLocal = true)
    (hframes : m.stack.frames = top :: rest) : top.isLocal m.stack.resumed m.cx.self = true := by
  rw [isLocal, hframes] at hm
  exact hm

theorem sameTime_step (hm : m.isLocal = true) : m.cx.world.SameTime m.step.machine.cx.world := by
  cases hframes : m.stack.frames with
  | nil =>
    rw [step, hframes]
    exact .refl _
  | cons top rest =>
    rw [step_cx hframes]
    exact Routine.resume_sameTime (isLocal_top hm hframes)

theorem step_amid (hm : m.isLocal = true) (hx : m.cx.world.Surrounds m.cx.target x) :
    (m.mapCx (Context.amid x)).step = m.step.mapCx (Context.amid x) :=
  step_mapCx (fun _ => rfl) (fun _ => rfl) fun _ _ hframes =>
    Routine.resume_amid (isLocal_top hm hframes) hx

/-- The surroundings of a slice stay such from step to step. -/
theorem surrounds_step (hm : m.isLocal = true) (hx : m.cx.world.Surrounds m.cx.target x) :
    m.step.machine.cx.world.Surrounds m.step.machine.cx.target x := by
  have hmono := hx.mono (sameTime_step hm) m.step_outline
  rwa [← m.stays_step.target] at hmono

theorem isLocal_amid (hx : m.cx.world.Surrounds m.cx.target x) :
    (m.mapCx (Context.amid x)).isLocal = m.isLocal := by
  have hself : (m.mapCx (Context.amid x)).cx.self = m.cx.self := Context.self_amid hx
  rw [isLocal, isLocal, hself]
  rfl

/-- In other surroundings, a slice does the same. -/
theorem drive_amid (fuel : Nat) (hm : m.StaysLocal) (hx : m.cx.world.Surrounds m.cx.target x) :
    drive fuel (m.mapCx (Context.amid x)) =
      (drive fuel m).map fun y => (y.1, y.2.mapCx (Context.amid x)) := by
  induction fuel generalizing m with
  | zero => rfl
  | succ fuel ih =>
    have hlocal := hm m .refl
    have hnext := surrounds_step hlocal hx
    rw [drive, drive, step_amid hlocal hx]
    cases hstep : m.step with
    | next m' =>
      rw [hstep] at hnext
      exact ih (hm.next hstep) hnext
    | halt result m' => rfl

theorem surrounds_drive {fuel : Nat} {m' : Machine} {result : Except ExecError Slice}
    (hm : m.StaysLocal) (hx : m.cx.world.Surrounds m.cx.target x)
    (h : drive fuel m = some (result, m')) : m'.cx.world.Surrounds m'.cx.target x := by
  have hnext : ∀ y y' : Machine, y.StaysLocal ∧ y.cx.world.Surrounds y.cx.target x →
      y.step = .next y' → y'.StaysLocal ∧ y'.cx.world.Surrounds y'.cx.target x := by
    rintro y y' ⟨hy, hyx⟩ hstep
    have hyx' := surrounds_step (hy y .refl) hyx
    rw [hstep] at hyx'
    exact ⟨hy.next hstep, hyx'⟩
  obtain ⟨last, ⟨hlast, hlastx⟩, hhalt⟩ := drive_induction hnext ⟨hm, hx⟩ h
  have hm' := surrounds_step (hlast last .refl) hlastx
  rwa [hhalt] at hm'

/-- Whether a slice stays local does not depend on its surroundings. -/
theorem staysLocal_of_amid (hm : (m.mapCx (Context.amid x)).StaysLocal)
    (hx : m.cx.world.Surrounds m.cx.target x) : m.StaysLocal := by
  intro m' hreach
  have hboth : (m.mapCx (Context.amid x)).Reaches (m'.mapCx (Context.amid x)) ∧
      m'.cx.world.Surrounds m'.cx.target x := by
    induction hreach with
    | refl => exact ⟨.refl, hx⟩
    | @tail y y' _ hstep ih =>
      obtain ⟨hyreach, hyx⟩ := ih
      have hlocal : y.isLocal = true := by
        rw [← isLocal_amid hyx]
        exact hm _ hyreach
      have hstep' := step_amid hlocal hyx
      have hyx' := surrounds_step hlocal hyx
      rw [hstep] at hstep' hyx'
      exact ⟨hyreach.tail hstep', hyx'⟩
  rw [← isLocal_amid hboth.2]
  exact hm _ hboth.1

end Machine

/-! ### Threads -/

namespace Thread

theorem absorb_amid (t : Thread) {m : Machine} {x : World} (h : x.signals = m.cx.world.signals)
    (result : Except ExecError Slice) :
    t.absorb result (m.mapCx (Context.amid x)) = t.absorb result m := by
  have hsignals : (m.mapCx (Context.amid x)).cx.world.signals = m.cx.world.signals := h
  simp only [absorb, hsignals]
  rfl

/-- A slice does the same beside whatever has become of the rest of the world. -/
theorem step_doing {t : Thread} {w x : World} (hlocal : (t.machine w).StaysLocal)
    (hx : w.Surrounds t.target x) (fuel : Nat) :
    t.step fuel (x.doing t.target w) =
      (t.step fuel w).map fun y => (y.1, y.2.1, x.doing t.target y.2.2) := by
  have hamid : (x.doing t.target w).scene.target? t.target = w.scene.target? t.target :=
    @Context.target?_amid (t.machine w).cx _ hx
  have htarget := congrArg Option.isNone hamid
  by_cases hr : t.status = .running
  · cases hknown : (w.scene.target? t.target).isNone with
    | true =>
      rw [step_of_unknown hr (htarget.trans hknown), step_of_unknown hr hknown]
      rfl
    | false =>
      have hdrive := Machine.drive_amid fuel hlocal hx
      have hmachine : t.machine (x.doing t.target w) = (t.machine w).mapCx (Context.amid x) := rfl
      rw [step_of_running hr (htarget.trans hknown), step_of_running hr hknown, hmachine, hdrive]
      cases hm : Machine.drive fuel (t.machine w) with
      | none => rfl
      | some y =>
        obtain ⟨result, m⟩ := y
        have hxm := Machine.surrounds_drive hlocal hx hm
        have habsorb := t.absorb_amid hxm.signals result
        have hworld : (m.mapCx (Context.amid x)).cx.world = x.doing t.target m.cx.world :=
          congrArg (x.doing · m.cx.world) (Machine.stays_drive hm).target
        simp only [Option.map_some, habsorb, hworld]
  · rw [step_of_resting hr, step_of_resting hr]
    rfl

end Thread

/-! ### Two threads -/

/-- The scene, the redraw request, the timers, the signals and the time are the same, and the same
effects wait to be carried out, in any order. -/
structure World.Agrees (w w' : World) : Prop where
  scene : w'.scene = w.scene
  redraw : w'.services.redraw = w.services.redraw
  timers : w'.services.timers = w.services.timers
  signals : w'.signals = w.signals
  clock : w'.clock = w.clock
  outbox : w'.services.outbox.Perm w.services.outbox

namespace World

/-- A world in which nobody has asked for anything yet. -/
def unasked (w : World) : World :=
  { w with services := { w.services with outbox := [], redraw := false } }

theorem doing_unasked (w : World) (i : Nat) : w.doing i w.unasked = w := by
  rw [doing, unasked]
  simp only [List.append_nil, Bool.or_false, Scene.modifyTarget_own]

/-- Other surroundings are the same world with another target changed. -/
theorem surrounds_doing {w : World} {i j : Nat} (hij : i ≠ j) (v : World) :
    w.unasked.Surrounds j (w.doing i v) := by
  refine ⟨?_, rfl, rfl, rfl, rfl⟩
  exact congrArg Option.isSome (Scene.target?_modifyTarget_of_ne hij.symm _ w.scene)

theorem doing_doing_unasked {w : World} {i j : Nat} (hij : i ≠ j) (v : World) :
    (w.doing i v).doing j w.unasked = w.doing i v := by
  have hself : w.unasked.scene.target? j = (w.doing i v).unasked.scene.target? j :=
    (Scene.target?_modifyTarget_of_ne hij.symm _ w.scene).symm
  have hunasked : (w.doing i v).doing j w.unasked =
      (w.doing i v).doing j (w.doing i v).unasked := by
    rw [doing, doing, hself]
    rfl
  rw [hunasked, doing_unasked]

theorem agrees_doing_doing (w : World) {i j : Nat} (hij : i ≠ j) (u v : World) :
    ((w.doing i u).doing j v).Agrees ((w.doing j v).doing i u) where
  scene := Scene.modifyTarget_comm w.scene hij.symm _ _
  redraw := Bool.or_right_comm ..
  timers := rfl
  signals := rfl
  clock := rfl
  outbox := by
    show (w.services.outbox ++ v.services.outbox ++ u.services.outbox).Perm
      (w.services.outbox ++ u.services.outbox ++ v.services.outbox)
    rw [List.append_assoc, List.append_assoc]
    exact List.perm_append_comm.append_left _

end World

/-- What a slice does can be told from the rest of the world, and it does so in other surroundings. -/
theorem Thread.step_apart {t t' : Thread} {w w' : World} {fuel : Nat}
    {outcome : Except ExecError Status} (hlocal : (t.machine w).StaysLocal)
    (h : t.step fuel w = some (outcome, t', w')) :
    ∃ u, w' = w.doing t.target u ∧ ∀ x, w.unasked.Surrounds t.target x →
      t.step fuel (x.doing t.target w.unasked) = some (outcome, t', x.doing t.target u) := by
  have hown : w.unasked.Surrounds t.target w := ⟨rfl, rfl, rfl, rfl, rfl⟩
  have hlocal' : (t.machine w.unasked).StaysLocal := by
    have hmachine : (t.machine w.unasked).mapCx (Context.amid w) = t.machine w :=
      congrArg t.machine (w.doing_unasked t.target)
    refine Machine.staysLocal_of_amid ?_ hown
    rwa [hmachine]
  have hstep := step_doing hlocal' hown fuel
  rw [w.doing_unasked, h] at hstep
  obtain ⟨⟨outcome', t'', u⟩, hu, heq⟩ := Option.map_eq_some_iff.mp hstep.symm
  cases heq
  refine ⟨u, rfl, fun x hx => ?_⟩
  rw [step_doing hlocal' hx, hu]
  rfl

/-- Two slices on two targets can be taken in either order.  Of the blocks of the library, those that
begin a wait or restart the stopwatch are left out, and every variable or list that a slice names is one
of its own target.  Then each of the threads comes out the same, with the same failure if any, and so
does the world, up to the order in which effects were asked for. -/
theorem independent_slices_commute {A B A' B' : Thread} {w wA wB : World} {fuel fuel' : Nat}
    {outcomeA outcomeB : Except ExecError Status} (htargets : A.target ≠ B.target)
    (hA : (A.machine w).StaysLocal) (hB : (B.machine w).StaysLocal)
    (hstepA : A.step fuel w = some (outcomeA, A', wA))
    (hstepB : B.step fuel' w = some (outcomeB, B', wB)) :
    ∃ wAB wBA, B.step fuel' wA = some (outcomeB, B', wAB) ∧
      A.step fuel wB = some (outcomeA, A', wBA) ∧ wAB.Agrees wBA := by
  obtain ⟨u, rfl, hu⟩ := Thread.step_apart hA hstepA
  obtain ⟨v, rfl, hv⟩ := Thread.step_apart hB hstepB
  -- the first of the two is part of the other's surroundings
  have hBA := hv _ (World.surrounds_doing htargets u)
  have hAB := hu _ (World.surrounds_doing htargets.symm v)
  rw [World.doing_doing_unasked htargets] at hBA
  rw [World.doing_doing_unasked htargets.symm] at hAB
  exact ⟨_, _, hBA, hAB, w.agrees_doing_doing htargets u v⟩

/-- Tells everyone, hides, and sets the variable `score` or adds to the list `seen`. -/
def Script.telling (message : String) (last : Block) : Script :=
  ⟨.mk (Library.command "event_broadcast" [("BROADCAST_INPUT", .slot .string)] .broadcast) "tell" 0
      [("BROADCAST_INPUT", .literal (.str message))],
    [.mk (Library.command "looks_hide" [] .hide) "hide" 1 [], last]⟩

def Block.scoring : Block :=
  .mk (Library.command "data_setvariableto" [("VARIABLE", .field), ("VALUE", .any)] .setVariable)
    "score" 2 [("VARIABLE", .literal (.str "score")), ("VALUE", .literal (.bool true))]

def Block.seeing : Block :=
  .mk (Library.command "data_addtolist" [("LIST", .field), ("ITEM", .any)] .addToList) "see" 3
    [("LIST", .literal (.str "seen")), ("ITEM", .literal (.str "cat"))]

/-- A stage, a sprite with a variable and a sprite with a list. -/
def Scene.telling : Scene :=
  { targets := [.stage, { Target.sprite "Cat" with vars := [("score", .bool false)] },
      { Target.sprite "Dog" with lists := [("seen", [])] }]
    stage := some 0 }

def Thread.scoring : Thread := .launch 0 (.telling "go" .scoring) 1 none

def Thread.seeing : Thread := .launch 1 (.telling "stop" .seeing) 2 none

/-- Both sprites broadcast, hide and keep a note of their own: in either order the notes are the same,
and the two broadcasts are all that comes out in another order. -/
theorem independent_slices_commute_telling :
    ∃ A' B' wA wB wAB wBA,
      Thread.scoring.step 12 { scene := .telling } = some (.ok .done, A', wA) ∧
      Thread.seeing.step 12 wA = some (.ok .done, B', wAB) ∧
      Thread.seeing.step 12 { scene := .telling } = some (.ok .done, B', wB) ∧
      Thread.scoring.step 12 wB = some (.ok .done, A', wBA) ∧
      wAB.Agrees wBA ∧ wAB.services.outbox.length = 2 ∧
      wAB.scene.getVariable? 1 "score" = some (.bool true) ∧
      wAB.scene.getList? 2 "seen" = some [.str "cat"] := by
  have hA : Thread.scoring.step 12 { scene := .telling } = some (.ok .done, _, _) := rfl
  have hB : Thread.seeing.step 12 { scene := .telling } = some (.ok .done, _, _) := rfl
  have hlocalA : (Thread.scoring.machine { scene := .telling }).runsLocal 12 = true := rfl
  have hlocalB : (Thread.seeing.machine { scene := .telling }).runsLocal 12 = true := rfl
  obtain ⟨wAB, wBA, hAB, hBA, hagrees⟩ := independent_slices_commute (by decide)
    (Machine.staysLocal_of_runsLocal hlocalA) (Machine.staysLocal_of_runsLocal hlocalB) hA hB
  refine ⟨_, _, _, _, wAB, wBA, hA, hAB, hB, hBA, hagrees, ?_⟩
  cases hAB
  exact ⟨rfl, rfl, rfl⟩

end Blockwork
