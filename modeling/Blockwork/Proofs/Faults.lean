import Blockwork.Proofs.Lifecycle
import Blockwork.Proofs.SceneBuilding

/-!
What can go wrong in a valid scene.

A program over the vocabulary of its scene can ask for a variable or a list that neither its target nor
the stage has, or give an option that a block does not know.  Those are its faults.  If every custom
block has a body, no step of the machine fails in another way outside of a fence (`Machine.Over.error`).
As long as the host keeps to the scene, all threads are over its vocabulary, on targets that it has, and
the outline of the scene stays the same; so every error of a frame is a fault of the thread that ends it.
-/

namespace Blockwork

variable {ds : List Declaration}

/-! ### Faults -/

theorem Table.contains_iff {α : Type} {name : String} :
    ∀ {t : Table α}, Table.contains name t = true ↔ name ∈ Table.names t
  | [] => by simp [contains, get?, names]
  | (n, a) :: rest => by
    have ih := @contains_iff α name rest
    by_cases hn : n = name
    · simp [contains, get?, names, hn]
    · simp only [contains, get?, if_neg hn, names, List.map_cons, List.mem_cons, Ne.symm hn,
        false_or] at ih ⊢
      exact ih

namespace Scene

/-- The target has the name among the given ones. -/
def Declares (s : Scene) (names : Target.Outline → List String) (i : Nat) (name : String) : Prop :=
  ∃ o, s.outline.targets[i]? = some o ∧ name ∈ names o

/-- Neither the target nor the stage has the name. -/
def Lacks (s : Scene) (names : Target.Outline → List String) (i : Nat) (name : String) : Prop :=
  ¬ s.Declares names i name ∧ ∀ j, s.stage = some j → ¬ s.Declares names j name

/-- What a program that runs on the target can be blamed for: a name that neither the target nor the
stage has, or an option that a block does not know. -/
inductive Fault (s : Scene) (target : Nat) : ExecError → Prop
  | noVariable {name : String} : s.Lacks Target.Outline.vars target name →
      Fault s target (.unknownVariable name)
  | noList {name : String} : s.Lacks Target.Outline.lists target name →
      Fault s target (.unknownList name)
  | stopOption {option : String} :
      option ∉ ["all", "this script", "other scripts in sprite", "other scripts in stage"] →
      Fault s target (.block "control_stop" ("unknown stop option `" ++ option ++ "`"))
  | costumeOption {option : String} : option ∉ ["number", "name"] →
      Fault s target (.block "looks_costumenumbername" ("unknown option `" ++ option ++ "`"))

variable {s s' : Scene}

theorem Lacks.of_outline (ho : s'.outline = s.outline) {names : Target.Outline → List String}
    {i : Nat} {name : String} (h : s.Lacks names i name) : s'.Lacks names i name := by
  have hstage : s'.stage = s.stage := congrArg Outline.stage ho
  rw [Lacks, Declares, ho, hstage]
  refine ⟨h.1, fun j hj => ?_⟩
  rw [Declares, ho]
  exact h.2 j hj

theorem Fault.of_outline (ho : s'.outline = s.outline) {target : Nat} {e : ExecError}
    (h : s.Fault target e) : s'.Fault target e := by
  cases h with
  | noVariable hlacks => exact .noVariable (hlacks.of_outline ho)
  | noList hlacks => exact .noList (hlacks.of_outline ho)
  | stopOption hoption => exact .stopOption hoption
  | costumeOption hoption => exact .costumeOption hoption

theorem lacks_of_owner? {names : Target.Outline → List String} {i : Nat} {name : String}
    {has : Target → Bool} (hhas : ∀ t, has t = true ↔ name ∈ names t.outline)
    (h : s.owner? i has = none) : s.Lacks names i name := by
  have hnone : ∀ j, (s.target? j).any has = false → ¬ s.Declares names j name := by
    rintro j hj ⟨o, ho, hname⟩
    rw [outline_target?] at ho
    obtain ⟨t, ht, rfl⟩ := Option.map_eq_some_iff.mp ho
    rw [ht, Option.any_some, Bool.eq_false_iff] at hj
    exact hj ((hhas t).mpr hname)
  rw [owner?] at h
  split at h
  · cases h
  · rename_i hi
    refine ⟨hnone i (Bool.eq_false_iff.mpr hi), fun j hj => hnone j ?_⟩
    rw [hj] at h
    exact Bool.eq_false_iff.mpr (Option.filter_eq_none_iff.mp h j rfl)

/-- Who owns a name has an entry for it. -/
theorem owner?_eq_none {i : Nat} {has : Target → Bool} {α : Type} {get : Target → Option α}
    (hget : ∀ t, has t = (get t).isSome)
    (h : ((s.owner? i has).bind fun j => (s.target? j).bind get) = none) :
    s.owner? i has = none := by
  cases howner : s.owner? i has with
  | none => rfl
  | some j =>
    have hhas := has_of_owner? howner
    rw [howner, Option.bind_some] at h
    cases ht : s.target? j with
    | none =>
      rw [ht] at hhas
      cases hhas
    | some t =>
      rw [ht, Option.any_some, hget] at hhas
      rw [ht, Option.bind_some] at h
      rw [h] at hhas
      cases hhas

end Scene

/-! ### Bodies -/

namespace Context

variable {cx cx' : Context} {name : String} {e : ExecError}

theorem fault_of_getVariable (h : cx.getVariable name = .error e) : cx.scene.Fault cx.target e := by
  rw [getVariable] at h
  split at h
  · cases h
  · rename_i hget
    cases h
    exact .noVariable (Scene.lacks_of_owner? (fun _ => Table.contains_iff)
      (Scene.owner?_eq_none (fun _ => rfl) hget))

theorem fault_of_getList (h : cx.getList name = .error e) : cx.scene.Fault cx.target e := by
  rw [getList] at h
  split at h
  · cases h
  · rename_i hget
    cases h
    exact .noList (Scene.lacks_of_owner? (fun _ => Table.contains_iff)
      (Scene.owner?_eq_none (fun _ => rfl) hget))

theorem fault_of_setVariable {v : Value} (h : cx.setVariable name v = .error e) :
    cx.scene.Fault cx.target e := by
  rw [setVariable] at h
  split at h
  · cases h
  · rename_i hset
    cases h
    exact .noVariable (Scene.lacks_of_owner? (fun _ => Table.contains_iff)
      (Option.map_eq_none_iff.mp hset))

theorem fault_of_setList {items : List Value} (h : cx.setList name items = .error e) :
    cx.scene.Fault cx.target e := by
  rw [setList] at h
  split at h
  · cases h
  · rename_i hset
    cases h
    exact .noList (Scene.lacks_of_owner? (fun _ => Table.contains_iff)
      (Option.map_eq_none_iff.mp hset))

end Context

namespace Body

variable {cx cx' : Context} {e : ExecError}

theorem error_of_command {x : Except ExecError Context} (h : command cx x = (.error e, cx')) :
    x = .error e := by
  cases x <;> cases h
  rfl

theorem error_of_report {x : Except ExecError Value} (h : report cx x = (.error e, cx')) :
    x = .error e := by
  cases x <;> cases h
  rfl

/-- A standard body fails by a fault of its program only. -/
theorem fault_of_run {body : Body} (hb : body.isStandard = true) {opcode : String} {args : Args}
    (h : body.run opcode args cx = (.error e, cx')) : cx.scene.Fault cx.target e := by
  cases body with
  | extended x => cases hb
  | stop =>
    simp only [run] at h
    split at h
    · cases h
    · rename_i hall
      split at h
      · cases h
      · rename_i hthis
        split at h
        · cases h
        · rename_i hother
          cases h
          rw [not_or] at hother
          refine .stopOption ?_
          simp only [List.mem_cons, List.not_mem_nil, or_false, not_or]
          exact ⟨hall, hthis, hother.1, hother.2⟩
  | costumeInfo =>
    simp only [run] at h
    split at h
    · cases h
    · rename_i hnumber
      split at h
      · cases h
      · rename_i hname
        cases h
        refine .costumeOption ?_
        simp only [List.mem_cons, List.not_mem_nil, or_false, not_or]
        exact ⟨hnumber, hname⟩
  | getVariable => exact Context.fault_of_getVariable (error_of_report h)
  | setVariable => exact Context.fault_of_setVariable (error_of_command h)
  | changeVariable =>
    have hx := error_of_command h
    cases hv : cx.getVariable (args.text "VARIABLE") with
    | error e' =>
      rw [hv] at hx
      cases hx
      exact Context.fault_of_getVariable hv
    | ok current =>
      rw [hv] at hx
      exact Context.fault_of_setVariable hx
  | addToList =>
    have hx := error_of_command h
    cases hv : cx.getList (args.text "LIST") with
    | error e' =>
      rw [hv] at hx
      cases hx
      exact Context.fault_of_getList hv
    | ok items =>
      rw [hv] at hx
      exact Context.fault_of_setList hx
  | itemOfList | lengthOfList =>
    have hx := error_of_report h
    cases hv : cx.getList (args.text "LIST") with
    | error e' =>
      rw [hv] at hx
      cases hx
      exact Context.fault_of_getList hv
    | ok items =>
      rw [hv] at hx
      cases hx
  | clearList => exact Context.fault_of_setList (error_of_command h)
  | _ => cases h

end Body

/-! ### Steps -/

/-- Every custom block of the vocabulary has a body in the scene. -/
def Scene.Complete (ds : List Declaration) (s : Scene) : Prop :=
  ∀ d ∈ ds, (s.bodyOf? d.signature).isSome

theorem Scene.isSome_target?_of_outline {s s' : Scene} (ho : s'.outline = s.outline) (i : Nat) :
    (s'.target? i).isSome = (s.target? i).isSome := by
  have htargets : s'.outline.targets[i]?.isSome = s.outline.targets[i]?.isSome := by rw [ho]
  rwa [outline_target?, outline_target?, Option.isSome_map, Option.isSome_map] at htargets

theorem Scene.Over.of_outline {s s' : Scene} (h : s.Over ds) (ho : s'.outline = s.outline) :
    s'.Over ds :=
  h.of_eq (by rw [scripts_eq, scripts_eq, ho]) (congrArg Outline.procedures ho)

theorem Scene.Complete.of_outline {s s' : Scene} (h : s.Complete ds)
    (ho : s'.outline = s.outline) : s'.Complete ds := by
  intro d hd
  have hprocedures : s'.procedures = s.procedures := congrArg Outline.procedures ho
  rw [bodyOf?, procedure?, hprocedures]
  exact h d hd

/-- A routine over the vocabulary fails when the body of an eager block does, or when there is nothing
to call. -/
theorem Routine.resume_error {r : Routine} {v : Option Value} {cx cx' : Context} {e : ExecError}
    (hr : r.Over ds) (h : r.resume v cx = (.error e, cx')) :
    (∃ body opcode args, body.isStandard = true ∧ Body.run body opcode args cx = (.error e, cx')) ∨
      ∃ d ∈ ds, cx.scene.bodyOf? d.signature = none ∧ e = .missingBody d.signature := by
  have henter : ∀ {b d args}, d ∈ ds → enterBody b d args cx = (.error e, cx') →
      ∃ d ∈ ds, cx.scene.bodyOf? d.signature = none ∧ e = .missingBody d.signature := by
    intro b d args hd h
    rw [enterBody] at h
    split at h
    · rename_i hnone
      cases h
      exact ⟨d, hd, hnone, rfl⟩
    · cases h
  cases r with
  | gather b body waiting rest args =>
    simp only [resume] at h
    split at h
    · cases h
    · split at h
      · cases h
      · rename_i hrun
        cases h
        exact .inl ⟨body, _, _, hr.2.1, hrun⟩
  | call b d phase =>
    refine .inr ?_
    cases phase with
    | arguments waiting rest args =>
      simp only [resume] at h
      split at h
      · cases h
      · rw [guardCall] at h
        split at h
        · cases h
        · exact henter hr.2 h
    | enter args => exact henter hr.2 h
    | leave => cases h
  | stack rest => cases rest <;> cases h
  | repeatTimes b phase => cases phase <;> cases h
  | forever b inBody => cases inBody <;> cases h
  | branch b hasElse phase =>
    simp only [resume] at h
    repeat' split at h
    all_goals cases h
  | repeatUntil b hasBody phase =>
    simp only [resume] at h
    repeat' split at h
    all_goals cases h
  | relay | ask | askAtOnce | fence => cases h

namespace Machine

variable {fenced : Prop} {m m' : Machine} {e : ExecError}

/-- Suspending fails inside a fence only. -/
theorem Over.suspend_error (hm : m.Over ds fenced) {slice : Slice} {reason : String}
    (h : m.suspend slice reason = .halt (.error e) m') :
    fenced ∧ e.isProtocolViolation = true := by
  obtain ⟨result, heq, hresult⟩ := hm.suspend_eq slice reason
  rw [heq] at h
  cases h
  rcases hresult with hok | ⟨hfenced, -⟩
  · cases hok
  · refine ⟨hfenced, ?_⟩
    rw [suspend] at heq
    split at heq <;> cases heq
    rfl

/-- How a step can fail: by a fault, or inside a fence by a suspension. -/
theorem Over.error (hm : m.Over ds fenced) (hbodies : m.cx.scene.Complete ds)
    (h : m.step = .halt (.error e) m') :
    m.cx.scene.Fault m.cx.target e ∨ fenced ∧ e.isProtocolViolation = true := by
  cases hframes : m.stack.frames with
  | nil =>
    rw [step, hframes] at h
    cases h
  | cons top rest =>
    have hall := hm.frames
    rw [hframes] at hall
    rcases hall top (List.mem_cons_self ..) with htop | ⟨-, opcode, rfl⟩
    · cases hres : top.resume m.stack.resumed m.cx with
      | mk reply cx =>
        cases reply with
        | error e' =>
          rw [step_of_error hframes hres] at h
          cases h
          rcases Routine.resume_error htop hres with ⟨body, opcode, args, hb, hrun⟩ |
            ⟨d, hd, hnone, -⟩
          · exact .inl (Body.fault_of_run hb hrun)
          · have hsome := hbodies d hd
            rw [hnone] at hsome
            cases hsome
        | ok x =>
          obtain ⟨flow, top'⟩ := x
          obtain ⟨hflow, htop'⟩ := Routine.resume_over htop hm.scene.bodies hres
          have houtline := top.resume_outline m.stack.resumed m.cx
          rw [hres] at houtline
          have hm' : Machine.Over ds fenced ⟨⟨top' :: rest, none⟩, cx⟩ := by
            refine ⟨fun r hr => ?_, hm.scene.of_outline houtline⟩
            rcases List.mem_cons.mp hr with rfl | hr
            · exact .inl htop'
            · exact hall r (List.mem_cons_of_mem _ hr)
          rw [step_of_ok hframes hres] at h
          cases flow with
          | done v => cases rest <;> cases h
          | evaluate i =>
            obtain ⟨new, v, heq, -⟩ := evaluate_over hflow (top' :: rest) cx
            rw [follow, heq] at h
            cases h
          | evaluateAtOnce i => cases hflow
          | pause =>
            rw [follow] at h
            split at h
            · cases h
            · exact .inr (hm'.suspend_error h)
          | await a => exact .inr (hm'.suspend_error h)
          | quit => exact .inr (hm'.suspend_error h)
    · rw [step_of_ok hframes rfl] at h
      cases rest <;> cases h

theorem drive_error {fuel : Nat} (hm : m.Over ds fenced) (hbodies : m.cx.scene.Complete ds)
    (h : drive fuel m = some (.error e, m')) :
    m.cx.scene.Fault m.cx.target e ∨ fenced ∧ e.isProtocolViolation = true := by
  have hnext : ∀ x x' : Machine, (x.Over ds fenced ∧ x.cx.target = m.cx.target ∧
      x.cx.scene.outline = m.cx.scene.outline) → x.step = .next x' →
      x'.Over ds fenced ∧ x'.cx.target = m.cx.target ∧
        x'.cx.scene.outline = m.cx.scene.outline := by
    rintro x x' ⟨hx, htarget, houtline⟩ hstep
    have hl := leads_step hx
    have hstays := x.stays_step
    have houtline' := x.step_outline
    rw [hstep] at hl hstays houtline'
    exact ⟨hl.1, hstays.target.trans htarget, houtline'.trans houtline⟩
  obtain ⟨last, ⟨hlast, htarget, houtline⟩, hhalt⟩ := drive_induction hnext ⟨hm, rfl, rfl⟩ h
  rcases hlast.error (hbodies.of_outline houtline) hhalt with hfault | hviolation
  · rw [htarget] at hfault
    exact .inl (hfault.of_outline houtline.symm)
  · exact .inr hviolation

end Machine

/-! ### Threads and edge hats -/

/-- A thread over the vocabulary, on a target that is there, fails by a fault of its program only. -/
theorem Thread.Over.fault {t t' : Thread} {fuel : Nat} {w w' : World} {e : ExecError}
    (ht : t.Over ds) (hw : w.scene.Over ds) (hbodies : w.scene.Complete ds)
    (htarget : (w.scene.target? t.target).isSome) (h : t.step fuel w = some (.error e, t', w')) :
    w.scene.Fault t.target e := by
  have hrun : t.status = .running := by
    by_contra hrest
    rw [step_of_resting hrest] at h
    cases h
  have hknown : (w.scene.target? t.target).isNone = false := by
    rw [Option.isNone_eq_false_iff]
    exact htarget
  rw [step_of_running hrun hknown] at h
  obtain ⟨⟨result, m⟩, hdrive, heq⟩ := Option.map_eq_some_iff.mp h
  have hm : (t.machine w).Over ds False := ⟨fun r hr => .inl (ht.frames r hr), hw⟩
  rcases result with e' | slice
  · cases heq
    exact (Machine.drive_error hm hbodies hdrive).resolve_right fun hf => hf.1
  · cases heq

theorem Interpreter.checkEdge_error {s s' : Interpreter} {fuel target : Nat} {script : Script}
    {e : ExecError} (hscript : script.Over ds) (hs : s.world.scene.Over ds)
    (hbodies : s.world.scene.Complete ds)
    (h : s.checkEdge fuel target script = some (.error e, s')) :
    s.world.scene.Fault target e ∨ e.isProtocolViolation = true := by
  obtain ⟨result, m, hdrive, -, herror⟩ := checkEdge_cases h
  cases herror e rfl
  have htop : script.top.Over ds := hscript _ (List.mem_cons_self ..)
  obtain ⟨new, v, heq, hnew⟩ := Machine.evaluate_over (.block htop) [.fence script.top.opcode]
    { world := s.world, target }
  rw [Machine.evaluateAtOnce, heq] at hdrive
  have hm : Machine.Over ds True ⟨⟨new ++ [.fence script.top.opcode], v⟩,
      { world := s.world, target }⟩ := by
    refine ⟨fun r hr => ?_, hs⟩
    rcases List.mem_append.mp hr with hr | hr
    · exact .inl (hnew r hr)
    · exact .inr ⟨trivial, _, List.mem_singleton.mp hr⟩
  exact (Machine.drive_error hm hbodies hdrive).imp_right And.right

/-! ### Sessions that keep to the scene -/

/-- The thread runs a program over the vocabulary of the scene, on a target of the scene. -/
structure Thread.Belongs (scene : Scene) (t : Thread) : Prop where
  program : t.Over scene.declarations
  target : (scene.target? t.target).isSome

namespace Thread.Belongs

variable {scene : Scene} {t t' : Thread} {w : World}

theorem poll (ht : t.Belongs scene) (signals : Signals) : (t.poll signals).2.Belongs scene := by
  refine ⟨(sameFrames_poll signals t).over ht.program, ?_⟩
  rw [(same_poll signals t).target]
  exact ht.target

theorem does (ht : t.Belongs scene) (hw : w.scene.Over scene.declarations) (h : t.Does w t') :
    t'.Belongs scene := by
  refine ⟨?_, by rw [h.same.target]; exact ht.target⟩
  cases h with
  | nothing => exact ht.program
  | step hstep =>
    by_cases hrun : t.status = .running
    · exact (step_stepped ht.program hw hrun hstep).known
    · rw [step_of_resting hrun] at hstep
      cases hstep
      exact ht.program
  | poll => exact (ht.poll w.signals).program
  | restart payload _ => exact ht.program.restart payload
  | retire => exact ht.program.finish none

end Thread.Belongs

theorem Act.onlooker_outline {s s' : Interpreter} (h : Act .onlooker s s') :
    s'.world.scene.outline = s.world.scene.outline := by
  cases h with
  | slice _ _ hstep => exact Thread.step_outline hstep
  | edge _ hcheck => exact Interpreter.checkEdge_outline hcheck
  | other _ _ hscene => rw [hscene.resolve_right id]
  | poll | launch | restart | stopOthers | stopAll | compact | handle => rfl

namespace Interpreter

/-- The interpreter runs the scene: it has the outline of the scene, and every thread belongs there. -/
structure Within (scene : Scene) (s : Interpreter) : Prop where
  outline : s.world.scene.outline = scene.outline
  ordered : s.Ordered
  threads : ∀ t ∈ s.threads, t.Belongs scene

variable {scene : Scene} {s s' : Interpreter}

theorem Within.over (hs : s.Within scene) (hscene : scene.Sound) :
    s.world.scene.Over scene.declarations := hscene.blocks.of_outline hs.outline

theorem Within.scripts (hs : s.Within scene) : s.world.scene.scripts = scene.scripts := by
  rw [Scene.scripts_eq, Scene.scripts_eq, hs.outline]

theorem Within.act (hscene : scene.Sound) (hs : s.Within scene) (h : Act .onlooker s s') :
    s'.Within scene := by
  refine ⟨h.onlooker_outline.trans hs.outline, hs.ordered.follows h.follows, fun t' ht' => ?_⟩
  cases h.begets hs.ordered ht' with
  | does ht hdoes => exact (hs.threads _ ht).does (hs.over hscene) hdoes
  | handled _ hhandles _ => exact hhandles.elim
  | @launched target script payload hscript =>
    have hmem := hscript.resolve_right id
    rw [hs.scripts] at hmem
    obtain ⟨t, ht, -⟩ := Scene.mem_scripts.mp hmem
    exact ⟨Thread.over_launch (hscene.blocks.scripts _ hmem) _ _ _, Option.isSome_of_eq_some ht⟩

theorem Within.acts (hscene : scene.Sound) (hs : s.Within scene) (h : Acts .onlooker s s') :
    s'.Within scene := h.keeps (fun hs hact => hs.act hscene hact) hs

theorem Session.within (hscene : scene.Sound) (h : s.Session .onlooker scene) :
    s.Within scene := by
  obtain ⟨clock, settings, hacts⟩ := h.acts
  have hfresh : (Interpreter.fresh scene clock settings).Within scene :=
    ⟨rfl, ordered_fresh scene clock settings, fun _ ht => absurd ht List.not_mem_nil⟩
  exact hfresh.acts hscene hacts

/-- The error that ends the call is that of a slice of the thread. -/
inductive FailsOn (fuel : Nat) (budget : Budget) (s : Interpreter) (e : ExecError) (t : Thread) :
    Prop
  | intro {report : Report} {s₁ s₂ : Interpreter} {log : List Turn} {u : Turn} :
      s.BeginsRound fuel budget report s₁ → s₁.Turns fuel 0 (log ++ [u]) s₂ →
      u.failure? = some e → u.before.threads[u.position]? = some t → FailsOn fuel budget s e t

theorem Takes.fault {fuel i : Nat} {u : Turn} {e : ExecError} (h : s.Takes fuel i u)
    (he : u.failure? = some e) (hscene : scene.Sound) (hbodies : scene.Complete scene.declarations)
    (hs : s.Within scene) :
    ∃ t, u.before.threads[u.position]? = some t ∧ scene.Fault t.target e := by
  obtain ⟨t, t', w, ht, -, hstep, -, -⟩ := h.fails he
  obtain ⟨hbefore, hposition⟩ := h.before_eq
  refine ⟨t, by rw [hbefore, hposition]; exact ht, ?_⟩
  have hbelongs : (s.polled t).Belongs scene := by
    have ht' := hs.threads t (List.mem_of_getElem? ht)
    rw [polled]
    split
    · exact ht'.poll _
    · exact ht'
  have hknown : (s.world.scene.target? (s.polled t).target).isSome := by
    rw [Scene.isSome_target?_of_outline hs.outline]
    exact hbelongs.target
  have hfault := hbelongs.program.fault (hs.over hscene) (hbodies.of_outline hs.outline) hknown hstep
  rw [(s.same_polled t).target] at hfault
  exact hfault.of_outline hs.outline.symm

/-- The error of a frame is a fault of the thread that ends it. -/
theorem Within.stepThreads_error {fuel : Nat} {budget : Budget} {e : ExecError} (hscene : scene.Sound)
    (hbodies : scene.Complete scene.declarations) (hs : s.Within scene)
    (h : s.stepThreads fuel budget = some (.error e, s')) :
    ∃ t, s.FailsOn fuel budget e t ∧ scene.Fault t.target e := by
  obtain ⟨report, s₁, active, finished, log, u, s₂, hbegins, -, hlog, hfails, -⟩ := stepThreads_fails h
  obtain ⟨hbefore, htakes, -⟩ := hlog.split
  have hwithin := hs.acts hscene (CarefulActs.acts (hbegins.careful.trans hbefore.careful))
  obtain ⟨t, ht, hfault⟩ := htakes.fault hfails hscene hbodies hwithin
  exact ⟨t, .intro hbegins hlog hfails ht, hfault⟩

/-- The error of an edge hat is a fault of its script, or says that it tries to suspend. -/
theorem Within.checkEdges_error {fuel : Nat} {e : ExecError} (hscene : scene.Sound)
    (hbodies : scene.Complete scene.declarations) :
    ∀ {scripts : List (Nat × Script)} {s s' : Interpreter}, s.Within scene →
      (∀ x ∈ scripts, x ∈ scene.scripts) → checkEdges fuel scripts s = some (.error e, s') →
      ∃ x ∈ scripts, scene.Fault x.1 e ∨ e.isProtocolViolation = true
  | [], _, _, _, _, h => by cases h
  | (target, script) :: rest, s, s', hs, hscripts, h => by
    have hscript := hscripts _ (List.mem_cons_self ..)
    rw [checkEdges] at h
    obtain ⟨⟨value, s₁⟩, hcheck, h⟩ := Option.bind_eq_some_iff.mp h
    cases value with
    | error e' =>
      cases h
      have herror := checkEdge_error (hscene.blocks.scripts _ hscript) (hs.over hscene)
        (hbodies.of_outline hs.outline) hcheck
      exact ⟨_, List.mem_cons_self .., herror.imp_left (·.of_outline hs.outline.symm)⟩
    | ok value =>
      obtain ⟨⟨result, s₂⟩, hrest, heq⟩ := Option.map_eq_some_iff.mp h
      have hs₁ : s₁.Within scene := by
        refine hs.act hscene (.edge ?_ hcheck)
        rw [hs.scripts]
        exact hscript
      have hs₂ : (s₁.noteEdge target script value).2.Within scene := by
        refine hs₁.acts hscene (noteEdge_careful ?_ value).acts
        rw [hs₁.scripts]
        exact hscript
      cases result with
      | ok ids => cases heq
      | error e' =>
        cases heq
        have hmore := fun x hx => hscripts x (List.mem_cons_of_mem _ hx)
        obtain ⟨x, hx, herror⟩ := checkEdges_error hscene hbodies hs₂ hmore hrest
        exact ⟨x, List.mem_cons_of_mem _ hx, herror⟩

theorem Within.startEdgeHats_error {fuel : Nat} {e : ExecError} (hscene : scene.Sound)
    (hbodies : scene.Complete scene.declarations) (hs : s.Within scene)
    (h : s.startEdgeHats fuel = some (.error e, s')) :
    ∃ x ∈ edgeScripts s.world.scene, scene.Fault x.1 e ∨ e.isProtocolViolation = true := by
  obtain ⟨⟨result, s₁⟩, hcheck, heq⟩ := Option.map_eq_some_iff.mp h
  cases result with
  | ok ids => cases heq
  | error e' =>
    cases heq
    refine hs.checkEdges_error hscene hbodies (fun x hx => ?_) hcheck
    rw [← hs.scripts]
    exact (List.mem_filter.mp hx).1

end Interpreter

/-- A valid scene fails by the faults of its programs only.  Take a scene that is made of its own blocks
and is valid, and a session whose host keeps to that scene.  If a frame ends with an error, it is a fault
of the thread that ends it: a variable or list that neither its target nor the stage has, or an unknown
option of `control_stop` or `looks_costumenumbername`.  Checking the edge hats, which may also try to
suspend, never misses the body of a custom block or a target. -/
theorem valid_scene_fails_by_faults {scene : Scene} {s : Interpreter} (hmade : scene.Made)
    (hvalid : scene.validate = .ok ()) (hs : s.Session .onlooker scene) :
    (∀ fuel budget e s', s.stepThreads fuel budget = some (.error e, s') →
      ∃ t, s.FailsOn fuel budget e t ∧ scene.Fault t.target e) ∧
    ∀ fuel e s', s.startEdgeHats fuel = some (.error e, s') →
      (∀ signature, e ≠ .missingBody signature) ∧ ∀ target, e ≠ .unknownTarget target := by
  have hscene := hmade.sound
  have hbodies : scene.Complete scene.declarations := fun d hd => Scene.bodyOf?_of_validate hvalid hd
  have hwithin := hs.within hscene
  refine ⟨fun fuel budget e s' h => hwithin.stepThreads_error hscene hbodies h, fun fuel e s' h => ?_⟩
  constructor
  · rintro signature rfl
    obtain ⟨x, -, hfault | hviolation⟩ := hwithin.startEdgeHats_error hscene hbodies h
    · cases hfault
    · cases hviolation
  · rintro target rfl
    obtain ⟨x, -, hfault | hviolation⟩ := hwithin.startEdgeHats_error hscene hbodies h
    · cases hfault
    · cases hviolation

/-- A custom block without inputs. -/
def Declaration.leap : Declaration := ⟨"leap", "leap", [], false⟩

def Prototype.leap : Prototype :=
  { opcode := "leap", inputs := [], operation := .call .leap, returns := none, isPure := false,
    hat := none }

/-- Calls the custom block when the green flag is clicked. -/
def Script.leaping : Script :=
  ⟨.mk (Library.eventHat "event_whenflagclicked" [] ((Hat.event Trigger.flagEvent).restarting true))
    "flag" 0 [], [.mk .leap "call" 1 []]⟩

/-- Sets a variable. -/
def Block.rise : Block :=
  .mk (Library.command "data_setvariableto" [("VARIABLE", .field), ("VALUE", .any)] .setVariable)
    "rise" 2 [("VARIABLE", .literal (.str "height")), ("VALUE", .literal (.bool true))]

/-- A scene in which the custom block sets a variable that nobody has. -/
def Scene.leaping : Scene :=
  { targets := [{ Target.stage with scripts := [.leaping] }]
    stage := some 0
    registry := { prototypes := Library.registry.prototypes ++ [("leap", .leap)] }
    procedures := [⟨.leap, some [.rise]⟩] }

theorem Scene.leaping_made : leaping.Made := by
  have hdeclare : Scene.declare { registry := Library.registry } .leap = .ok
    { registry := leaping.registry, procedures := [⟨.leap, none⟩] } := rfl
  have htarget : Scene.addTarget { registry := leaping.registry, procedures := [⟨.leap, none⟩] }
    { Target.stage with scripts := [.leaping] } =
      .ok (0, { leaping with procedures := [⟨.leap, none⟩] }) := rfl
  have hdefine : Scene.define { leaping with procedures := [⟨.leap, none⟩] } "leap" [.rise] =
    .ok leaping := rfl
  refine .define (.addTarget (.declare .new hdeclare) ?_ htarget) ?_ hdefine
  · have hflag : Block.Built leaping.registry Script.leaping.top :=
      .of_parts rfl (fun _ he => absurd he List.not_mem_nil) rfl
    have hcall : Block.Built leaping.registry (.mk .leap "call" 1 []) :=
      .of_parts rfl (fun _ he => absurd he List.not_mem_nil) rfl
    refine List.forall_mem_singleton.mpr ⟨Script.leaping.blocks, ?_, rfl⟩
    exact List.forall_mem_cons.mpr ⟨hflag, List.forall_mem_singleton.mpr hcall⟩
  · refine List.forall_mem_singleton.mpr (.of_parts rfl ?_ rfl)
    exact List.forall_mem_cons.mpr ⟨.literal _, List.forall_mem_singleton.mpr (.literal _)⟩

/-- A session of the scene in which the green flag has been clicked. -/
def Interpreter.leaping : Interpreter := (Interpreter.fresh .leaping {} {}).greenFlag.2

theorem Interpreter.leaping_session : leaping.Session .onlooker .leaping :=
  @Session.perform _ _ 8 .greenFlag _ _ (.fresh {} {}) trivial rfl

/-- The scene is valid, and its thread fails because it asks for the variable. -/
theorem valid_scene_fails_by_faults_leaping :
    Scene.leaping.Made ∧ Scene.leaping.validate = .ok () ∧
      ∃ s' t, Interpreter.leaping.stepThreads 8 (.rounds 1) =
          some (.error (.unknownVariable "height"), s') ∧
        Interpreter.leaping.FailsOn 8 (.rounds 1) (.unknownVariable "height") t ∧
        Scene.leaping.Fault t.target (.unknownVariable "height") := by
  have hstep : Interpreter.leaping.stepThreads 8 (.rounds 1) =
    some (.error (.unknownVariable "height"), _) := rfl
  obtain ⟨t, hfails, hfault⟩ :=
    (valid_scene_fails_by_faults Scene.leaping_made rfl Interpreter.leaping_session).1 8 (.rounds 1)
      _ _ hstep
  exact ⟨Scene.leaping_made, rfl, _, t, hstep, hfails, hfault⟩

end Blockwork
