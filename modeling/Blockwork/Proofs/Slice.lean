import Blockwork.Proofs.Vocabulary

/-!
What a slice does to the world, as far as waits are concerned.

A body over a vocabulary either begins no signal, or begins one, hands its token to a new delay or
to a broadcast in the outbox, and waits for it.  So a step that goes on is quiet, and only the last
step of a slice can begin a signal.  The induction over the steps of a slice is packaged once, as
`Machine.drive_induction`.
-/

namespace Blockwork

variable {ds : List Declaration}

/-- The tokens of the delays under way. -/
def Timers.tokens (ts : Timers) : List Token := ts.pending.map (·.token)

/-- The program is the same, and no token has been handed out or taken back. -/
structure World.Quiet (w w' : World) : Prop where
  scripts : w'.scene.scripts = w.scene.scripts
  procedures : w'.scene.procedures = w.scene.procedures
  outcomes : w'.signals.outcomes = w.signals.outcomes
  delays : w'.services.timers.tokens = w.services.timers.tokens
  posted : w'.services.outbox.tokens = w.services.outbox.tokens

/-- The program is the same, and one signal has been begun, whose token a new delay or a new effect
holds. -/
structure World.Issues (w w' : World) (t : Token) : Prop where
  scripts : w'.scene.scripts = w.scene.scripts
  procedures : w'.scene.procedures = w.scene.procedures
  fresh : t = w.signals.outcomes.size
  outcomes : w'.signals.outcomes = w.signals.outcomes.push .pending
  held :
    (w'.services.timers.tokens = w.services.timers.tokens ++ [t] ∧
      w'.services.outbox.tokens = w.services.outbox.tokens) ∨
    (w'.services.timers.tokens = w.services.timers.tokens ∧
      w'.services.outbox.tokens = w.services.outbox.tokens ++ [t])

namespace World

theorem Quiet.refl (w : World) : w.Quiet w := ⟨rfl, rfl, rfl, rfl, rfl⟩

theorem Quiet.trans {u v w : World} (h₁ : u.Quiet v) (h₂ : v.Quiet w) : u.Quiet w :=
  ⟨h₂.scripts.trans h₁.scripts, h₂.procedures.trans h₁.procedures, h₂.outcomes.trans h₁.outcomes,
    h₂.delays.trans h₁.delays, h₂.posted.trans h₁.posted⟩

theorem Quiet.issues {u v w : World} {t : Token} (h₁ : u.Quiet v) (h₂ : v.Issues w t) :
    u.Issues w t := by
  refine ⟨h₂.scripts.trans h₁.scripts, h₂.procedures.trans h₁.procedures, ?_, ?_, ?_⟩
  · rw [h₂.fresh, h₁.outcomes]
  · rw [h₂.outcomes, h₁.outcomes]
  · rw [← h₁.delays, ← h₁.posted]
    exact h₂.held

end World

/-! ### The context's own operations -/

theorem Scene.scripts_modifyTarget (s : Scene) (i : Nat) {f : Target → Target}
    (hf : ∀ t, (f t).scripts = t.scripts) : (s.modifyTarget i f).scripts = s.scripts := by
  have key : ∀ targets : List Target,
      (targets.zipIdx.flatMap fun x => x.1.scripts.map (x.2, ·)) =
        (targets.map Target.scripts).zipIdx.flatMap fun x => x.1.map (x.2, ·) := by
    intro targets
    rw [List.zipIdx_map, List.flatMap_map]
    rfl
  have hmap : (s.targets.modify i f).map Target.scripts = s.targets.map Target.scripts := by
    apply List.ext_getElem?
    intro j
    rw [List.getElem?_map, List.getElem?_map, List.getElem?_modify]
    cases s.targets[j]? with
    | none => rfl
    | some t =>
      by_cases hij : i = j
      · simp [hij, hf]
      · simp [hij]
  refine (key (s.targets.modify i f)).trans ?_
  rw [hmap]
  exact (key s.targets).symm

namespace Context

theorem quiet_modifySelf (cx : Context) {f : Target → Target}
    (hf : ∀ t, (f t).scripts = t.scripts) : cx.world.Quiet (cx.modifySelf f).world :=
  ⟨Scene.scripts_modifyTarget _ _ hf, rfl, rfl, rfl, rfl⟩

theorem quiet_requestRedraw (cx : Context) : cx.world.Quiet cx.requestRedraw.world :=
  ⟨rfl, rfl, rfl, rfl, rfl⟩

theorem quiet_redrawIfVisible (cx : Context) : cx.world.Quiet cx.redrawIfVisible.world := by
  rw [redrawIfVisible]
  split
  · exact cx.quiet_requestRedraw
  · exact .refl _

theorem quiet_resetTimer (cx : Context) : cx.world.Quiet cx.resetTimer.world :=
  ⟨rfl, rfl, rfl, rfl, rfl⟩

theorem quiet_post (cx : Context) {e : Effect} (he : e.token? = none) :
    cx.world.Quiet (cx.post e).world := by
  refine ⟨rfl, rfl, rfl, rfl, ?_⟩
  show Outbox.tokens (cx.services.outbox ++ [e]) = Outbox.tokens cx.services.outbox
  rw [Outbox.tokens, List.filterMap_append, List.filterMap_cons_none he, List.filterMap_nil,
    List.append_nil]
  rfl

theorem quiet_setVariable {cx cx' : Context} {name : String} {v : Value}
    (h : cx.setVariable name v = .ok cx') : cx.world.Quiet cx'.world := by
  rw [setVariable] at h
  split at h
  · rename_i scene hs
    cases h
    obtain ⟨j, -, rfl⟩ := Option.map_eq_some_iff.mp hs
    exact ⟨Scene.scripts_modifyTarget _ _ fun _ => rfl, rfl, rfl, rfl, rfl⟩
  · cases h

theorem quiet_setList {cx cx' : Context} {name : String} {items : List Value}
    (h : cx.setList name items = .ok cx') : cx.world.Quiet cx'.world := by
  rw [setList] at h
  split at h
  · rename_i scene hs
    cases h
    obtain ⟨j, -, rfl⟩ := Option.map_eq_some_iff.mp hs
    exact ⟨Scene.scripts_modifyTarget _ _ fun _ => rfl, rfl, rfl, rfl, rfl⟩
  · cases h

end Context

/-! ### Bodies -/

namespace Target

/-- Selecting a costume changes nothing else of a target. -/
theorem nextCostume_eq (t : Target) : ∃ n, t.nextCostume = { t with costume := n } := by
  rw [nextCostume]
  split
  · exact ⟨t.costume, rfl⟩
  · exact ⟨_, rfl⟩

theorem setCostumeNumber_eq (number : Float) (t : Target) :
    ∃ n, t.setCostumeNumber number = { t with costume := n } := by
  rw [setCostumeNumber]
  split
  · exact ⟨t.costume, rfl⟩
  · exact ⟨_, rfl⟩

theorem setCostumeName_eq (name : String) (t : Target) :
    ∃ n, (t.setCostumeName name).2 = { t with costume := n } := by
  rw [setCostumeName]
  split
  · exact ⟨_, rfl⟩
  · exact ⟨t.costume, rfl⟩

theorem switchCostume_eq (v : Value) (t : Target) :
    ∃ n, t.switchCostume v = { t with costume := n } := by
  cases v <;> simp only [switchCostume]
  case num n => exact setCostumeNumber_eq n t
  all_goals
    repeat' split
    all_goals first
      | exact setCostumeName_eq _ t
      | exact nextCostume_eq t
      | exact setCostumeNumber_eq _ t
      | exact ⟨t.costume, rfl⟩

end Target

/-- What a reply waits for. -/
def awaited? : Except ExecError Flow → Option Awaitable
  | .ok (.await a) => some a
  | _ => none

/-- A reply that waits for nothing leaves a quiet world, and one that waits has begun its signal. -/
def World.Answers (w : World) (awaited : Option Awaitable) (w' : World) : Prop :=
  match awaited with
  | none => w.Quiet w'
  | some a => ∃ t, a = .waiting t ∧ w.Issues w' t

namespace Body

theorem answers_command {cx : Context} {x : Except ExecError Context}
    (hx : ∀ cx', x = .ok cx' → cx.world.Quiet cx'.world) :
    cx.world.Answers (awaited? (command cx x).1) (command cx x).2.world := by
  cases x with
  | error e => exact .refl _
  | ok cx' => exact hx cx' rfl

theorem answers_report (cx : Context) (x : Except ExecError Value) :
    cx.world.Answers (awaited? (report cx x).1) (report cx x).2.world := by
  cases x <;> exact .refl _

theorem answers_wait (cx : Context) (length : Nanos) :
    ∃ t, (cx.delay length).1 = .waiting t ∧ cx.world.Issues (cx.delay length).2.world t := by
  refine ⟨_, rfl, rfl, rfl, rfl, rfl, .inl ⟨?_, rfl⟩⟩
  exact List.map_append

theorem answers_broadcastAndWait (cx : Context) (trigger : Trigger) :
    cx.world.Issues (cx.freshSignal.2.post (.broadcast trigger (some cx.freshSignal.1))).world
      cx.freshSignal.1 := by
  refine ⟨rfl, rfl, rfl, rfl, .inr ⟨rfl, ?_⟩⟩
  exact List.filterMap_append

theorem scripts_nextCostume (t : Target) : t.nextCostume.scripts = t.scripts := by
  obtain ⟨n, h⟩ := t.nextCostume_eq
  rw [h]

theorem scripts_switchCostume (v : Value) (t : Target) :
    (t.switchCostume v).scripts = t.scripts := by
  obtain ⟨n, h⟩ := t.switchCostume_eq v
  rw [h]

theorem scripts_motion (m : Motion) (args : Args) (t : Target) :
    (m.apply args t).scripts = t.scripts := by
  cases m <;> rfl

/-- A standard body begins no signal, or waits for the one it begins. -/
theorem run_answers {body : Body} (hb : body.isStandard = true) (opcode : String) (args : Args)
    (cx : Context) :
    cx.world.Answers (awaited? (body.run opcode args cx).1) (body.run opcode args cx).2.world := by
  cases body with
  | extended e => cases hb
  | wait => exact answers_wait cx _
  | broadcastAndWait => exact ⟨_, rfl, answers_broadcastAndWait cx _⟩
  | broadcast => exact cx.quiet_post rfl
  | stop =>
    simp only [run]
    repeat' split
    · exact cx.quiet_post rfl
    · exact .refl _
    · exact cx.quiet_post rfl
    · exact .refl _
  | costumeInfo =>
    simp only [run]
    repeat' split
    all_goals exact .refl _
  | getVariable | itemOfList | lengthOfList => exact answers_report cx _
  | setVariable => exact answers_command fun cx' h => Context.quiet_setVariable h
  | clearList => exact answers_command fun cx' h => Context.quiet_setList h
  | changeVariable =>
    refine answers_command fun cx' h => ?_
    cases hv : cx.getVariable (args.text "VARIABLE") with
    | error e => rw [hv] at h; cases h
    | ok current => rw [hv] at h; exact Context.quiet_setVariable h
  | addToList =>
    refine answers_command fun cx' h => ?_
    cases hv : cx.getList (args.text "LIST") with
    | error e => rw [hv] at h; cases h
    | ok items => rw [hv] at h; exact Context.quiet_setList h
  | motion m =>
    exact (cx.quiet_modifySelf (scripts_motion m args)).trans (Context.quiet_redrawIfVisible _)
  | switchCostume =>
    exact (cx.quiet_modifySelf (scripts_switchCostume _)).trans (Context.quiet_redrawIfVisible _)
  | nextCostume =>
    exact (cx.quiet_modifySelf scripts_nextCostume).trans (Context.quiet_redrawIfVisible _)
  | reveal =>
    exact (cx.quiet_modifySelf (f := fun t => { t with visible := true }) fun _ => rfl).trans
      (Context.quiet_requestRedraw _)
  | hide =>
    exact (cx.quiet_modifySelf (f := fun t => { t with visible := false }) fun _ => rfl).trans
      (Context.quiet_requestRedraw _)
  | resetTimer => exact cx.quiet_resetTimer
  | idle | binary | unary | timerAbove | reading | timer | parameter => exact .refl _

end Body

/-! ### Routines -/

namespace Routine

theorem quiet_enterBody (b : Block) (d : Declaration) (args : Args) (cx : Context) :
    cx.world.Answers (awaited? ((enterBody b d args cx).1.map Prod.fst))
      (enterBody b d args cx).2.world := by
  rw [enterBody]
  split <;> exact .refl _

/-- Resuming a routine begins no signal, or waits for the one it begins. -/
theorem resume_answers {r : Routine} (hr : r.Over ds) (v : Option Value) (cx : Context) :
    cx.world.Answers (awaited? ((r.resume v cx).1.map Prod.fst)) (r.resume v cx).2.world := by
  cases r with
  | gather b body waiting rest args =>
    simp only [resume]
    split
    · exact .refl _
    · rename_i args' _
      have hrun := Body.run_answers hr.2.1 b.opcode args' cx
      split
      · rename_i hreply
        rw [hreply] at hrun
        exact hrun
      · rename_i hreply
        rw [hreply] at hrun
        exact hrun
  | relay => exact .refl _
  | stack rest => cases rest <;> exact .refl _
  | repeatTimes b phase =>
    have hturn : ∀ n, awaited? (.ok (repeatBody b n).1) = none := by
      intro n
      rw [repeatBody]
      split <;> rfl
    cases phase with
    | start | pause => exact .refl _
    | count =>
      simp only [resume, Except.map, hturn]
      exact .refl _
    | body remaining =>
      simp only [resume, Except.map, hturn]
      exact .refl _
  | forever b inBody => cases inBody <;> exact .refl _
  | branch b hasElse phase =>
    cases phase with
    | test | leave => exact .refl _
    | choose =>
      simp only [resume]
      repeat' split
      all_goals exact .refl _
  | repeatUntil b hasBody phase =>
    cases phase with
    | test | body => exact .refl _
    | check =>
      simp only [resume]
      repeat' split
      all_goals exact .refl _
  | call b d phase =>
    cases phase with
    | arguments waiting rest args =>
      simp only [resume]
      split
      · exact .refl _
      · rw [guardCall]
        split
        · exact .refl _
        · exact quiet_enterBody b d _ cx
    | enter args => exact quiet_enterBody b d args cx
    | leave => exact .refl _
  | ask i | askAtOnce i | fence i => cases hr

end Routine

/-! ### Steps -/

/-- Frames and a scene over a vocabulary.  Fences may stand among the frames only if `fenced`. -/
structure Machine.Over (ds : List Declaration) (fenced : Prop) (m : Machine) : Prop where
  frames : ∀ r ∈ m.stack.frames, r.Over ds ∨ fenced ∧ ∃ opcode, r = .fence opcode
  scene : m.cx.scene.Over ds

theorem World.Quiet.over {w w' : World} (h : w.Quiet w') (hw : w.scene.Over ds) :
    w'.scene.Over ds := hw.of_eq h.scripts h.procedures

theorem World.Issues.over {w w' : World} {t : Token} (h : w.Issues w' t) (hw : w.scene.Over ds) :
    w'.scene.Over ds := hw.of_eq h.scripts h.procedures

namespace Machine

variable {fenced : Prop}

/-- Evaluating an input over the vocabulary goes on: it pushes at most one frame, and leaves the
context alone. -/
theorem evaluate_over {i : Input} (hi : i.Over ds) (frames : List Routine) (cx : Context) :
    ∃ new v, evaluate frames i cx = .next ⟨⟨new ++ frames, v⟩, cx⟩ ∧ ∀ r ∈ new, r.Over ds := by
  cases hi with
  | literal v => exact ⟨[], some v, rfl, fun r hr => absurd hr List.not_mem_nil⟩
  | @block b hb =>
    obtain ⟨r, hstart, hr⟩ := hb.start
    refine ⟨[r], none, ?_, ?_⟩
    · simp only [evaluate, hstart]
      rfl
    · intro x hx
      rw [List.mem_singleton.mp hx]
      exact hr
  | @stack bs hbs =>
    cases bs with
    | nil => exact ⟨[], some .null, rfl, fun r hr => absurd hr List.not_mem_nil⟩
    | cons b bs =>
      refine ⟨[.stack (b :: bs)], none, rfl, ?_⟩
      intro x hx
      rw [List.mem_singleton.mp hx]
      exact hbs

/-- How a slice leaves the world: it waits for the one signal it has begun, or has begun none.
Inside a fence the wait is refused, and the signal is left behind. -/
def Ended (fenced : Prop) (w : World) (result : Except ExecError Slice) (w' : World) : Prop :=
  (w.Quiet w' ∧ ∀ a, result ≠ .ok (.awaiting a)) ∨
    ∃ t, w.Issues w' t ∧
      (result = .ok (.awaiting (.waiting t)) ∨ fenced ∧ ∃ e, result = .error e)

/-- What a step of a machine over the vocabulary leads to. -/
def Leads (ds : List Declaration) (fenced : Prop) (w : World) : Step → Prop
  | .next m => m.Over ds fenced ∧ w.Quiet m.cx.world
  | .halt result m => m.Over ds fenced ∧ Ended fenced w result m.cx.world

/-- A machine over the vocabulary is inside a fence only if there may be fences. -/
theorem Over.suspend_eq {m : Machine} (hm : m.Over ds fenced) (slice : Slice) (reason : String) :
    ∃ result, m.suspend slice reason = .halt result m ∧
      (result = .ok slice ∨ fenced ∧ ∃ e, result = .error e) := by
  rw [suspend]
  split
  · rename_i opcode hfence
    obtain ⟨r, hr, hop⟩ := List.exists_of_findSome?_eq_some hfence
    refine ⟨_, rfl, .inr ⟨?_, _, rfl⟩⟩
    rcases hm.frames r hr with hover | ⟨hf, -⟩
    · cases r with
      | fence opcode => exact hover.elim
      | _ => cases hop
    · exact hf
  · exact ⟨_, rfl, .inl rfl⟩

theorem leads_suspend {w : World} {m : Machine} (hm : m.Over ds fenced) {slice : Slice}
    (reason : String)
    (h : (w.Quiet m.cx.world ∧ ∀ a, slice ≠ .awaiting a) ∨
      ∃ t, w.Issues m.cx.world t ∧ slice = .awaiting (.waiting t)) :
    Leads ds fenced w (m.suspend slice reason) := by
  obtain ⟨result, heq, hres⟩ := hm.suspend_eq slice reason
  rw [heq]
  refine ⟨hm, ?_⟩
  rcases h with ⟨hq, hna⟩ | ⟨t, ht, rfl⟩
  · refine .inl ⟨hq, fun a ha => ?_⟩
    rcases hres with rfl | ⟨-, e, rfl⟩
    · cases ha
      exact hna a rfl
    · cases ha
  · exact .inr ⟨t, ht, hres⟩

theorem leads_follow {w : World} {flow : Flow} {top : Routine} {rest : List Routine} {cx : Context}
    (hflow : flow.Over ds) (htop : top.Over ds)
    (hrest : ∀ r ∈ rest, r.Over ds ∨ fenced ∧ ∃ opcode, r = .fence opcode)
    (hw : w.Answers (awaited? (.ok flow)) cx.world) (hcx : cx.scene.Over ds) :
    Leads ds fenced w (follow flow top rest cx) := by
  have hall : ∀ r ∈ top :: rest, r.Over ds ∨ fenced ∧ ∃ opcode, r = .fence opcode := by
    intro r hr
    rcases List.mem_cons.mp hr with rfl | hr
    · exact .inl htop
    · exact hrest r hr
  cases flow with
  | done v =>
    cases rest with
    | nil =>
      exact ⟨⟨fun r hr => absurd hr List.not_mem_nil, hcx⟩, .inl ⟨hw, fun a ha => by cases ha⟩⟩
    | cons r rest => exact ⟨⟨hrest, hcx⟩, hw⟩
  | evaluate i =>
    obtain ⟨new, v, heq, hnew⟩ := evaluate_over hflow (top :: rest) cx
    rw [follow, heq]
    refine ⟨⟨fun r hr => ?_, hcx⟩, hw⟩
    rcases List.mem_append.mp hr with hr | hr
    · exact .inl (hnew r hr)
    · exact hall r hr
  | evaluateAtOnce i => cases hflow
  | pause =>
    simp only [follow]
    split
    · exact ⟨⟨hall, hcx⟩, hw⟩
    · exact leads_suspend ⟨hall, hcx⟩ _ (.inl ⟨hw, fun a ha => by cases ha⟩)
  | await a =>
    obtain ⟨t, rfl, ht⟩ := hw
    exact leads_suspend ⟨hall, hcx⟩ _ (.inr ⟨t, ht, rfl⟩)
  | quit => exact leads_suspend ⟨hall, hcx⟩ _ (.inl ⟨hw, fun a ha => by cases ha⟩)

theorem leads_step {m : Machine} (hm : m.Over ds fenced) :
    Leads ds fenced m.cx.world m.step := by
  rw [step]
  split
  · refine ⟨⟨fun r hr => absurd hr List.not_mem_nil, hm.scene⟩, .inl ⟨.refl _, ?_⟩⟩
    intro a ha
    cases ha
  · rename_i top rest hfr
    have hall := hm.frames
    rw [hfr] at hall
    have hrest := fun r hr => hall r (List.mem_cons_of_mem _ hr)
    rcases hall top (List.mem_cons_self ..) with htop | ⟨-, opcode, rfl⟩
    · have hans := Routine.resume_answers htop m.stack.resumed m.cx
      split
      · rename_i flow top' cx hres
        obtain ⟨hflow, htop'⟩ := Routine.resume_over htop hm.scene.bodies hres
        rw [hres] at hans
        refine leads_follow hflow htop' hrest hans ?_
        cases flow with
        | await a =>
          obtain ⟨t, -, ht⟩ := hans
          exact ht.over hm.scene
        | _ => exact World.Quiet.over hans hm.scene
      · rename_i e cx hres
        rw [hres] at hans
        have hq : m.cx.world.Quiet cx.world := hans
        exact ⟨⟨hall, hq.over hm.scene⟩, .inl ⟨hq, fun a ha => by cases ha⟩⟩
    · show Leads ds fenced m.cx.world (follow (.done (m.stack.resumed.getD .null)) .relay rest m.cx)
      exact leads_follow trivial trivial hrest (.refl _) hm.scene

theorem step_of_ok {m : Machine} {top top' : Routine} {rest : List Routine} {flow : Flow}
    {cx : Context} (h : m.stack.frames = top :: rest)
    (hres : top.resume m.stack.resumed m.cx = (.ok (flow, top'), cx)) :
    m.step = follow flow top' rest cx := by
  rw [step, h]
  simp only [hres]

theorem step_of_error {m : Machine} {top : Routine} {rest : List Routine} {e : ExecError}
    {cx : Context} (h : m.stack.frames = top :: rest)
    (hres : top.resume m.stack.resumed m.cx = (.error e, cx)) :
    m.step = .halt (.error e) ⟨⟨top :: rest, none⟩, cx⟩ := by
  rw [step, h]
  simp only [hres]

/-- The top frame may be resumed: what it asks for and what it becomes is over the vocabulary, and
it leaves the bodies of custom blocks alone. -/
theorem Over.resume {m : Machine} (hm : m.Over ds False) {top : Routine} {rest : List Routine}
    (hframes : m.stack.frames = top :: rest) :
    top.Over ds ∧ ∀ {flow top' cx}, top.resume m.stack.resumed m.cx = (.ok (flow, top'), cx) →
      flow.Over ds ∧ Machine.Over ds False ⟨⟨top' :: rest, none⟩, cx⟩ ∧
        cx.scene.procedures = m.cx.scene.procedures := by
  have hall := fun r hr => (hm.frames r hr).resolve_right fun hf => hf.1
  rw [hframes] at hall
  have htop := hall top (List.mem_cons_self ..)
  refine ⟨htop, fun {flow top' cx} hres => ?_⟩
  obtain ⟨hflow, htop'⟩ := Routine.resume_over htop hm.scene.bodies hres
  have hanswers := Routine.resume_answers htop m.stack.resumed m.cx
  rw [hres] at hanswers
  have hall' : ∀ r ∈ top' :: rest, r.Over ds := by
    intro r hr
    rcases List.mem_cons.mp hr with rfl | hr
    · exact htop'
    · exact hall r (List.mem_cons_of_mem _ hr)
  cases flow with
  | await a =>
    obtain ⟨token, -, hissues⟩ := hanswers
    exact ⟨hflow, ⟨fun r hr => .inl (hall' r hr), hissues.over hm.scene⟩, hissues.procedures⟩
  | _ =>
    have hquiet : World.Quiet _ _ := hanswers
    exact ⟨hflow, ⟨fun r hr => .inl (hall' r hr), hquiet.over hm.scene⟩, hquiet.procedures⟩

/-! ### Slices -/

/-- What holds before a slice and is kept by the steps that go on holds before its last step. -/
theorem drive_induction {I : Machine → Prop} (next : ∀ m m', I m → m.step = .next m' → I m') :
    ∀ {fuel : Nat} {m m' : Machine} {result : Except ExecError Slice}, I m →
      drive fuel m = some (result, m') → ∃ last, I last ∧ last.step = .halt result m'
  | 0, _, _, _, _, h => by cases h
  | fuel + 1, m, m', result, hm, h => by
    rw [drive] at h
    split at h
    · rename_i m₁ hstep
      exact drive_induction next (next m m₁ hm hstep) h
    · rename_i hstep
      cases h
      exact ⟨m, hm, hstep⟩

/-- A slice of a machine over the vocabulary ends over it, and begins a signal only to wait for
it. -/
theorem drive_ended {fuel : Nat} {m m' : Machine} {result : Except ExecError Slice}
    (hm : m.Over ds fenced) (h : drive fuel m = some (result, m')) :
    m'.Over ds fenced ∧ Ended fenced m.cx.world result m'.cx.world := by
  have hnext : ∀ x x' : Machine, (x.Over ds fenced ∧ m.cx.world.Quiet x.cx.world) →
      x.step = .next x' → x'.Over ds fenced ∧ m.cx.world.Quiet x'.cx.world := by
    rintro x x' ⟨hx, hq⟩ hstep
    have hl := leads_step hx
    rw [hstep] at hl
    exact ⟨hl.1, hq.trans hl.2⟩
  obtain ⟨last, ⟨hlast, hq⟩, hhalt⟩ := drive_induction hnext ⟨hm, .refl _⟩ h
  have hl := leads_step hlast
  rw [hhalt] at hl
  refine ⟨hl.1, ?_⟩
  rcases hl.2 with ⟨hq', hna⟩ | ⟨t, ht, hres⟩
  · exact .inl ⟨hq.trans hq', hna⟩
  · exact .inr ⟨t, hq.issues ht, hres⟩

end Machine

/-! ### Threads -/

/-- The script of a thread and its frames are over the vocabulary. -/
structure Thread.Over (ds : List Declaration) (t : Thread) : Prop where
  script : t.script.Over ds
  frames : ∀ r ∈ t.stack.frames, r.Over ds

namespace Thread

theorem over_launch {script : Script} (h : script.Over ds) (id target : Nat)
    (payload : Option Value) : (launch id script target payload).Over ds := by
  refine ⟨h, fun r hmem => ?_⟩
  rw [List.mem_singleton.mp hmem]
  exact h.body

theorem Over.restart {t : Thread} (h : t.Over ds) (payload : Option Value) :
    (t.restart payload).Over ds := by
  refine ⟨h.script, fun r hr => ?_⟩
  rw [List.mem_singleton.mp hr]
  exact h.script.body

theorem Over.finish {t : Thread} (h : t.Over ds) (result : Option Value) :
    (t.finish result).Over ds :=
  ⟨h.script, fun _ hr => absurd hr List.not_mem_nil⟩

/-- A poll that finds nothing leaves the thread as it is. -/
theorem poll_of_pending {t : Thread} {s : Signals} {generation : Nat} {token : Token}
    (hp : t.pending = some ⟨generation, .waiting token⟩)
    (h : ∀ v, s.outcome token ≠ .settled v) : t.poll s = (false, t) := by
  cases t
  simp only at hp
  subst hp
  simp only [poll, Awaitable.poll]
  cases ho : s.outcome token with
  | settled v => exact absurd ho (h v)
  | pending => rfl
  | abandoned => rfl

/-- A poll that finds a value resumes a thread that is parked in the same generation. -/
theorem poll_of_settled {t : Thread} {s : Signals} {token : Token} {v : Value}
    (hs : t.status = .parked) (hp : t.pending = some ⟨t.generation, .waiting token⟩)
    (h : s.outcome token = .settled v) :
    t.poll s = (true, { t with
      status := .running, pending := none, stack := { t.stack with resumed := some v } }) := by
  simp only [poll, hp, Awaitable.poll, h, resolve, hs, ne_eq, not_true_eq_false, or_self,
    if_false]

/-- The machine that a step of the thread drives. -/
def machine (t : Thread) (w : World) : Machine :=
  ⟨t.stack, { world := w, target := t.target, calls := t.calls, payload := t.payload,
              thread := some t.id }⟩

theorem step_of_running {t : Thread} {w : World} (hr : t.status = .running)
    (ht : (w.scene.target? t.target).isNone = false) (fuel : Nat) :
    t.step fuel w = (Machine.drive fuel (t.machine w)).map fun x =>
      (x.1.map fun _ => (t.absorb x.1 x.2).status, t.absorb x.1 x.2, x.2.cx.world) := by
  rw [step, hr, ht]
  rfl

/-- A thread that does not run is left as it is. -/
theorem step_of_resting {t : Thread} (hr : t.status ≠ .running) (fuel : Nat) (w : World) :
    t.step fuel w = some (.ok t.status, t, w) := by
  rw [step, if_pos hr]

/-- A step on a target that is not there fails. -/
theorem step_of_unknown {t : Thread} {w : World} (hr : t.status = .running)
    (ht : (w.scene.target? t.target).isNone = true) (fuel : Nat) :
    t.step fuel w = some (.error (.unknownTarget t.target), t.finish none, w) := by
  rw [step, hr, ht]
  rfl

/-- What a slice makes of a thread. -/
structure Stepped (ds : List Declaration) (t : Thread) (w : World) (t' : Thread) (w' : World) :
    Prop where
  known : t'.Over ds
  id : t'.id = t.id
  script : t'.script = t.script
  target : t'.target = t.target
  generation : t'.generation = t.generation
  waits :
    (t'.status ≠ .parked ∧ w.Quiet w') ∨
    ∃ token, t'.status = .parked ∧ t'.pending = some ⟨t'.generation, .waiting token⟩ ∧
      w.Issues w' token

/-- A thread that waits for a signal begun in its slice is parked. -/
theorem absorb_awaiting (t : Thread) {w : World} {m : Machine} {token : Token}
    (h : w.Issues m.cx.world token) :
    t.absorb (.ok (.awaiting (.waiting token))) m =
      { t with stack := m.stack, calls := m.cx.calls, status := .parked,
               pending := some ⟨t.generation, .waiting token⟩ } := by
  -- the signal has just been begun, so the first look finds nothing
  have hout : ∀ v, m.cx.world.signals.outcome token ≠ .settled v := by
    intro v hv
    rw [Signals.outcome, h.outcomes, h.fresh, Array.getElem?_push_size] at hv
    cases hv
  exact congrArg Prod.snd (poll_of_pending rfl hout)

theorem absorb_stepped {t : Thread} {w : World} {result : Except ExecError Slice} {m : Machine}
    (hr : t.status = .running) (ht : t.Over ds) (hm : m.Over ds False)
    (hend : Machine.Ended False w result m.cx.world) :
    t.Stepped ds w (t.absorb result m) m.cx.world := by
  have hframes : ∀ r ∈ m.stack.frames, r.Over ds :=
    fun r hr => (hm.frames r hr).resolve_right fun h => h.1
  rcases hend with ⟨hq, hna⟩ | ⟨token, hiss, rfl | ⟨hf, -⟩⟩
  · rcases result with e | slice
    · exact ⟨ht.finish none, rfl, rfl, rfl, rfl, .inl ⟨Status.noConfusion, hq⟩⟩
    · cases slice with
      | finished v => exact ⟨ht.finish v, rfl, rfl, rfl, rfl, .inl ⟨Status.noConfusion, hq⟩⟩
      | exited => exact ⟨ht.finish none, rfl, rfl, rfl, rfl, .inl ⟨Status.noConfusion, hq⟩⟩
      | yielded =>
        refine ⟨⟨ht.script, hframes⟩, rfl, rfl, rfl, rfl, .inl ⟨?_, hq⟩⟩
        show t.status ≠ .parked
        rw [hr]
        exact Status.noConfusion
      | awaiting a => exact absurd rfl (hna a)
  · rw [absorb_awaiting t hiss]
    exact ⟨⟨ht.script, hframes⟩, rfl, rfl, rfl, rfl, .inr ⟨token, rfl, rfl, hiss⟩⟩
  · exact hf.elim

theorem step_stepped {t t' : Thread} {w w' : World} {fuel : Nat}
    {outcome : Except ExecError Status} (ht : t.Over ds) (hw : w.scene.Over ds)
    (hr : t.status = .running) (h : t.step fuel w = some (outcome, t', w')) :
    t.Stepped ds w t' w' := by
  cases hknown : (w.scene.target? t.target).isNone with
  | true =>
    rw [step_of_unknown hr hknown] at h
    cases h
    exact ⟨ht.finish none, rfl, rfl, rfl, rfl, .inl ⟨Status.noConfusion, .refl _⟩⟩
  | false =>
    rw [step_of_running hr hknown] at h
    obtain ⟨⟨result, m⟩, hdrive, heq⟩ := Option.map_eq_some_iff.mp h
    cases heq
    have hm : (t.machine w).Over ds False := ⟨fun r hr => .inl (ht.frames r hr), hw⟩
    obtain ⟨hover, hend⟩ := Machine.drive_ended hm hdrive
    exact absorb_stepped hr ht hover hend

end Thread

end Blockwork
