import Blockwork.Proofs.Slice
import Mathlib.Logic.Relation

/-!
Runs of an interpreter, command by command and moment by moment.

A host drives an interpreter by commands.  Carrying out one takes many stages: a thread is polled or
runs a slice, one effect is carried out, the finished threads are taken out, and so on.  A moment is
what there is between two stages: the interpreter, and the effects that have been taken from the
outbox and not been carried out yet.  `perform_stages` says that each command is a run of stages, so
what every stage keeps holds at every moment of every session.
-/

namespace Blockwork

open Relation

/-! ### Commands -/

/-- What a host does with an interpreter. -/
inductive Command where
  | launch (script : Script) (target : Nat) (payload : Option Value) (restart : Bool)
  | trigger (t : Trigger)
  | greenFlag
  | stopAll
  | startEdgeHats
  | stepThreads (budget : Interpreter.Budget)
  | tick (budget : Interpreter.Budget)
  | setClock (clock : Clock)
  | configure (settings : SchedulerSettings)
  | retire (thread : Nat)
  | restart (thread : Nat) (payload : Option Value)

/-- The scripts that a host launches itself are over the vocabulary too. -/
def Command.Over (ds : List Declaration) : Command → Prop
  | .launch script .. => script.Over ds
  | _ => True

namespace Interpreter

/-- An interpreter for a scene, at the start of a session. -/
def fresh (scene : Scene) (clock : Clock) (settings : SchedulerSettings) : Interpreter :=
  { world := { scene, clock, services := { timers := { origin := clock.now } } }, settings }

/-- Carries out a command, whether it reports a failure or not.  The fuel bounds its work. -/
def perform (fuel : Nat) (s : Interpreter) : Command → Option Interpreter
  | .launch script target payload restart => some (s.launch script target payload restart).2
  | .trigger t => some (s.trigger t).2
  | .greenFlag => some s.greenFlag.2
  | .stopAll => some s.stopAll
  | .startEdgeHats => (s.startEdgeHats fuel).map Prod.snd
  | .stepThreads budget => (s.stepThreads fuel budget).map Prod.snd
  | .tick budget => (s.tick fuel budget).map Prod.snd
  | .setClock clock => some { s with world := { s.world with clock } }
  | .configure settings => some { s with settings }
  | .retire thread => some (s.modifyThread thread Thread.retire)
  | .restart thread payload => some (s.modifyThread thread (Thread.restart payload))

/-- Carries out commands one after another. -/
def performAll (fuel : Nat) : List Command → Interpreter → Option Interpreter
  | [], s => some s
  | c :: cs, s => (s.perform fuel c).bind (performAll fuel cs)

/-- The states between two commands of a session with a scene over the vocabulary. -/
inductive Reached (ds : List Declaration) : Interpreter → Prop
  | fresh {scene : Scene} (clock : Clock) (settings : SchedulerSettings) :
      scene.Over ds → Reached ds (.fresh scene clock settings)
  | perform {fuel : Nat} {c : Command} {s s' : Interpreter} :
      Reached ds s → c.Over ds → s.perform fuel c = some s' → Reached ds s'

theorem Reached.performAll {ds : List Declaration} {fuel : Nat} {cs : List Command}
    {s s' : Interpreter} (hs : s.Reached ds) (hcs : ∀ c ∈ cs, c.Over ds)
    (h : s.performAll fuel cs = some s') : s'.Reached ds := by
  induction cs generalizing s with
  | nil =>
    cases h
    exact hs
  | cons c cs ih =>
    obtain ⟨s₁, hc, hrest⟩ := Option.bind_eq_some_iff.mp h
    exact ih (hs.perform (hcs c (List.mem_cons_self ..)) hc)
      (fun c' hc' => hcs c' (List.mem_cons_of_mem _ hc')) hrest

/-- The interpreter with other values for what neither threads nor waits depend on. -/
def adjust (edges : EdgeMemory) (settings : SchedulerSettings) (clock : Clock) (origin : Nanos)
    (redraw : Bool) (s : Interpreter) : Interpreter :=
  { s with
    edges
    settings
    world := { s.world with
      clock
      services := { s.world.services with
        redraw
        timers := { s.world.services.timers with origin } } } }

end Interpreter

/-! ### Stages -/

/-- An interpreter at work, and the effects that it has taken from the outbox and not carried out
yet. -/
structure Moment where
  queue : List Effect
  state : Interpreter

/-- The moment at which the outbox has been emptied and nothing of it carried out. -/
def Moment.taking (s : Interpreter) : Moment :=
  ⟨s.world.services.outbox,
    { s with world := { s.world with services := { s.world.services with outbox := [] } } }⟩

/-- One stage of the work on a command. -/
inductive Stage (ds : List Declaration) : Moment → Moment → Prop
  /-- A parked thread looks at what it waits for. -/
  | poll {s : Interpreter} {i : Nat} {t : Thread} :
      s.threads[i]? = some t → t.status = .parked →
      Stage ds ⟨[], s⟩ ⟨[], { s with threads := s.threads.set i (t.poll s.world.signals).2 }⟩
  /-- A running thread runs a slice. -/
  | slice {s : Interpreter} {i fuel : Nat} {t t' : Thread} {w : World}
      {outcome : Except ExecError Status} :
      s.threads[i]? = some t → t.status = .running →
      t.step fuel s.world = some (outcome, t', w) →
      Stage ds ⟨[], s⟩ (.taking { s with threads := s.threads.set i t', world := w })
  /-- What an edge pass has put in the outbox is taken up. -/
  | take (s : Interpreter) : Stage ds ⟨[], s⟩ (.taking s)
  | effect (e : Effect) (queue : List Effect) (s : Interpreter) :
      Stage ds ⟨e :: queue, s⟩ ⟨queue, s.applyEffect e⟩
  | compact (s : Interpreter) : Stage ds ⟨[], s⟩ ⟨[], s.compact.2⟩
  | settle (s : Interpreter) : Stage ds ⟨[], s⟩ ⟨[], s.settleWatchers⟩
  | fire (s : Interpreter) : Stage ds ⟨[], s⟩ ⟨[], { s with world := s.world.fireDue.2 }⟩
  | edge {s s' : Interpreter} {fuel target : Nat} {script : Script} {r : Except ExecError Bool} :
      script.Over ds → s.checkEdge fuel target script = some (r, s') →
      Stage ds ⟨[], s⟩ ⟨[], s'⟩
  | launch {script : Script} (target : Nat) (payload : Option Value) (restart : Bool)
      (s : Interpreter) :
      script.Over ds → Stage ds ⟨[], s⟩ ⟨[], (s.launch script target payload restart).2⟩
  | trigger (t : Trigger) (s : Interpreter) : Stage ds ⟨[], s⟩ ⟨[], (s.trigger t).2⟩
  | stopAll (s : Interpreter) : Stage ds ⟨[], s⟩ ⟨[], s.stopAll⟩
  | retire (id : Nat) (s : Interpreter) :
      Stage ds ⟨[], s⟩ ⟨[], s.modifyThread id Thread.retire⟩
  | restart (id : Nat) (payload : Option Value) (s : Interpreter) :
      Stage ds ⟨[], s⟩ ⟨[], s.modifyThread id (Thread.restart payload)⟩
  | adjust (edges : EdgeMemory) (settings : SchedulerSettings) (clock : Clock) (origin : Nanos)
      (redraw : Bool) (s : Interpreter) :
      Stage ds ⟨[], s⟩ ⟨[], s.adjust edges settings clock origin redraw⟩

/-- A run of stages. -/
abbrev Stages (ds : List Declaration) : Moment → Moment → Prop := ReflTransGen (Stage ds)

/-- The moments of a session with a scene over the vocabulary. -/
def Moment.Reached (ds : List Declaration) (m : Moment) : Prop :=
  ∃ scene clock settings, scene.Over ds ∧ Stages ds ⟨[], .fresh scene clock settings⟩ m

/-! ### Commands are runs of stages -/

namespace Interpreter

variable {ds : List Declaration}

/-- What holds once the outbox has been emptied and is kept by every effect holds after all effects. -/
theorem applyEffects_induction {P : Interpreter → Prop} {s : Interpreter}
    (htaken : P (Moment.taking s).state) (heffect : ∀ s e, P s → P (s.applyEffect e)) :
    P s.applyEffects :=
  List.foldlRecOn s.world.services.outbox applyEffect htaken fun s hs e _ => heffect s e hs

theorem applyEffects_stages (s : Interpreter) : Stages ds (.taking s) ⟨[], s.applyEffects⟩ := by
  have hfold : ∀ (effects : List Effect) (s : Interpreter),
      Stages ds ⟨effects, s⟩ ⟨[], effects.foldl applyEffect s⟩ := by
    intro effects
    induction effects with
    | nil => intro s; exact .refl
    | cons e rest ih => intro s; exact .head (.effect e rest s) (ih (s.applyEffect e))
  exact hfold _ _

/-- A poll, if the thread is parked, puts the polled thread where the thread stood. -/
theorem poll_stages {s : Interpreter} {i : Nat} {t polled : Thread} (ht : s.threads[i]? = some t)
    (hp : (if t.status = .parked then (t.poll s.world.signals).2 else t) = polled) :
    Stages ds ⟨[], s⟩ ⟨[], { s with threads := s.threads.set i polled }⟩ := by
  subst hp
  split
  · rename_i hp
    exact .single (.poll ht hp)
  · obtain ⟨hi, rfl⟩ := List.getElem?_eq_some_iff.mp ht
    rw [List.set_getElem_self]

theorem turn_stages {fuel i : Nat} {s s' : Interpreter} {o : Option (Except ExecError Status)}
    (h : s.turn fuel i = some (o, s')) : Stages ds ⟨[], s⟩ ⟨[], s'⟩ := by
  rw [turn] at h
  split at h
  · cases h
    exact .refl
  · rename_i t ht
    simp only at h
    generalize hp : (if t.status = .parked then (t.poll s.world.signals).2 else t) = polled at h
    have hpoll : Stages ds ⟨[], s⟩ _ := poll_stages ht hp
    split at h
    · rename_i hrun
      obtain ⟨⟨outcome, t', w⟩, hstep, heq⟩ := Option.map_eq_some_iff.mp h
      cases heq
      have hi : i < s.threads.length := (List.getElem?_eq_some_iff.mp ht).1
      have hslice : Stage ds ⟨[], { s with threads := s.threads.set i polled }⟩ _ :=
        .slice (List.getElem?_set_self hi) hrun hstep
      rw [List.set_set] at hslice
      exact (hpoll.tail hslice).trans (applyEffects_stages _)
    · cases h
      exact hpoll

theorem turns_stages {fuel : Nat} :
    ∀ {gas i stepped n : Nat} {failure : Option ExecError} {s s' : Interpreter},
      turns fuel gas i stepped s = some (n, failure, s') → Stages ds ⟨[], s⟩ ⟨[], s'⟩
  | 0, _, _, _, _, _, _, h => by cases h
  | gas + 1, i, stepped, n, failure, s, s', h => by
    rw [turns] at h
    split at h
    · split at h
      · cases h
      · rename_i hturn
        exact (turn_stages hturn).trans (turns_stages h)
      · rename_i hturn
        exact (turn_stages hturn).trans (turns_stages h)
      · rename_i hturn
        split at h
        · cases h
          exact turn_stages hturn
        · exact (turn_stages hturn).trans (turns_stages h)
    · cases h
      exact .refl

theorem round_stages {fuel active finished : Nat} {failure : Option ExecError}
    {s s' : Interpreter} (h : s.round fuel = some (active, finished, failure, s')) :
    Stages ds ⟨[], s⟩ ⟨[], s'⟩ := by
  obtain ⟨⟨n, f, s₁⟩, hturns, heq⟩ := Option.map_eq_some_iff.mp h
  cases heq
  have hcompact : Stages ds ⟨[], s⟩ ⟨[], s₁.compact.2⟩ := (turns_stages hturns).tail (.compact s₁)
  split
  · exact hcompact
  · exact hcompact.tail (.settle _)

theorem rounds_stages {fuel : Nat} {budget : Budget} :
    ∀ {gas : Nat} {report : Report} {r : Except ExecError Report} {s s' : Interpreter},
      rounds fuel budget gas report s = some (r, s') → Stages ds ⟨[], s⟩ ⟨[], s'⟩
  | 0, _, _, _, _, h => by cases h
  | gas + 1, report, r, s, s', h => by
    rw [rounds] at h
    split at h
    · cases h
    · rename_i hround
      cases h
      exact round_stages hround
    · rename_i hround
      have hstages : Stages ds ⟨[], s⟩ _ := round_stages hround
      simp only at h
      repeat' split at h
      · cases h; exact hstages
      · cases h; exact hstages
      · cases h; exact hstages
      · exact hstages.trans (rounds_stages h)

theorem beginFrame_stages (s : Interpreter) : Stages ds ⟨[], s⟩ ⟨[], s.beginFrame⟩ :=
  (ReflTransGen.single (.adjust s.edges s.settings s.world.clock s.world.services.timers.origin
    false s)).tail (.fire _)

theorem stepThreads_stages {fuel : Nat} {budget : Budget} {r : Except ExecError Report}
    {s s' : Interpreter} (h : s.stepThreads fuel budget = some (r, s')) :
    Stages ds ⟨[], s⟩ ⟨[], s'⟩ :=
  (beginFrame_stages s).trans (rounds_stages h)

theorem noteEdge_stages {script : Script} (hscript : script.Over ds) (target : Nat) (value : Bool)
    (s : Interpreter) : Stages ds ⟨[], s⟩ ⟨[], (s.noteEdge target script value).2⟩ := by
  have hedges : Stages ds ⟨[], s⟩ _ :=
    .single (.adjust (EdgeMemory.remember (target, script.topId) value s.edges) s.settings
      s.world.clock s.world.services.timers.origin s.world.services.redraw s)
  simp only [noteEdge]
  split
  · exact hedges.tail (.launch target none true _ hscript)
  · exact hedges

theorem checkEdges_stages {fuel : Nat} :
    ∀ {scripts : List (Nat × Script)} {r : Except ExecError (List Nat)} {s s' : Interpreter},
      (∀ x ∈ scripts, x.2.Over ds) → checkEdges fuel scripts s = some (r, s') →
      Stages ds ⟨[], s⟩ ⟨[], s'⟩
  | [], _, _, _, _, h => by
    cases h
    exact .refl
  | (target, script) :: rest, r, s, s', hscripts, h => by
    have hscript := hscripts _ (List.mem_cons_self ..)
    rw [checkEdges] at h
    obtain ⟨⟨value, s₁⟩, hcheck, h⟩ := Option.bind_eq_some_iff.mp h
    have hedge : Stages ds ⟨[], s⟩ ⟨[], s₁⟩ := .single (.edge hscript hcheck)
    cases value with
    | error e =>
      cases h
      exact hedge
    | ok value =>
      obtain ⟨⟨ids, s₂⟩, hrest, heq⟩ := Option.map_eq_some_iff.mp h
      cases heq
      exact (hedge.trans (noteEdge_stages hscript target value s₁)).trans
        (checkEdges_stages (fun x hx => hscripts x (List.mem_cons_of_mem _ hx)) hrest)

theorem startEdgeHats_stages {fuel : Nat} {r : Except ExecError (List Nat)} {s s' : Interpreter}
    (hs : s.world.scene.Over ds) (h : s.startEdgeHats fuel = some (r, s')) :
    Stages ds ⟨[], s⟩ ⟨[], s'⟩ := by
  obtain ⟨⟨result, s₁⟩, hcheck, heq⟩ := Option.map_eq_some_iff.mp h
  have hscripts : ∀ x ∈ edgeScripts s.world.scene, x.2.Over ds :=
    fun x hx => hs.scripts x (List.mem_filter.mp hx).1
  have hstages := checkEdges_stages hscripts hcheck
  cases result with
  | error e =>
    cases heq
    exact hstages
  | ok ids =>
    cases heq
    exact (hstages.tail (.take s₁)).trans (applyEffects_stages s₁)

theorem tick_stages {fuel : Nat} {budget : Budget} {r : Except ExecError Report}
    {s s' : Interpreter} (hs : s.world.scene.Over ds) (h : s.tick fuel budget = some (r, s')) :
    Stages ds ⟨[], s⟩ ⟨[], s'⟩ := by
  obtain ⟨⟨result, s₁⟩, hedges, h⟩ := Option.bind_eq_some_iff.mp h
  have hstages := startEdgeHats_stages hs hedges
  cases result with
  | error e =>
    cases h
    exact hstages
  | ok ids => exact hstages.trans (stepThreads_stages h)

/-- Every command is a run of stages, which begins and ends with no effect in hand. -/
theorem perform_stages {fuel : Nat} {c : Command} {s s' : Interpreter}
    (hs : s.world.scene.Over ds) (hc : c.Over ds) (h : s.perform fuel c = some s') :
    Stages ds ⟨[], s⟩ ⟨[], s'⟩ := by
  cases c with
  | launch script target payload restart =>
    cases h
    exact .single (.launch target payload restart s hc)
  | trigger t =>
    cases h
    exact .single (.trigger t s)
  | greenFlag =>
    cases h
    exact ((ReflTransGen.single (.stopAll s)).tail (.adjust [] s.settings s.world.clock
      s.world.now s.world.services.redraw _)).tail (.trigger .greenFlag _)
  | stopAll =>
    cases h
    exact .single (.stopAll s)
  | startEdgeHats =>
    obtain ⟨⟨r, s₁⟩, hrun, rfl⟩ := Option.map_eq_some_iff.mp h
    exact startEdgeHats_stages hs hrun
  | stepThreads budget =>
    obtain ⟨⟨r, s₁⟩, hrun, rfl⟩ := Option.map_eq_some_iff.mp h
    exact stepThreads_stages hrun
  | tick budget =>
    obtain ⟨⟨r, s₁⟩, hrun, rfl⟩ := Option.map_eq_some_iff.mp h
    exact tick_stages hs hrun
  | setClock clock =>
    cases h
    exact .single (.adjust s.edges s.settings clock s.world.services.timers.origin
      s.world.services.redraw s)
  | configure settings =>
    cases h
    exact .single (.adjust s.edges settings s.world.clock s.world.services.timers.origin
      s.world.services.redraw s)
  | retire thread =>
    cases h
    exact .single (.retire thread s)
  | restart thread payload =>
    cases h
    exact .single (.restart thread payload s)

end Interpreter

end Blockwork
