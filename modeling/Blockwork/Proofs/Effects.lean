import Blockwork.Proofs.Tokens

/-!
Effects stay in the command that asked for them, unless a check of the edge hats fails.

What a thread asks for is carried out at the end of its turn, whether the turn fails or not.  What
edge hats ask for is carried out once all of them have been checked: a check that fails returns early,
and leaves in the outbox what had been asked for.  It is carried out after the turn of some other
thread, in a later command.  Nothing else leaves the outbox filled.
-/

namespace Blockwork

namespace Interpreter

/-- No effect waits to be carried out. -/
def Clear (s : Interpreter) : Prop := s.world.services.outbox = []

theorem Clear.applyEffect {s : Interpreter} (h : s.Clear) (e : Effect) : (s.applyEffect e).Clear := by
  cases e with
  | broadcast t completion =>
    have htrigger : (s.trigger t).2.Clear := by
      rw [Clear, trigger_world]
      exact h
    simp only [Interpreter.applyEffect]
    split
    · exact htrigger
    · split <;> exact htrigger
  | stopAll => rfl
  | stopOthers target except => exact h

/-- Carrying out the effects empties the outbox: no effect puts another one there. -/
theorem clear_applyEffects (s : Interpreter) : s.applyEffects.Clear :=
  applyEffects_induction rfl fun _ e hs => hs.applyEffect e

/-! ### Rounds -/

/-- A turn runs no slice and leaves the world alone, or carries out the effects of the slice, whether
that fails or not. -/
theorem turn_clear {fuel i : Nat} {s s' : Interpreter} {o : Option (Except ExecError Status)}
    (h : s.turn fuel i = some (o, s')) : (o = none ∧ s'.world = s.world) ∨ s'.Clear := by
  rw [turn] at h
  split at h
  · cases h
    exact .inl ⟨rfl, rfl⟩
  · rename_i t _
    simp only at h
    generalize (if t.status = .parked then (t.poll s.world.signals).2 else t) = polled at h
    split at h
    · obtain ⟨_, -, heq⟩ := Option.map_eq_some_iff.mp h
      cases heq
      exact .inr (clear_applyEffects _)
    · cases h
      exact .inl ⟨rfl, rfl⟩

theorem Clear.turn {fuel i : Nat} {s s' : Interpreter} {o : Option (Except ExecError Status)}
    (hs : s.Clear) (h : s.turn fuel i = some (o, s')) : s'.Clear := by
  rcases turn_clear h with ⟨-, hworld⟩ | hclear
  · rw [Clear, hworld]
    exact hs
  · exact hclear

theorem Clear.turns {fuel : Nat} :
    ∀ {gas i stepped n : Nat} {failure : Option ExecError} {s s' : Interpreter}, s.Clear →
      Interpreter.turns fuel gas i stepped s = some (n, failure, s') → s'.Clear
  | 0, _, _, _, _, _, _, _, h => by cases h
  | gas + 1, i, stepped, n, failure, s, s', hs, h => by
    rw [Interpreter.turns] at h
    split at h
    · split at h
      · cases h
      · rename_i hturn
        exact (hs.turn hturn).turns h
      · rename_i hturn
        exact (hs.turn hturn).turns h
      · rename_i hturn
        split at h
        · cases h
          exact hs.turn hturn
        · exact (hs.turn hturn).turns h
    · cases h
      exact hs

theorem Clear.round {fuel active finished : Nat} {failure : Option ExecError} {s s' : Interpreter}
    (hs : s.Clear) (h : s.round fuel = some (active, finished, failure, s')) : s'.Clear := by
  obtain ⟨⟨n, f, s₁⟩, hturns, heq⟩ := Option.map_eq_some_iff.mp h
  cases heq
  have hturned : s₁.Clear := hs.turns hturns
  have hcompact : s₁.compact.2.Clear := hturned
  split
  · exact hcompact
  · rw [settleWatchers_eq]
    exact hcompact

theorem Clear.rounds {fuel : Nat} {budget : Budget} :
    ∀ {gas : Nat} {report : Report} {r : Except ExecError Report} {s s' : Interpreter}, s.Clear →
      Interpreter.rounds fuel budget gas report s = some (r, s') → s'.Clear
  | 0, _, _, _, _, _, h => by cases h
  | gas + 1, report, r, s, s', hs, h => by
    rw [Interpreter.rounds] at h
    split at h
    · cases h
    · rename_i hround
      cases h
      exact hs.round hround
    · rename_i hround
      have hround := hs.round hround
      simp only at h
      repeat' split at h
      · cases h; exact hround
      · cases h; exact hround
      · cases h; exact hround
      · exact hround.rounds h

theorem Clear.stepThreads {fuel : Nat} {budget : Budget} {r : Except ExecError Report}
    {s s' : Interpreter} (hs : s.Clear) (h : s.stepThreads fuel budget = some (r, s')) : s'.Clear := by
  have hbegin : s.beginFrame.Clear := hs
  exact hbegin.rounds h

/-! ### Edge hats -/

/-- If every edge hat is checked, what they ask for is carried out. -/
theorem clear_of_startEdgeHats {fuel : Nat} {ids : List Nat} {s s' : Interpreter}
    (h : s.startEdgeHats fuel = some (.ok ids, s')) : s'.Clear := by
  obtain ⟨⟨result, s₁⟩, -, heq⟩ := Option.map_eq_some_iff.mp h
  cases result with
  | error e => cases heq
  | ok ids =>
    cases heq
    exact clear_applyEffects s₁

end Interpreter

/-- The command checks the edge hats, and fails on one of them. -/
inductive Command.FailsOnEdge (fuel : Nat) (s : Interpreter) : Command → Prop
  | startEdgeHats {e : ExecError} {s' : Interpreter} :
      s.startEdgeHats fuel = some (.error e, s') → FailsOnEdge fuel s .startEdgeHats
  | tick {e : ExecError} {s' : Interpreter} (budget : Interpreter.Budget) :
      s.startEdgeHats fuel = some (.error e, s') → FailsOnEdge fuel s (.tick budget)

namespace Interpreter

/-- A command leaves nothing in the outbox, unless it fails on an edge hat. -/
theorem Clear.perform {fuel : Nat} {c : Command} {s s' : Interpreter} (hs : s.Clear)
    (h : s.perform fuel c = some s') : s'.Clear ∨ c.FailsOnEdge fuel s := by
  cases c with
  | launch script target payload restart =>
    cases h
    refine .inl ?_
    rw [Clear, launch_world]
    exact hs
  | trigger t =>
    cases h
    refine .inl ?_
    rw [Clear, trigger_world]
    exact hs
  | greenFlag =>
    cases h
    refine .inl ?_
    rw [Clear, greenFlag, trigger_world]
    rfl
  | stopAll =>
    cases h
    exact .inl rfl
  | startEdgeHats =>
    obtain ⟨⟨r, s₁⟩, hedges, rfl⟩ := Option.map_eq_some_iff.mp h
    cases r with
    | error e => exact .inr (.startEdgeHats hedges)
    | ok ids => exact .inl (clear_of_startEdgeHats hedges)
  | stepThreads budget =>
    obtain ⟨⟨r, s₁⟩, hrun, rfl⟩ := Option.map_eq_some_iff.mp h
    exact .inl (hs.stepThreads hrun)
  | tick budget =>
    obtain ⟨⟨r, s₁⟩, hrun, rfl⟩ := Option.map_eq_some_iff.mp h
    obtain ⟨⟨result, s₂⟩, hedges, hrun⟩ := Option.bind_eq_some_iff.mp hrun
    cases result with
    | error e => exact .inr (.tick budget hedges)
    | ok ids => exact .inl ((clear_of_startEdgeHats hedges).stepThreads hrun)
  | setClock clock =>
    cases h
    exact .inl hs
  | configure settings =>
    cases h
    exact .inl hs
  | retire thread =>
    cases h
    exact .inl hs
  | restart thread payload =>
    cases h
    exact .inl hs

/-- The states between two commands of a session in which no command has failed on an edge hat. -/
inductive Unfailing : Interpreter → Prop
  | fresh (scene : Scene) (clock : Clock) (settings : SchedulerSettings) :
      Unfailing (.fresh scene clock settings)
  | perform {fuel : Nat} {c : Command} {s s' : Interpreter} :
      Unfailing s → s.perform fuel c = some s' → ¬ c.FailsOnEdge fuel s → Unfailing s'

theorem Unfailing.clear {s : Interpreter} (h : s.Unfailing) : s.Clear := by
  induction h with
  | fresh => rfl
  | perform _ hperform hedges ih => exact (ih.perform hperform).resolve_right hedges

end Interpreter

/-- Effects stay in the command that asked for them, as long as no check of the edge hats fails.  The
outbox is empty between commands; each command, whether it reports a failure or not, leaves it empty
unless it fails on an edge hat; and a turn that runs a slice carries out all that was asked for. -/
theorem outbox_empty_unless_edge_fails {s : Interpreter} (hs : s.Unfailing) :
    s.Clear ∧
    (∀ fuel c s', s.perform fuel c = some s' → s'.Clear ∨ c.FailsOnEdge fuel s) ∧
    ∀ fuel i outcome s', s.turn fuel i = some (some outcome, s') → s'.Clear := by
  refine ⟨hs.clear, fun _ _ _ h => hs.clear.perform h, fun fuel i outcome s' h => ?_⟩
  exact (Interpreter.turn_clear h).resolve_left fun hidle => by cases hidle.1

/-- Stops all scripts. -/
def Block.stopAll : Block :=
  .mk (Library.command "control_stop" [("STOP_OPTION", .field)] .stop) "stop" 0
    [("STOP_OPTION", .literal (.str "all"))]

/-- A script whose edge hat stops all scripts where it should read a number. -/
def Script.stoppingEdge : Script :=
  ⟨.mk { Library.reporter "event_whengreaterthan"
      [("WHENGREATERTHANMENU", .field), ("VALUE", .slot .number)] [.boolean] .timerAbove with
      hat := some .edge } "edge" 1
    [("WHENGREATERTHANMENU", .literal (.str "TIMER")), ("VALUE", .block .stopAll)], []⟩

/-- A script that does nothing, over and over. -/
def Script.looping : Script :=
  ⟨.mk (Library.control "control_forever" [("SUBSTACK", .substack)] .forever) "loop" 2
    [("SUBSTACK", .stack [])], []⟩

theorem Block.stopAll_over : Block.stopAll.Over [] := by
  refine .intro (.inl (List.mem_of_getElem? (i := 7) rfl)) ?_
  exact List.forall_mem_singleton.mpr (.literal _)

theorem Script.stoppingEdge_over : Script.stoppingEdge.Over [] := by
  refine List.forall_mem_singleton.mpr (.intro (.inl (List.mem_of_getElem? (i := 11) rfl)) ?_)
  exact List.forall_mem_cons.mpr
    ⟨.literal _, List.forall_mem_singleton.mpr (.block Block.stopAll_over)⟩

theorem Script.looping_over : Script.looping.Over [] := by
  refine List.forall_mem_singleton.mpr (.intro (.inl (List.mem_of_getElem? (i := 2) rfl)) ?_)
  exact List.forall_mem_singleton.mpr (.stack fun _ hb => absurd hb List.not_mem_nil)

/-- A script that stops all scripts, itself included. -/
def Script.stopping : Script := ⟨.stopAll, []⟩

/-- A session that has just begun, with no scripts of its own. -/
def Interpreter.idle : Interpreter := .fresh { targets := [.stage] } {} {}

/-- A script that stops all scripts stops another one, in the frame that runs both. -/
theorem outbox_empty_unless_edge_fails_stopping :
    ∃ s s', Interpreter.idle.performAll 8 [.launch .looping 0 none false,
        .launch .stopping 0 none false] = some s ∧
      s.threads.length = 2 ∧ s.perform 8 (.stepThreads (.rounds 1)) = some s' ∧
      s'.threads = [] ∧ s'.Clear := by
  have hlooping : Interpreter.Unfailing (Interpreter.idle.launch .looping 0 none false).2 :=
    @Interpreter.Unfailing.perform 8 (.launch .looping 0 none false) _ _ (.fresh _ _ _) rfl
      fun h => by cases h
  have hstopping : Interpreter.Unfailing (Interpreter.launch .stopping 0 none false _).2 :=
    @Interpreter.Unfailing.perform 8 (.launch .stopping 0 none false) _ _ hlooping rfl
      fun h => by cases h
  have hstep : Interpreter.perform 8 (Interpreter.launch .stopping 0 none false
      (Interpreter.idle.launch .looping 0 none false).2).2 (.stepThreads (.rounds 1)) = some _ := rfl
  refine ⟨_, _, rfl, rfl, hstep, rfl, ?_⟩
  exact ((outbox_empty_unless_edge_fails hstopping).2.1 8 _ _ hstep).resolve_right
    fun h => by cases h

/-- A session that has just begun, with the script whose edge hat stops all scripts. -/
def Interpreter.stoppingEdge : Interpreter :=
  .fresh { targets := [{ Target.stage with scripts := [.stoppingEdge] }] } {} {}

theorem Interpreter.stoppingEdge_reached : Interpreter.stoppingEdge.Reached [] := by
  refine .fresh {} {} ⟨fun x hx => ?_, fun _ hp => absurd hp List.not_mem_nil⟩
  rw [List.mem_singleton.mp hx]
  exact Script.stoppingEdge_over

/-- The check of the edge hat fails, and leaves in the outbox that all scripts are to be stopped.  A
script that is launched afterwards is stopped by it after its first turn; without the check it goes
on. -/
theorem effect_outlives_failed_edge_check :
    ∃ e s₁ s₂ s₃ s₄, s₁.Reached [] ∧ s₂.Reached [] ∧
      Interpreter.stoppingEdge.startEdgeHats 8 = some (.error e, s₁) ∧ ¬ s₁.Clear ∧
      s₁.perform 8 (.launch .looping 0 none false) = some s₂ ∧ ¬ s₂.Clear ∧
      s₂.perform 8 (.stepThreads (.rounds 1)) = some s₃ ∧ s₃.threads = [] ∧
      Interpreter.stoppingEdge.performAll 8 [.launch .looping 0 none false,
        .stepThreads (.rounds 1)] = some s₄ ∧ s₄.threads.length = 1 := by
  have hedges : Interpreter.stoppingEdge.startEdgeHats 8 = some (.error _, _) := rfl
  have hreached : Interpreter.Reached [] _ :=
    @Interpreter.Reached.perform [] 8 .startEdgeHats _ _ Interpreter.stoppingEdge_reached trivial
      (congrArg (Option.map Prod.snd) hedges)
  have hlaunched : Interpreter.Reached [] (Interpreter.launch .looping 0 none false _).2 :=
    @Interpreter.Reached.perform [] 8 (.launch .looping 0 none false) _ _ hreached
      Script.looping_over rfl
  exact ⟨_, _, _, _, _, hreached, hlaunched, hedges, List.cons_ne_nil _ _, rfl,
    List.cons_ne_nil _ _, rfl, rfl, rfl, rfl⟩

end Blockwork
