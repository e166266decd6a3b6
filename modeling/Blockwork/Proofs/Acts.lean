import Blockwork.Proofs.Outline
import Blockwork.Proofs.Tokens
import Blockwork.Proofs.Turns

/-!
Sessions, act by act.

A host creates an interpreter and has it carry out commands.  Some hosts do more: they launch scripts
of their own and exchange the scene, or take threads into their own hands.  `Act` says once what can
happen to the threads: one is polled, runs a slice, is launched or restarted, some are retired or taken
out, or the threads stay as they are.  A `CarefulAct` looks for a thread to restart before it launches
a script whose hat wants that.  Whatever happens in a session is a run of careful acts
(`Session.careful`), and so of acts (`Session.acts`): what every one of them keeps holds at every state
of every session, between commands and in the middle of them.
-/

namespace Blockwork

open Relation

/-! ### Hosts -/

/-- What a host does beyond having its scene run. -/
structure Host where
  /-- It launches scripts that the scene may not have, and changes the scene. -/
  arranges : Prop
  /-- It takes threads into its own hands. -/
  handles : Prop

namespace Host

def unbound : Host := ⟨True, True⟩

/-- Leaves the threads to the interpreter. -/
def handsOff : Host := ⟨True, False⟩

/-- Keeps to the scene that it has started with. -/
def onlooker : Host := ⟨False, False⟩

end Host

/-- The commands that a host may give. -/
def Command.Allowed (host : Host) : Command → Prop
  | .launch .. => host.arranges
  | .retire _ | .restart .. => host.handles
  | _ => True

/-- What a host can do with a thread that it has in its hands. -/
inductive Thread.Handled (t : Thread) : Thread → Prop
  | poll (signals : Signals) : Handled t (t.poll signals).2
  | resolve (generation : Nat) (v : Value) : Handled t (t.resolve generation v).2
  | restart (payload : Option Value) : Handled t (t.restart payload)
  | retire : Handled t t.retire
  | step {fuel : Nat} {w w' : World} {outcome : Except ExecError Status} {t' : Thread} :
      t.step fuel w = some (outcome, t', w') → Handled t t'

/-- The states between two commands of a session that began with the scene. -/
inductive Interpreter.Session (host : Host) (scene : Scene) : Interpreter → Prop
  | fresh (clock : Clock) (settings : SchedulerSettings) :
      Session host scene (.fresh scene clock settings)
  | perform {fuel : Nat} {c : Command} {s s' : Interpreter} : Session host scene s →
      c.Allowed host → s.perform fuel c = some s' → Session host scene s'
  /-- The host changes something else than the threads: it turns the clock, settles a signal that it
  holds, or exchanges the scene. -/
  | arrange {s s' : Interpreter} : Session host scene s → s'.threads = s.threads →
      s'.nextId = s.nextId → s'.world.scene = s.world.scene ∨ host.arranges → Session host scene s'
  | handle {s : Interpreter} {id : Nat} {f : Thread → Thread} : Session host scene s →
      host.handles → (∀ t ∈ s.threads, t.id = id → t.Handled (f t)) →
      Session host scene (s.modifyThread id f)

/-! ### Acts -/

/-- What can happen to the threads. -/
inductive Act (host : Host) : Interpreter → Interpreter → Prop
  /-- A parked thread looks at what it waits for. -/
  | poll {s : Interpreter} {i : Nat} {t : Thread} : s.threads[i]? = some t → t.status = .parked →
      Act host s { s with threads := s.threads.set i (t.poll s.world.signals).2 }
  /-- A running thread runs a slice. -/
  | slice {s : Interpreter} {i fuel : Nat} {t t' : Thread} {w : World}
      {outcome : Except ExecError Status} : s.threads[i]? = some t → t.status = .running →
      t.step fuel s.world = some (outcome, t', w) →
      Act host s { s with threads := s.threads.set i t', world := w }
  | launch {s : Interpreter} {target : Nat} {script : Script} (payload : Option Value) :
      (target, script) ∈ s.world.scene.scripts ∨ host.arranges →
      Act host s { s with
        threads := s.threads ++ [.launch s.nextId script target payload]
        nextId := s.nextId + 1 }
  | restart {s : Interpreter} {t : Thread} (payload : Option Value) : t ∈ s.threads →
      t.isDone = false → Act host s (s.modifyThread t.id (Thread.restart payload))
  | stopOthers (target : Nat) (except : Option Nat) (s : Interpreter) :
      Act host s (s.applyEffect (.stopOthers target except))
  | stopAll (s : Interpreter) : Act host s s.stopAll
  | compact (s : Interpreter) : Act host s s.compact.2
  | edge {s s' : Interpreter} {fuel target : Nat} {script : Script} {r : Except ExecError Bool} :
      (target, script) ∈ s.world.scene.scripts → s.checkEdge fuel target script = some (r, s') →
      Act host s s'
  /-- Something else than the threads changes. -/
  | other {s s' : Interpreter} : s'.threads = s.threads → s'.nextId = s.nextId →
      s'.world.scene = s.world.scene ∨ host.arranges → Act host s s'
  | handle {s : Interpreter} {id : Nat} {f : Thread → Thread} : host.handles →
      (∀ t ∈ s.threads, t.id = id → t.Handled (f t)) → Act host s (s.modifyThread id f)

/-- A run of acts. -/
abbrev Acts (host : Host) : Interpreter → Interpreter → Prop := ReflTransGen (Act host)

/-! ### Careful acts -/

/-- Whether firing the hat of the script restarts a thread that already runs it. -/
def Script.restarts (script : Script) : Bool := script.hat.any fun h => h.isEdge || h.restart

/-- An act that is careful about launches: a script of the scene whose hat restarts is launched only
where there is no thread of it to restart. -/
inductive CarefulAct (host : Host) : Interpreter → Interpreter → Prop
  | act {s s' : Interpreter} : Act host s s' → s'.nextId = s.nextId → CarefulAct host s s'
  | launch {s : Interpreter} {target : Nat} {script : Script} {restart : Bool}
      (payload : Option Value) :
      (target, script) ∈ s.world.scene.scripts ∧ (script.restarts = true → restart = true) ∨
        host.arranges → CarefulAct host s (s.launch script target payload restart).2

/-- A run of careful acts. -/
abbrev CarefulActs (host : Host) : Interpreter → Interpreter → Prop := ReflTransGen (CarefulAct host)

namespace Interpreter

/-- A launch that may restart a live thread of the script does so if there is one; otherwise a thread is
added. -/
theorem launch_cases (script : Script) (target : Nat) (payload : Option Value) (restart : Bool)
    (s : Interpreter) :
    ((restart && s.isRunning script) = true ∧ ∃ t ∈ s.threads, isLive script.topId t = true ∧
      (s.launch script target payload restart).2 =
        s.modifyThread t.id (Thread.restart payload)) ∨
    ((restart && s.isRunning script) = false ∧ (s.launch script target payload restart).2 =
      { s with
        threads := s.threads ++ [.launch s.nextId script target payload]
        nextId := s.nextId + 1 }) := by
  cases restart with
  | false => exact .inr ⟨rfl, rfl⟩
  | true =>
    simp only [launch, isRunning, Bool.true_and, if_true]
    cases hfind : s.threads.find? (isLive script.topId) with
    | none => exact .inr ⟨by simpa using hfind, rfl⟩
    | some t =>
      have hmem := List.mem_of_find?_eq_some hfind
      have hlive := List.find?_some hfind
      exact .inl ⟨List.any_eq_true.mpr ⟨t, hmem, hlive⟩, t, hmem, hlive, rfl⟩

theorem launch_act {host : Host} {s : Interpreter} {script : Script} {target : Nat}
    (h : (target, script) ∈ s.world.scene.scripts ∨ host.arranges) (payload : Option Value)
    (restart : Bool) : Act host s (s.launch script target payload restart).2 := by
  rcases s.launch_cases script target payload restart with ⟨-, t, ht, hlive, heq⟩ | ⟨-, heq⟩
  · rw [isLive, Bool.and_eq_true, Bool.not_eq_true'] at hlive
    rw [heq]
    exact .restart payload ht hlive.1
  · rw [heq]
    exact .launch payload h

end Interpreter

theorem CarefulAct.toAct {host : Host} {s s' : Interpreter} (h : CarefulAct host s s') :
    Act host s s' := by
  cases h with
  | act hact _ => exact hact
  | launch payload hallowed =>
    exact Interpreter.launch_act (hallowed.imp_left And.left) payload _

theorem CarefulActs.acts {host : Host} {s s' : Interpreter} (h : CarefulActs host s s') :
    Acts host s s' :=
  ReflTransGen.mono (fun _ _ => CarefulAct.toAct) _ _ h

/-! ### Commands are runs of careful acts -/

namespace Interpreter

variable {host : Host}

theorem launchAll_careful {payload : Option Value} {xs : List (Nat × Script × Bool)} :
    ∀ {s : Interpreter}, (∀ x ∈ xs, (x.1, x.2.1) ∈ s.world.scene.scripts) →
      (∀ x ∈ xs, x.2.1.restarts = true → x.2.2 = true) →
      CarefulActs host s (launchAll payload xs s).2 := by
  induction xs with
  | nil => exact fun _ _ => .refl
  | cons x xs ih =>
    intro s hscripts hrestarts
    obtain ⟨target, script, restart⟩ := x
    have hfirst : CarefulAct host s (s.launch script target payload restart).2 :=
      .launch payload (.inl ⟨hscripts _ (List.mem_cons_self ..), hrestarts _ (List.mem_cons_self ..)⟩)
    refine .head hfirst (ih (fun x hx => ?_) fun x hx => hrestarts x (List.mem_cons_of_mem _ hx))
    rw [launch_world]
    exact hscripts x (List.mem_cons_of_mem _ hx)

theorem fired_sublist (scene : Scene) (t : Trigger) :
    ((fired scene t).map fun x => (x.1, x.2.1)).Sublist scene.scripts := by
  rw [fired, List.map_filterMap]
  generalize scene.scripts = scripts
  induction scripts with
  | nil => exact .slnil
  | cons x scripts ih =>
    rw [List.filterMap_cons]
    split
    · exact ih.cons x
    · rename_i y hy
      obtain ⟨z, hz, rfl⟩ := Option.map_eq_some_iff.mp hy
      obtain rfl : (z.1, z.2.1) = x := by
        simp only at hz
        split at hz
        · split at hz <;> cases hz
          rfl
        · cases hz
      exact ih.cons_cons _

theorem mem_scripts_of_fired {scene : Scene} {t : Trigger} {x : Nat × Script × Bool}
    (h : x ∈ fired scene t) : (x.1, x.2.1) ∈ scene.scripts :=
  (fired_sublist scene t).subset (List.mem_map_of_mem h)

/-- An edge hat is not fired by triggers. -/
theorem restarts_of_fired {scene : Scene} {t : Trigger} {x : Nat × Script × Bool}
    (h : x ∈ fired scene t) (hrestarts : x.2.1.restarts = true) : x.2.2 = true := by
  obtain ⟨⟨target, script⟩, -, heq⟩ := List.mem_filterMap.mp h
  simp only at heq
  split at heq
  · rename_i hat hhat
    split at heq <;> cases heq
    rename_i hfires
    have hedge : hat.isEdge = false := by
      rw [Hat.isEdge, decide_eq_false_iff_not]
      intro hkind
      rw [Hat.isFiredBy, hkind] at hfires
      cases hfires
    simpa [Script.restarts, hhat, hedge] using hrestarts
  · cases heq

theorem trigger_careful (t : Trigger) (s : Interpreter) : CarefulActs host s (s.trigger t).2 :=
  launchAll_careful (fun _ hx => mem_scripts_of_fired hx) fun _ hx => restarts_of_fired hx

theorem applyEffect_careful (e : Effect) (s : Interpreter) : CarefulActs host s (s.applyEffect e) := by
  cases e with
  | broadcast t completion =>
    have htrigger : CarefulActs host s (s.trigger t).2 := trigger_careful t s
    simp only [applyEffect]
    split
    · exact htrigger
    · split
      · exact htrigger.tail (.act (.other rfl rfl (.inl rfl)) rfl)
      · exact htrigger.tail (.act (.other rfl rfl (.inl rfl)) rfl)
  | stopAll => exact .single (.act (.stopAll s) rfl)
  | stopOthers target except => exact .single (.act (.stopOthers target except s) rfl)

theorem applyEffects_careful (s : Interpreter) : CarefulActs host s s.applyEffects := by
  have htaking : CarefulAct host s (Moment.taking s).state := .act (.other rfl rfl (.inl rfl)) rfl
  exact applyEffects_induction (.single htaking) fun s₁ e hs => hs.trans (applyEffect_careful e s₁)

/-- A thread that is about to run, or to be left, has been polled if it was parked. -/
theorem polled_careful {s : Interpreter} {i : Nat} {t : Thread} (ht : s.threads[i]? = some t) :
    CarefulActs host s { s with threads := s.threads.set i (s.polled t) } := by
  rw [polled]
  split
  · rename_i hparked
    exact .single (.act (.poll ht hparked) rfl)
  · obtain ⟨hi, rfl⟩ := List.getElem?_eq_some_iff.mp ht
    rw [List.set_getElem_self]

/-- A slice, its effects not carried out yet. -/
theorem slice_careful {fuel i : Nat} {s : Interpreter} {t t' : Thread} {w : World}
    {outcome : Except ExecError Status} (ht : s.threads[i]? = some t)
    (hrun : (s.polled t).status = .running)
    (hstep : (s.polled t).step fuel s.world = some (outcome, t', w)) :
    CarefulActs host s { s with threads := s.threads.set i t', world := w } := by
  have hi : i < s.threads.length := (List.getElem?_eq_some_iff.mp ht).1
  have hslice : CarefulAct host { s with threads := s.threads.set i (s.polled t) } _ :=
    .act (.slice (List.getElem?_set_self hi) hrun hstep) rfl
  rw [List.set_set] at hslice
  exact (polled_careful ht).tail hslice

theorem Takes.careful {fuel i : Nat} {s : Interpreter} {u : Turn} (h : s.Takes fuel i u) :
    CarefulActs host s u.after := by
  cases h with
  | rests ht hrest => exact polled_careful ht
  | runs ht hrun hstep => exact (slice_careful ht hrun hstep).trans (applyEffects_careful _)

theorem Turns.careful {fuel i : Nat} {s s' : Interpreter} {log : List Turn}
    (h : s.Turns fuel i log s') : CarefulActs host s s' := by
  induction h with
  | nil => exact .refl
  | cons htakes _ _ ih => exact htakes.careful.trans ih

theorem round_careful {fuel active finished : Nat} {failure : Option ExecError} {s s' : Interpreter}
    (h : s.round fuel = some (active, finished, failure, s')) : CarefulActs host s s' := by
  obtain ⟨s₁, hturns, -, rfl⟩ := round_cases h
  obtain ⟨log, hlog, -⟩ := turns_log hturns
  have hcompact : CarefulActs host s s₁.compact.2 := hlog.careful.tail (.act (.compact s₁) rfl)
  split
  · exact hcompact
  · rw [settleWatchers_eq]
    exact hcompact.tail (.act (.other rfl rfl (.inl rfl)) rfl)

theorem BeginsRound.careful {fuel : Nat} {budget : Budget} {s s₁ : Interpreter} {report : Report}
    (h : s.BeginsRound fuel budget report s₁) : CarefulActs host s s₁ := by
  induction h with
  | first => exact .single (.act (.other rfl rfl (.inl rfl)) rfl)
  | next _ hround _ ih => exact ih.trans (round_careful hround)

theorem stepThreads_careful {fuel : Nat} {budget : Budget} {r : Except ExecError Report}
    {s s' : Interpreter} (h : s.stepThreads fuel budget = some (r, s')) : CarefulActs host s s' := by
  obtain ⟨report, s₁, active, finished, failure, timedOut, hbegins, hround, -⟩ :=
    stepThreads_round h
  exact hbegins.careful.trans (round_careful hround)

theorem noteEdge_world (target : Nat) (script : Script) (value : Bool) (s : Interpreter) :
    (s.noteEdge target script value).2.world = s.world := by
  simp only [noteEdge]
  split
  · exact launch_world ..
  · rfl

theorem noteEdge_careful {s : Interpreter} {target : Nat} {script : Script}
    (h : (target, script) ∈ s.world.scene.scripts) (value : Bool) :
    CarefulActs host s (s.noteEdge target script value).2 := by
  generalize hnoted : { s with
    edges := EdgeMemory.remember (target, script.topId) value s.edges } = noted
  have hworld : noted.world = s.world := by rw [← hnoted]
  have hedges : CarefulActs host s noted := by
    rw [← hnoted]
    exact .single (.act (.other rfl rfl (.inl rfl)) rfl)
  rw [← hworld] at h
  simp only [noteEdge, hnoted]
  split
  · exact hedges.tail (.launch none (.inl ⟨h, fun _ => rfl⟩))
  · exact hedges

theorem checkEdges_careful {fuel : Nat} :
    ∀ {scripts : List (Nat × Script)} {r : Except ExecError (List Nat)} {s s' : Interpreter},
      (∀ x ∈ scripts, x ∈ s.world.scene.scripts) → checkEdges fuel scripts s = some (r, s') →
      CarefulActs host s s'
  | [], _, _, _, _, h => by
    cases h
    exact .refl
  | (target, script) :: rest, r, s, s', hscripts, h => by
    have hscript := hscripts _ (List.mem_cons_self ..)
    rw [checkEdges] at h
    obtain ⟨⟨value, s₁⟩, hcheck, h⟩ := Option.bind_eq_some_iff.mp h
    have hnext : s₁.nextId = s.nextId := by
      obtain ⟨result, m, -, rfl, -⟩ := checkEdge_cases hcheck
      rfl
    have hedge : CarefulActs host s s₁ := .single (.act (.edge hscript hcheck) hnext)
    have hsame : s₁.world.scene.scripts = s.world.scene.scripts := by
      rw [Scene.scripts_eq, Scene.scripts_eq, checkEdge_outline hcheck]
    cases value with
    | error e =>
      cases h
      exact hedge
    | ok value =>
      obtain ⟨⟨ids, s₂⟩, hrest, heq⟩ := Option.map_eq_some_iff.mp h
      cases heq
      rw [← hsame] at hscript
      refine (hedge.trans (noteEdge_careful hscript value)).trans
        (checkEdges_careful (fun x hx => ?_) hrest)
      rw [noteEdge_world, hsame]
      exact hscripts x (List.mem_cons_of_mem _ hx)

theorem startEdgeHats_careful {fuel : Nat} {r : Except ExecError (List Nat)} {s s' : Interpreter}
    (h : s.startEdgeHats fuel = some (r, s')) : CarefulActs host s s' := by
  obtain ⟨⟨result, s₁⟩, hcheck, heq⟩ := Option.map_eq_some_iff.mp h
  have hacts : CarefulActs host s s₁ :=
    checkEdges_careful (fun x hx => (List.mem_filter.mp hx).1) hcheck
  cases result with
  | error e =>
    cases heq
    exact hacts
  | ok ids =>
    cases heq
    exact hacts.trans (applyEffects_careful s₁)

theorem tick_careful {fuel : Nat} {budget : Budget} {r : Except ExecError Report}
    {s s' : Interpreter} (h : s.tick fuel budget = some (r, s')) : CarefulActs host s s' := by
  obtain ⟨⟨result, s₁⟩, hedges, h⟩ := Option.bind_eq_some_iff.mp h
  have hacts : CarefulActs host s s₁ := startEdgeHats_careful hedges
  cases result with
  | error e =>
    cases h
    exact hacts
  | ok ids => exact hacts.trans (stepThreads_careful h)

theorem perform_careful {fuel : Nat} {c : Command} {s s' : Interpreter} (hc : c.Allowed host)
    (h : s.perform fuel c = some s') : CarefulActs host s s' := by
  cases c with
  | launch script target payload restart =>
    cases h
    exact .single (.launch payload (.inr hc))
  | trigger t =>
    cases h
    exact trigger_careful t s
  | greenFlag =>
    cases h
    have hforget : CarefulAct host s.stopAll
        { s.stopAll with world := s.stopAll.world.resetTimer, edges := [] } :=
      .act (.other rfl rfl (.inl rfl)) rfl
    exact .head (.act (.stopAll s) rfl) (.head hforget (trigger_careful .greenFlag _))
  | stopAll =>
    cases h
    exact .single (.act (.stopAll s) rfl)
  | startEdgeHats =>
    obtain ⟨⟨r, s₁⟩, hrun, rfl⟩ := Option.map_eq_some_iff.mp h
    exact startEdgeHats_careful hrun
  | stepThreads budget =>
    obtain ⟨⟨r, s₁⟩, hrun, rfl⟩ := Option.map_eq_some_iff.mp h
    exact stepThreads_careful hrun
  | tick budget =>
    obtain ⟨⟨r, s₁⟩, hrun, rfl⟩ := Option.map_eq_some_iff.mp h
    exact tick_careful hrun
  | setClock clock =>
    cases h
    exact .single (.act (.other rfl rfl (.inl rfl)) rfl)
  | configure settings =>
    cases h
    exact .single (.act (.other rfl rfl (.inl rfl)) rfl)
  | retire thread =>
    cases h
    exact .single (.act (.handle hc fun _ _ _ => .retire) rfl)
  | restart thread payload =>
    cases h
    exact .single (.act (.handle hc fun _ _ _ => .restart payload) rfl)

theorem perform_acts {fuel : Nat} {c : Command} {s s' : Interpreter} (hc : c.Allowed host)
    (h : s.perform fuel c = some s') : Acts host s s' := (perform_careful hc h).acts

/-- Whatever happens in a session is a run of careful acts. -/
theorem Session.careful {scene : Scene} {s : Interpreter} (h : s.Session host scene) :
    ∃ clock settings, CarefulActs host (Interpreter.fresh scene clock settings) s := by
  induction h with
  | fresh clock settings => exact ⟨clock, settings, .refl⟩
  | perform _ hc hperform ih =>
    obtain ⟨clock, settings, hacts⟩ := ih
    exact ⟨clock, settings, hacts.trans (perform_careful hc hperform)⟩
  | arrange _ hthreads hnext hscene ih =>
    obtain ⟨clock, settings, hacts⟩ := ih
    exact ⟨clock, settings, hacts.tail (.act (.other hthreads hnext hscene) hnext)⟩
  | handle _ hhost hf ih =>
    obtain ⟨clock, settings, hacts⟩ := ih
    exact ⟨clock, settings, hacts.tail (.act (.handle hhost hf) rfl)⟩

theorem Session.acts {scene : Scene} {s : Interpreter} (h : s.Session host scene) :
    ∃ clock settings, Acts host (Interpreter.fresh scene clock settings) s := by
  obtain ⟨clock, settings, hacts⟩ := h.careful
  exact ⟨clock, settings, hacts.acts⟩

end Interpreter

/-- What every act keeps is kept by a run. -/
theorem Acts.keeps {host : Host} {I : Interpreter → Prop} (act : ∀ {s s'}, I s → Act host s s' → I s')
    {s s' : Interpreter} (h : Acts host s s') (hs : I s) : I s' := by
  induction h with
  | refl => exact hs
  | tail _ hact ih => exact act ih hact

end Blockwork
