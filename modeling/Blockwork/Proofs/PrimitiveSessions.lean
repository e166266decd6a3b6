import Blockwork.Proofs.Acts
import Blockwork.Proofs.PrimitiveSteps

/-!
Sessions that deal in primitive values.

A session plays a scene if whatever is launched has been built from the registry of the scene.  If all
that the scene stores at the start is primitive, then so is all that any thread holds and all that is
stored or settled later: each command keeps that (`Interpreter.Primitive.perform`), and so every machine
that is at work on one is primitive (`Interpreter.Works.primitive`).
-/

namespace Blockwork

variable {ds : List Declaration} {scene : Scene}

/-! ### Threads -/

/-- What is stored and settled is primitive, and the program is that of the scene. -/
structure World.Primitive (scene : Scene) (w : World) : Prop where
  stored : w.scene.StoresPrimitive
  signals : w.signals.Primitive
  program : w.scene.outline = scene.outline

theorem World.Primitive.scripts {w : World} (h : w.Primitive scene) :
    w.scene.scripts = scene.scripts := by
  rw [Scene.scripts_eq, Scene.scripts_eq, h.program]

theorem Machine.Primitive.world {m : Machine} (h : m.Primitive scene) : m.cx.world.Primitive scene :=
  ⟨h.context.stored, h.context.signals, h.program⟩

/-- What an awaitable hands out is primitive, and so is what it may hand out later. -/
theorem Awaitable.Primitive.poll {a : Awaitable} {s : Signals} (ha : a.Primitive) (hs : s.Primitive) :
    (∀ v, (a.poll s).1 = .settled v → v.IsPrimitive) ∧ (a.poll s).2.Primitive := by
  have hnone : (Awaitable.ready none).Primitive := fun v hv => by cases hv
  cases a with
  | ready value =>
    cases value with
    | none => exact ⟨fun v hv => (by cases hv), hnone⟩
    | some v =>
      refine ⟨?_, hnone⟩
      rintro v' ⟨⟩
      exact ha v rfl
  | waiting t =>
    simp only [Awaitable.poll]
    split
    · exact ⟨fun v hv => (by cases hv), ha⟩
    · rename_i v ho
      refine ⟨?_, hnone⟩
      rintro v' ⟨⟩
      exact hs t v ho
    · exact ⟨fun v hv => (by cases hv), ha⟩

namespace Thread

/-- All that the thread holds has been built from the registry of the scene, or is primitive. -/
structure Primitive (scene : Scene) (t : Thread) : Prop where
  script : t.script.Built scene.registry
  frames : ∀ f ∈ t.stack.frames, f.Primitive scene.registry
  resumed : ∀ top ∈ t.stack.frames.head?, top.Admits t.stack.resumed
  args : ∀ c ∈ t.calls.calls, Args.Primitive c.args
  pending : ∀ p, t.pending = some p → p.awaitable.Primitive

/-- A thread at the top of its script. -/
theorem primitive_of_start {t : Thread} (hscript : t.script.Built scene.registry)
    (hstack : t.stack = .ofBlocks t.script.body) (hcalls : t.calls = {}) (hpending : t.pending = none) :
    t.Primitive scene := by
  refine ⟨hscript, ?_, ?_, ?_, ?_⟩
  · rw [hstack]
    refine List.forall_mem_singleton.mpr fun b hb => hscript.blocks b ?_
    rw [Script.body] at hb
    split at hb
    · exact List.mem_cons_of_mem _ hb
    · exact hb
  · rw [hstack]
    exact fun top _ => top.admits_none
  · rw [hcalls]
    exact fun c hc => absurd hc List.not_mem_nil
  · rw [hpending]
    exact fun p hp => by cases hp

/-- A thread that has ended holds nothing. -/
theorem primitive_finish {t : Thread} (hscript : t.script.Built scene.registry)
    (result : Option Value) : (t.finish result).Primitive scene :=
  ⟨hscript, fun _ hf => absurd hf List.not_mem_nil, fun _ htop => (by cases htop),
    fun _ hc => absurd hc List.not_mem_nil, fun _ hp => (by cases hp)⟩

namespace Primitive

variable {t t' : Thread}

theorem launch {script : Script} (hscript : script.Built scene.registry) (id target : Nat)
    (payload : Option Value) : (Thread.launch id script target payload).Primitive scene :=
  primitive_of_start hscript rfl rfl rfl

theorem restart (ht : t.Primitive scene) (payload : Option Value) :
    (t.restart payload).Primitive scene :=
  primitive_of_start ht.script rfl rfl rfl

theorem resolve (ht : t.Primitive scene) (generation : Nat) {v : Value} (hv : v.IsPrimitive) :
    (t.resolve generation v).2.Primitive scene := by
  rw [Thread.resolve]
  split
  · exact ht
  · exact ⟨ht.script, ht.frames, fun top _ => Routine.admits_of_isPrimitive hv top, ht.args,
      fun p hp => by cases hp⟩

theorem poll (ht : t.Primitive scene) {s : Signals} (hs : s.Primitive) :
    (t.poll s).2.Primitive scene := by
  rw [Thread.poll]
  split
  · exact ht
  · rename_i p hp
    obtain ⟨hsettled, hlater⟩ := (ht.pending p hp).poll hs
    split
    · rename_i v a ha
      rw [ha] at hsettled
      have hidle : Primitive scene { t with pending := none } :=
        ⟨ht.script, ht.frames, ht.resumed, ht.args, fun p hp => by cases hp⟩
      exact hidle.resolve p.generation (hsettled v rfl)
    · rename_i a _ ha
      rw [ha] at hlater
      refine ⟨ht.script, ht.frames, ht.resumed, ht.args, ?_⟩
      rintro p' ⟨⟩
      exact hlater

theorem machine (ht : t.Primitive scene) {w : World} (hw : w.Primitive scene) :
    (t.machine w).Primitive scene :=
  ⟨ht.frames, ht.resumed, ⟨hw.stored, ht.args, hw.signals⟩, hw.program⟩

theorem absorb (ht : t.Primitive scene) {result : Except ExecError Slice} {m : Machine}
    (hm : m.Primitive scene) (hresult : ∀ a, result = .ok (.awaiting a) → a.Primitive) :
    (t.absorb result m).Primitive scene := by
  rcases result with e | slice
  · exact primitive_finish ht.script none
  · cases slice with
    | finished v => exact primitive_finish ht.script (some v)
    | exited => exact primitive_finish ht.script none
    | yielded => exact ⟨ht.script, hm.frames, hm.resumed, hm.context.args, ht.pending⟩
    | awaiting a =>
      have hparked : Primitive scene { t with
          stack := m.stack, calls := m.cx.calls, status := .parked,
          pending := some ⟨t.generation, a⟩ } := by
        refine ⟨ht.script, hm.frames, hm.resumed, hm.context.args, ?_⟩
        rintro p ⟨⟩
        exact hresult a rfl
      exact hparked.poll hm.context.signals

theorem step (hscene : scene.Built) (hr : scene.registry.Over ds) (ht : t.Primitive scene)
    {fuel : Nat} {w w' : World} (hw : w.Primitive scene) {outcome : Except ExecError Status}
    (h : t.step fuel w = some (outcome, t', w')) : t'.Primitive scene ∧ w'.Primitive scene := by
  rw [Thread.step] at h
  split at h
  · cases h
    exact ⟨ht, hw⟩
  · split at h
    · cases h
      exact ⟨primitive_finish ht.script none, hw⟩
    · obtain ⟨⟨result, m⟩, hdrive, heq⟩ := Option.map_eq_some_iff.mp h
      cases heq
      have hmachine : (t.machine w).Primitive scene := ht.machine hw
      obtain ⟨hm, hresult⟩ := hmachine.drive hr hscene hdrive
      exact ⟨ht.absorb hm hresult, hm.world⟩

end Primitive

end Thread

/-! ### Commands -/

/-- Settling signals with null, or letting go of their tokens, leaves a primitive world. -/
theorem World.Primitive.concludeAll {w : World} (h : w.Primitive scene) (ts : List Token)
    {o : Outcome} (ho : o = .settled .null ∨ o = .abandoned) :
    ({ w with signals := w.signals.concludeAll ts o } : World).Primitive scene := by
  refine ⟨h.stored, h.signals.concludeAll ?_ ts, h.program⟩
  rintro v rfl
  rcases ho with ho | ho <;> cases ho
  rfl

namespace Interpreter

/-- All that is stored, settled or held by a thread is primitive, and all programs have been built from
the registry of the scene. -/
structure Primitive (scene : Scene) (s : Interpreter) : Prop where
  world : s.world.Primitive scene
  threads : ∀ t ∈ s.threads, t.Primitive scene

namespace Primitive

variable {s s' : Interpreter}

theorem modifyThread (hs : s.Primitive scene) {f : Thread → Thread}
    (hf : ∀ t : Thread, t.Primitive scene → (f t).Primitive scene) (id : Nat) :
    (s.modifyThread id f).Primitive scene := by
  refine ⟨hs.world, fun t' ht' => ?_⟩
  obtain ⟨t, ht, rfl⟩ := List.mem_map.mp ht'
  split
  · exact hf t (hs.threads t ht)
  · exact hs.threads t ht

theorem launch (hs : s.Primitive scene) {script : Script} (hscript : script.Built scene.registry)
    (target : Nat) (payload : Option Value) (restart : Bool) :
    (s.launch script target payload restart).2.Primitive scene := by
  rcases s.launch_cases script target payload restart with ⟨-, t, -, -, heq⟩ | ⟨-, heq⟩
  · rw [heq]
    exact hs.modifyThread (fun t ht => ht.restart payload) t.id
  · rw [heq]
    exact ⟨hs.world, List.forall_mem_append.mpr ⟨hs.threads,
      List.forall_mem_singleton.mpr (.launch hscript s.nextId target payload)⟩⟩

theorem launchAll {payload : Option Value} {xs : List (Nat × Script × Bool)}
    (hxs : ∀ x ∈ xs, x.2.1.Built scene.registry) :
    ∀ {s : Interpreter}, s.Primitive scene → (launchAll payload xs s).2.Primitive scene := by
  induction xs with
  | nil => exact fun hs => hs
  | cons x xs ih =>
    intro s hs
    obtain ⟨hx, hxs⟩ := List.forall_mem_cons.mp hxs
    exact ih hxs (hs.launch hx x.1 payload x.2.2)

theorem trigger (hscene : scene.Built) (hs : s.Primitive scene) (t : Trigger) :
    (s.trigger t).2.Primitive scene := by
  refine launchAll (fun x hx => ?_) hs
  have hmem := mem_scripts_of_fired hx
  rw [hs.world.scripts] at hmem
  exact hscene.scripts _ hmem

theorem stopAll (hs : s.Primitive scene) : s.stopAll.Primitive scene := by
  refine ⟨⟨hs.world.stored, ?_, hs.world.program⟩, fun t ht => absurd ht List.not_mem_nil⟩
  rw [stopAll_signals]
  exact (hs.world.concludeAll _ (.inr rfl)).signals

theorem applyEffect (hscene : scene.Built) (hs : s.Primitive scene) (e : Effect) :
    (s.applyEffect e).Primitive scene := by
  cases e with
  | broadcast t completion =>
    have htrigger := hs.trigger hscene t
    simp only [Interpreter.applyEffect]
    split
    · exact htrigger
    · rename_i token
      split
      · exact ⟨htrigger.world.concludeAll [token] (.inl rfl), htrigger.threads⟩
      · exact ⟨htrigger.world, htrigger.threads⟩
  | stopAll => exact hs.stopAll
  | stopOthers target except =>
    refine ⟨hs.world, fun t' ht' => ?_⟩
    obtain ⟨t, ht, rfl⟩ := List.mem_map.mp ht'
    split
    · exact Thread.primitive_finish (hs.threads t ht).script none
    · exact hs.threads t ht

theorem applyEffects (hscene : scene.Built) (hs : s.Primitive scene) :
    s.applyEffects.Primitive scene :=
  applyEffects_induction ⟨⟨hs.world.stored, hs.world.signals, hs.world.program⟩, hs.threads⟩
    fun _ e hs => hs.applyEffect hscene e

theorem polled (hs : s.Primitive scene) {t : Thread} (ht : t.Primitive scene) :
    (s.polled t).Primitive scene := by
  rw [Interpreter.polled]
  split
  · exact ht.poll hs.world.signals
  · exact ht

theorem set (hs : s.Primitive scene) {t : Thread} (ht : t.Primitive scene) (i : Nat) :
    ∀ t' ∈ s.threads.set i t, t'.Primitive scene := by
  intro t' ht'
  rcases List.mem_or_eq_of_mem_set ht' with hold | rfl
  · exact hs.threads t' hold
  · exact ht

theorem compact (hs : s.Primitive scene) : s.compact.2.Primitive scene :=
  ⟨hs.world, fun t ht => hs.threads t (List.mem_filter.mp ht).1⟩

theorem settleWatchers (hs : s.Primitive scene) : s.settleWatchers.Primitive scene := by
  rw [settleWatchers_eq]
  exact ⟨hs.world.concludeAll _ (.inl rfl), hs.threads⟩

theorem beginFrame (hs : s.Primitive scene) : s.beginFrame.Primitive scene := by
  have hfired := World.fireDue_signals
    { s.world with services := { s.world.services with redraw := false } }
  refine ⟨⟨hs.world.stored, ?_, hs.world.program⟩, hs.threads⟩
  rw [Interpreter.beginFrame, hfired]
  exact (hs.world.concludeAll _ (.inl rfl)).signals

/-- The check of an edge hat starts on a primitive machine. -/
theorem edge (hr : scene.registry.Over ds) (hs : s.Primitive scene) {script : Script}
    (hscript : script.Built scene.registry) (target : Nat) :
    (Machine.evaluateAtOnce [] (.block script.top) { world := s.world, target }).machine.Primitive
      scene := by
  have htop : Input.Built scene.registry (.block script.top) :=
    .block (hscript.blocks _ (List.mem_cons_self ..))
  exact Machine.primitive_evaluate hr htop (fun v hv => Input.noConfusion hv)
    (List.forall_mem_singleton.mpr trivial)
    ⟨hs.world.stored, fun c hc => absurd hc List.not_mem_nil, hs.world.signals⟩ hs.world.program

theorem noteEdge (hs : s.Primitive scene) {script : Script} (hscript : script.Built scene.registry)
    (target : Nat) (value : Bool) : (s.noteEdge target script value).2.Primitive scene := by
  have hremembered : Primitive scene { s with
      edges := EdgeMemory.remember (target, script.topId) value s.edges } := ⟨hs.world, hs.threads⟩
  simp only [Interpreter.noteEdge]
  split
  · exact hremembered.launch hscript target none true
  · exact hremembered

theorem edgeScripts (hscene : scene.Built) (hs : s.Primitive scene) :
    ∀ x ∈ edgeScripts s.world.scene, x.2.Built scene.registry := by
  intro x hx
  have hmem := (List.mem_filter.mp hx).1
  rw [hs.world.scripts] at hmem
  exact hscene.scripts x hmem

section

variable (hscene : scene.Built) (hr : scene.registry.Over ds)
include hscene hr

theorem takes {fuel i : Nat} {u : Turn} (hs : s.Primitive scene) (h : s.Takes fuel i u) :
    u.after.Primitive scene := by
  cases h with
  | rests ht _ => exact ⟨hs.world, hs.set (hs.polled (hs.threads _ (List.mem_of_getElem? ht))) i⟩
  | runs ht _ hstep =>
    have hpolled := hs.polled (hs.threads _ (List.mem_of_getElem? ht))
    obtain ⟨ht', hw⟩ := hpolled.step hscene hr hs.world hstep
    exact applyEffects hscene ⟨hw, hs.set ht' i⟩

theorem turns {fuel i : Nat} {log : List Turn} (hs : s.Primitive scene)
    (h : s.Turns fuel i log s') : s'.Primitive scene := by
  induction h with
  | nil => exact hs
  | cons htakes _ _ ih => exact ih (hs.takes hscene hr htakes)

theorem round {fuel active finished : Nat} {failure : Option ExecError} (hs : s.Primitive scene)
    (h : s.round fuel = some (active, finished, failure, s')) : s'.Primitive scene := by
  obtain ⟨s₁, hturns, -, rfl⟩ := round_cases h
  obtain ⟨log, hlog, -⟩ := turns_log hturns
  have hcompact := (hs.turns hscene hr hlog).compact
  split
  · exact hcompact
  · exact hcompact.settleWatchers

theorem beginsRound {fuel : Nat} {budget : Budget} {report : Report} (hs : s.Primitive scene)
    (h : s.BeginsRound fuel budget report s') : s'.Primitive scene := by
  induction h with
  | first => exact hs.beginFrame
  | next _ hround _ ih => exact ih.round hscene hr hround

theorem stepThreads {fuel : Nat} {budget : Budget} {result : Except ExecError Report}
    (hs : s.Primitive scene) (h : s.stepThreads fuel budget = some (result, s')) :
    s'.Primitive scene := by
  obtain ⟨report, s₁, active, finished, failure, timedOut, hbegins, hround, -⟩ := stepThreads_round h
  exact (hs.beginsRound hscene hr hbegins).round hscene hr hround

theorem checkEdge {fuel target : Nat} {script : Script} {result : Except ExecError Bool}
    (hs : s.Primitive scene) (hscript : script.Built scene.registry)
    (h : s.checkEdge fuel target script = some (result, s')) : s'.Primitive scene := by
  obtain ⟨slice, m, hdrive, rfl, -⟩ := checkEdge_cases h
  have hedge := hs.edge hr hscript target
  refine ⟨?_, hs.threads⟩
  cases hstep : Machine.evaluateAtOnce [] (.block script.top) { world := s.world, target } with
  | next m₀ =>
    rw [hstep] at hdrive hedge
    exact (hedge.drive hr hscene hdrive).1.world
  | halt result m₀ =>
    rw [hstep] at hdrive hedge
    cases hdrive
    exact hedge.world

theorem checkEdges {fuel : Nat} :
    ∀ {scripts : List (Nat × Script)} {result : Except ExecError (List Nat)} {s s' : Interpreter},
      s.Primitive scene → (∀ x ∈ scripts, x.2.Built scene.registry) →
      checkEdges fuel scripts s = some (result, s') → s'.Primitive scene
  | [], _, _, _, hs, _, h => by
    cases h
    exact hs
  | (target, script) :: rest, result, s, s', hs, hscripts, h => by
    obtain ⟨hscript, hrest⟩ := List.forall_mem_cons.mp hscripts
    rw [Interpreter.checkEdges] at h
    obtain ⟨⟨value, s₁⟩, hcheck, h⟩ := Option.bind_eq_some_iff.mp h
    have hs₁ := hs.checkEdge hscene hr hscript hcheck
    cases value with
    | error e =>
      cases h
      exact hs₁
    | ok value =>
      obtain ⟨⟨ids, s₂⟩, hchecks, heq⟩ := Option.map_eq_some_iff.mp h
      cases heq
      exact checkEdges (hs₁.noteEdge hscript target value) hrest hchecks

theorem startEdgeHats {fuel : Nat} {result : Except ExecError (List Nat)} (hs : s.Primitive scene)
    (h : s.startEdgeHats fuel = some (result, s')) : s'.Primitive scene := by
  obtain ⟨⟨result', s₁⟩, hcheck, heq⟩ := Option.map_eq_some_iff.mp h
  have hs₁ := hs.checkEdges hscene hr (hs.edgeScripts hscene) hcheck
  cases result' with
  | error e =>
    cases heq
    exact hs₁
  | ok ids =>
    cases heq
    exact hs₁.applyEffects hscene

theorem tick {fuel : Nat} {budget : Budget} {result : Except ExecError Report}
    (hs : s.Primitive scene) (h : s.tick fuel budget = some (result, s')) : s'.Primitive scene := by
  obtain ⟨⟨result', s₁⟩, hedges, h⟩ := Option.bind_eq_some_iff.mp h
  have hs₁ := hs.startEdgeHats hscene hr hedges
  cases result' with
  | error e =>
    cases h
    exact hs₁
  | ok ids => exact hs₁.stepThreads hscene hr h

end

end Primitive

end Interpreter

/-- What a host launches itself has been built from the registry too. -/
def Command.Built (r : Registry) : Command → Prop
  | .launch script .. => script.Built r
  | _ => True

namespace Interpreter

theorem Primitive.perform (hscene : scene.Built) (hr : scene.registry.Over ds) {fuel : Nat}
    {c : Command} {s s' : Interpreter} (hs : s.Primitive scene) (hc : c.Built scene.registry)
    (h : s.perform fuel c = some s') : s'.Primitive scene := by
  cases c with
  | launch script target payload restart =>
    cases h
    exact hs.launch hc target payload restart
  | trigger t =>
    cases h
    exact hs.trigger hscene t
  | greenFlag =>
    cases h
    have hstopped := hs.stopAll
    have hforgotten : Primitive scene
        { s.stopAll with world := s.stopAll.world.resetTimer, edges := [] } :=
      ⟨⟨hstopped.world.stored, hstopped.world.signals, hstopped.world.program⟩, hstopped.threads⟩
    exact hforgotten.trigger hscene .greenFlag
  | stopAll =>
    cases h
    exact hs.stopAll
  | startEdgeHats =>
    obtain ⟨⟨result, s₁⟩, hrun, rfl⟩ := Option.map_eq_some_iff.mp h
    exact hs.startEdgeHats hscene hr hrun
  | stepThreads budget =>
    obtain ⟨⟨result, s₁⟩, hrun, rfl⟩ := Option.map_eq_some_iff.mp h
    exact hs.stepThreads hscene hr hrun
  | tick budget =>
    obtain ⟨⟨result, s₁⟩, hrun, rfl⟩ := Option.map_eq_some_iff.mp h
    exact hs.tick hscene hr hrun
  | setClock clock =>
    cases h
    exact ⟨⟨hs.world.stored, hs.world.signals, hs.world.program⟩, hs.threads⟩
  | configure settings =>
    cases h
    exact ⟨hs.world, hs.threads⟩
  | retire thread =>
    cases h
    exact hs.modifyThread (fun t ht => Thread.primitive_finish ht.script none) thread
  | restart thread payload =>
    cases h
    exact hs.modifyThread (fun t ht => ht.restart payload) thread

/-! ### Sessions -/

/-- The states between two commands of a session that plays the scene. -/
inductive Plays (scene : Scene) : Interpreter → Prop
  | fresh (clock : Clock) (settings : SchedulerSettings) : Plays scene (.fresh scene clock settings)
  | perform {fuel : Nat} {c : Command} {s s' : Interpreter} :
      Plays scene s → c.Built scene.registry → s.perform fuel c = some s' → Plays scene s'

/-- All that is stored in a played scene that starts with primitive values stays primitive. -/
theorem Plays.primitive (hscene : scene.Built) (hr : scene.registry.Over ds)
    (hstored : scene.StoresPrimitive) {s : Interpreter} (h : s.Plays scene) : s.Primitive scene := by
  induction h with
  | fresh clock settings =>
    refine ⟨⟨hstored, fun t v hv => ?_, rfl⟩, fun t ht => absurd ht List.not_mem_nil⟩
    -- no signal has been begun
    cases hv
  | perform _ hc hperform ih => exact ih.perform hscene hr hc hperform

/-! ### Machines at work -/

/-- The machines that are at work on a command: those of the slices that threads run in their turns, as
long as no turn has ended the frame, and those that check the edge hats. -/
inductive Works (fuel : Nat) : Interpreter → Command → Machine → Prop
  | slice {budget : Budget} {report : Report} {s s₁ s₂ : Interpreter} {log : List Turn} {t : Thread}
      {m : Machine} :
      s.BeginsRound fuel budget report s₁ → s₁.Turns fuel 0 log s₂ →
      (∀ u ∈ log, u.failure? = none) → s₂.threads[log.length]? = some t →
      (s₂.polled t).status = .running → (s₂.world.scene.target? t.target).isSome →
      ((s₂.polled t).machine s₂.world).Reaches m → Works fuel s (.stepThreads budget) m
  | edge {s s₁ : Interpreter} {target : Nat} {script : Script} {before after : List (Nat × Script)}
      {ids : List Nat} {m₀ m : Machine} :
      edgeScripts s.world.scene = before ++ (target, script) :: after →
      checkEdges fuel before s = some (.ok ids, s₁) →
      Machine.evaluateAtOnce [] (.block script.top) { world := s₁.world, target } = .next m₀ →
      m₀.Reaches m → Works fuel s .startEdgeHats m
  | tickEdge {budget : Budget} {s : Interpreter} {m : Machine} :
      Works fuel s .startEdgeHats m → Works fuel s (.tick budget) m
  | tickSlice {budget : Budget} {ids : List Nat} {s s₁ : Interpreter} {m : Machine} :
      s.startEdgeHats fuel = some (.ok ids, s₁) → Works fuel s₁ (.stepThreads budget) m →
      Works fuel s (.tick budget) m

/-- Every machine at work is primitive. -/
theorem Works.primitive (hscene : scene.Built) (hr : scene.registry.Over ds) {fuel : Nat}
    {s : Interpreter} {c : Command} {m : Machine} (h : s.Works fuel c m) (hs : s.Primitive scene) :
    m.Primitive scene := by
  induction h with
  | slice hbegins hturns _ ht _ _ hreaches =>
    have hs₂ := (hs.beginsRound hscene hr hbegins).turns hscene hr hturns
    have ht := hs₂.polled (hs₂.threads _ (List.mem_of_getElem? ht))
    exact (ht.machine hs₂.world).reaches hr hscene hreaches
  | @edge s s₁ target script before after ids m₀ m hscripts hchecks hstart hreaches =>
    have hbuilt := hs.edgeScripts hscene
    rw [hscripts] at hbuilt
    obtain ⟨hbefore, hscript⟩ := List.forall_mem_append.mp hbuilt
    have hs₁ := hs.checkEdges hscene hr hbefore hchecks
    have hm₀ := hs₁.edge hr (hscript _ (List.mem_cons_self ..)) target
    rw [hstart] at hm₀
    exact Machine.Primitive.reaches hr hscene hm₀ hreaches
  | tickEdge _ ih => exact ih hs
  | tickSlice hedges _ ih => exact ih (hs.startEdgeHats hscene hr hedges)

end Interpreter

end Blockwork
