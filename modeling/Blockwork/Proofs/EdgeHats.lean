import Blockwork.Proofs.Dispatch

/-!
Edge hats fire when their reports become true, and at no other time.

What happens in a session leaves an edge hat alone (`Spares`) unless the hat is checked, the host
launches or restarts its script itself, or a green flag makes all edge hats forget: no thread of its
script is launched or restarted, and what it reported last is remembered.  A check of the edge hats
looks at each hat at most once, and only at the hats before the first error (`looks`).  The remembered
report is that of the last look since the green flag (`Tracks`), so a look starts the script exactly if
it finds the report true and the look before, if there is one, found it false.
-/

namespace Blockwork

open Relation

/-! ### The memory -/

namespace EdgeMemory

/-- Remembering a report replaces that one, and no other. -/
theorem latest_remember (key other : Nat × String) (value : Bool) (memory : EdgeMemory) :
    latest other (remember key value memory) = if key = other then value else latest other memory := by
  induction memory with
  | nil => simp [remember, latest]
  | cons entry memory ih =>
    obtain ⟨k, old⟩ := entry
    by_cases hk : k = key
    · subst hk
      by_cases hother : k = other <;> simp [remember, latest, hother]
    · by_cases hother : k = other
      · subst hother
        simp [remember, latest, hk, Ne.symm hk]
      · simp [remember, latest, hk, hother, ih]

end EdgeMemory

namespace Interpreter

variable {s s₁ s' s'' : Interpreter} {key : Nat × String} {script : Script} {target : Nat}

/-! ### What leaves an edge hat alone -/

/-- Every script with the top block has an edge hat. -/
def EdgeAt (top : String) (s : Interpreter) : Prop :=
  ∀ x ∈ s.world.scene.scripts, x.2.topId = top → x.2.hat.any Hat.isEdge = true

/-- The edge hat with the key has been left alone: no thread of its script has been launched or
restarted, and its report is still remembered. -/
structure Spares (key : Nat × String) (s s' : Interpreter) : Prop where
  follows : s.Follows s'
  scripts : s'.world.scene.scripts = s.world.scene.scripts
  memory : EdgeMemory.latest key s'.edges = EdgeMemory.latest key s.edges
  threads : ∀ t' ∈ s'.threads, t'.script.topId = key.2 → ∃ t ∈ s.threads, t.Continues t'

theorem spares_of_threads (hthreads : ∀ t' ∈ s'.threads, ∃ t ∈ s.threads, t.Continues t')
    (hfollows : s.Follows s') (hscripts : s'.world.scene.scripts = s.world.scene.scripts)
    (hedges : s'.edges = s.edges) : s.Spares key s' :=
  ⟨hfollows, hscripts, by rw [hedges], fun t' ht' _ => hthreads t' ht'⟩

/-- Nothing happens to the threads. -/
theorem spares_of_eq (hthreads : s'.threads = s.threads) (hnext : s'.nextId = s.nextId)
    (hscripts : s'.world.scene.scripts = s.world.scene.scripts) (hedges : s'.edges = s.edges) :
    s.Spares key s' := by
  refine spares_of_threads (fun t' ht' => ⟨t', hthreads ▸ ht', .refl t'⟩) ?_ hscripts hedges
  exact (adds_of_eq hnext (congrArg (List.map Thread.id) hthreads)).follows

theorem Spares.refl (s : Interpreter) : s.Spares key s := spares_of_eq rfl rfl rfl rfl

theorem Spares.trans (h : s.Spares key s') (h' : s'.Spares key s'') : s.Spares key s'' := by
  refine ⟨h.follows.trans h'.follows, h'.scripts.trans h.scripts, h'.memory.trans h.memory, ?_⟩
  intro t'' ht'' htop
  obtain ⟨t', ht', hlater⟩ := h'.threads t'' ht'' htop
  obtain ⟨t, ht, hearlier⟩ := h.threads t' ht' (hlater.script ▸ htop)
  exact ⟨t, ht, hearlier.trans hlater⟩

theorem Spares.edgeAt {top : String} (h : s.Spares key s') (hs : s.EdgeAt top) : s'.EdgeAt top := by
  rw [EdgeAt, h.scripts]
  exact hs

theorem launch_edges (script : Script) (target : Nat) (payload : Option Value) (restart : Bool)
    (s : Interpreter) : (s.launch script target payload restart).2.edges = s.edges := by
  simp only [launch]
  split <;> rfl

/-- Launching another script. -/
theorem spares_launch (hs : s.Ordered) (hother : script.topId ≠ key.2) (target : Nat)
    (payload : Option Value) (restart : Bool) :
    s.Spares key (s.launch script target payload restart).2 := by
  refine ⟨(adds_launch ..).follows, by rw [launch_world], by rw [launch_edges], ?_⟩
  intro t' ht' htop
  rcases launch_position hs script target payload restart with
    ⟨i, t, -, -, -, hlive, heq⟩ | ⟨-, heq⟩
  · rw [heq] at ht'
    rcases List.mem_or_eq_of_mem_set ht' with hmem | rfl
    · exact ⟨t', hmem, .refl t'⟩
    · exact absurd ((isLive_iff.mp hlive).2.symm.trans htop) hother
  · rw [heq] at ht'
    rcases List.mem_append.mp ht' with hmem | hnew
    · exact ⟨t', hmem, .refl t'⟩
    · rw [List.mem_singleton.mp hnew] at htop
      exact absurd htop hother

theorem spares_launchAll (payload : Option Value) {xs : List (Nat × Script × Bool)} :
    ∀ {s : Interpreter}, s.Ordered → (∀ x ∈ xs, x.2.1.topId ≠ key.2) →
      s.Spares key (launchAll payload xs s).2 := by
  induction xs with
  | nil => exact fun _ _ => .refl _
  | cons x xs ih =>
    intro s hs hxs
    have hfirst := spares_launch hs (hxs x (List.mem_cons_self ..)) x.1 payload x.2.2
    exact hfirst.trans (ih (hs.follows hfirst.follows) fun y hy => hxs y (List.mem_cons_of_mem _ hy))

/-- What a trigger fires has no edge hat. -/
theorem topId_ne_of_fired {x : Nat × Script × Bool} {top : String} (hs : s.EdgeAt top) {g : Trigger}
    (hx : x ∈ fired s.world.scene g) : x.2.1.topId ≠ top := by
  intro htop
  have hedge := hs _ (mem_scripts_of_fired hx) htop
  rw [fired_eq] at hx
  obtain ⟨y, hy, rfl⟩ := List.mem_map.mp hx
  obtain ⟨hat, hhat, hfires⟩ := (Option.any_eq_true _ _).mp (List.mem_filter.mp hy).2
  simp only [hhat, Option.any_some, Hat.isEdge, decide_eq_true_eq] at hedge
  rw [Hat.isFiredBy, hedge] at hfires
  cases hfires

theorem spares_trigger (hs : s.Ordered) (hedge : s.EdgeAt key.2) (g : Trigger) :
    s.Spares key (s.trigger g).2 :=
  spares_launchAll g.payload hs fun _ hx => topId_ne_of_fired hedge hx

theorem spares_applyEffect (hs : s.Ordered) (hedge : s.EdgeAt key.2) (e : Effect) :
    s.Spares key (s.applyEffect e) := by
  cases e with
  | broadcast g completion =>
    have htrigger : s.Spares key (s.trigger g).2 := spares_trigger hs hedge g
    simp only [applyEffect]
    split
    · exact htrigger
    · split
      · exact htrigger.trans (spares_of_eq rfl rfl rfl rfl)
      · exact htrigger.trans (spares_of_eq rfl rfl rfl rfl)
  | stopAll =>
    refine ⟨follows_applyEffect .stopAll s, rfl, rfl, fun t' ht' => ?_⟩
    exact absurd ht' List.not_mem_nil
  | stopOthers target except =>
    refine spares_of_threads (fun t' ht' => ?_) (s.adds_stopOthers target except).follows rfl rfl
    obtain ⟨t, ht, rfl⟩ := List.mem_map.mp ht'
    refine ⟨t, ht, ?_⟩
    split
    · exact ⟨⟨rfl, rfl, rfl⟩, rfl⟩
    · exact .refl t

theorem spares_applyEffects (hs : s.Ordered) (hedge : s.EdgeAt key.2) :
    s.Spares key s.applyEffects := by
  have htaking : s.Spares key (Moment.taking s).state := spares_of_eq rfl rfl rfl rfl
  exact applyEffects_induction htaking fun s₁ e h =>
    h.trans (spares_applyEffect (hs.follows h.follows) (h.edgeAt hedge) e)

/-- A thread is replaced by what it has become. -/
theorem spares_set {i : Nat} {t t' : Thread} (ht : s.threads[i]? = some t) (h : t.Continues t')
    {w : World} (hscripts : w.scene.scripts = s.world.scene.scripts) :
    s.Spares key { s with threads := s.threads.set i t', world := w } := by
  have hadds : s.Adds { s with threads := s.threads.set i t', world := w } :=
    adds_of_eq rfl (ids_set ht h.id)
  refine spares_of_threads (fun u hu => ?_) hadds.follows hscripts rfl
  rcases List.mem_or_eq_of_mem_set hu with hmem | rfl
  · exact ⟨u, hmem, .refl u⟩
  · exact ⟨t, List.mem_of_getElem? ht, h⟩

theorem continues_polled (s : Interpreter) (t : Thread) : t.Continues (s.polled t) := by
  rw [polled]
  split
  · exact Thread.continues_poll _ t
  · exact .refl t

theorem Takes.spares {fuel i : Nat} {u : Turn} (h : s.Takes fuel i u) (hs : s.Ordered)
    (hedge : s.EdgeAt key.2) : s.Spares key u.after := by
  cases h with
  | rests ht _ => exact spares_set ht (s.continues_polled _) rfl
  | @runs t t' w outcome ht _ hstep =>
    have hscripts : w.scene.scripts = s.world.scene.scripts := by
      rw [Scene.scripts_eq, Scene.scripts_eq, Thread.step_outline hstep]
    have hslice : s.Spares key { s with threads := s.threads.set i t', world := w } :=
      spares_set ht ((s.continues_polled t).trans (Thread.continues_step hstep)) hscripts
    exact hslice.trans (spares_applyEffects (hs.follows hslice.follows) (hslice.edgeAt hedge))

theorem Turns.spares {fuel i : Nat} {log : List Turn} (h : s.Turns fuel i log s') (hs : s.Ordered)
    (hedge : s.EdgeAt key.2) : s.Spares key s' := by
  induction h with
  | nil => exact .refl _
  | cons htakes _ _ ih =>
    have hturn := htakes.spares hs hedge
    exact hturn.trans (ih (hs.follows hturn.follows) (hturn.edgeAt hedge))

theorem round_spares {fuel active finished : Nat} {failure : Option ExecError}
    (h : s.round fuel = some (active, finished, failure, s')) (hs : s.Ordered)
    (hedge : s.EdgeAt key.2) : s.Spares key s' := by
  obtain ⟨s₁, hturns, -, rfl⟩ := round_cases h
  obtain ⟨log, hlog, -⟩ := turns_log hturns
  have hcompact : s₁.Spares key s₁.compact.2 :=
    spares_of_threads (fun t ht => ⟨t, (List.mem_filter.mp ht).1, .refl t⟩)
      (follows_of_sublist rfl (List.filter_sublist.map _)) rfl rfl
  refine ((hlog.spares hs hedge).trans hcompact).trans ?_
  split
  · exact .refl _
  · rw [settleWatchers_eq]
    exact spares_of_eq rfl rfl rfl rfl

theorem BeginsRound.spares {fuel : Nat} {budget : Budget} {report : Report}
    (h : s.BeginsRound fuel budget report s₁) (hs : s.Ordered) (hedge : s.EdgeAt key.2) :
    s.Spares key s₁ := by
  induction h with
  | first => exact spares_of_eq rfl rfl rfl rfl
  | next _ hround _ ih =>
    exact ih.trans (round_spares hround (hs.follows ih.follows) (ih.edgeAt hedge))

theorem stepThreads_spares {fuel : Nat} {budget : Budget} {r : Except ExecError Report}
    (h : s.stepThreads fuel budget = some (r, s')) (hs : s.Ordered) (hedge : s.EdgeAt key.2) :
    s.Spares key s' := by
  obtain ⟨report, s₁, active, finished, failure, timedOut, hbegins, hround, -⟩ :=
    stepThreads_round h
  have hbefore := hbegins.spares hs hedge
  exact hbefore.trans (round_spares hround (hs.follows hbefore.follows) (hbefore.edgeAt hedge))

/-- After a green flag there is no thread of a script with an edge hat. -/
theorem topId_ne_of_greenFlag {top : String} (hs : s.Ordered) (hedge : s.EdgeAt top) :
    ∀ t ∈ s.greenFlag.2.threads, t.script.topId ≠ top := by
  intro t ht htop
  have hstopped : Ordered { s.stopAll with world := s.stopAll.world.resetTimer, edges := [] } :=
    hs.follows (follows_of_sublist rfl (List.nil_sublist _))
  have hspares : Spares (0, top) _ s.greenFlag.2 := spares_trigger hstopped hedge .greenFlag
  obtain ⟨t₀, ht₀, -⟩ := hspares.threads t ht htop
  exact absurd ht₀ List.not_mem_nil

/-! ### Looking at an edge hat -/

theorem checkEdge_spares {fuel : Nat} {r : Except ExecError Bool}
    (h : s.checkEdge fuel target script = some (r, s')) : s.Spares key s' := by
  have hscripts : s'.world.scene.scripts = s.world.scene.scripts := by
    rw [Scene.scripts_eq, Scene.scripts_eq, checkEdge_outline h]
  obtain ⟨result, m, -, rfl, -⟩ := checkEdge_cases h
  exact spares_of_eq rfl rfl hscripts rfl

theorem noteEdge_spares (hs : s.Ordered) (hother : script.topId ≠ key.2) (target : Nat)
    (value : Bool) :
    s.Spares key (s.noteEdge target script value).2 := by
  have hmemory : EdgeMemory.latest key (EdgeMemory.remember (target, script.topId) value s.edges) =
      EdgeMemory.latest key s.edges := by
    rw [EdgeMemory.latest_remember, if_neg]
    rintro rfl
    exact hother rfl
  have hnoted : s.Spares key
      { s with edges := EdgeMemory.remember (target, script.topId) value s.edges } :=
    ⟨follows_of_sublist rfl (List.Sublist.refl _), rfl, hmemory,
      fun t' ht' _ => ⟨t', ht', .refl t'⟩⟩
  simp only [noteEdge]
  split
  · exact hnoted.trans (spares_launch (hs.follows hnoted.follows) hother target none true)
  · exact hnoted

/-- What is noted of an edge hat is remembered. -/
theorem noteEdge_memory (target : Nat) (script : Script) (value : Bool) (s : Interpreter) :
    (s.noteEdge target script value).2.edges =
      EdgeMemory.remember (target, script.topId) value s.edges := by
  simp only [noteEdge]
  split
  · exact launch_edges ..
  · rfl

/-- The script is started if the report is true and the one before was false, and left alone
otherwise. -/
theorem noteEdge_ids (hs : s.Ordered) (target : Nat) (script : Script) (value : Bool) :
    ((s.noteEdge target script value).1 ≠ [] ↔
      value = true ∧ EdgeMemory.latest (target, script.topId) s.edges = false) ∧
    ((s.noteEdge target script value).1 = [] →
      (s.noteEdge target script value).2.threads = s.threads) ∧
    ∀ id ∈ (s.noteEdge target script value).1, (s.noteEdge target script value).1 = [id] ∧
      Starts none s (s.noteEdge target script value).2 (target, script, true) id := by
  generalize hnoted : { s with
    edges := EdgeMemory.remember (target, script.topId) value s.edges } = noted
  have hordered : noted.Ordered := by
    rw [← hnoted]
    exact hs.follows (follows_of_sublist rfl (List.Sublist.refl _))
  obtain ⟨hstarts, -⟩ := starts_launch hordered none (target, script, true)
  simp only [noteEdge, hnoted]
  split
  · rename_i hrises
    rw [Bool.and_eq_true, Bool.not_eq_true'] at hrises
    refine ⟨⟨fun _ => hrises, fun _ => List.cons_ne_nil _ _⟩, fun h => ?_, fun id hid => ?_⟩
    · exact absurd h (List.cons_ne_nil _ _)
    · rw [List.mem_singleton.mp hid]
      refine ⟨rfl, hstarts.of_threads ?_ ?_⟩ <;> rw [← hnoted]
  · rename_i hstays
    rw [Bool.and_eq_true, Bool.not_eq_true'] at hstays
    refine ⟨⟨fun h => absurd rfl h, fun h => absurd h hstays⟩, fun _ => ?_, fun id hid => ?_⟩
    · rw [← hnoted]
    · exact absurd hid List.not_mem_nil

end Interpreter

/-! ### Looks -/

/-- A look at an edge hat as it went. -/
structure Look where
  target : Nat
  script : Script
  /-- What the hat was evaluated in. -/
  asked : Interpreter
  /-- What was taken as the truth of its report, and what the evaluation left. -/
  value : Bool
  told : Interpreter
  /-- The threads that were started, and what that left. -/
  ids : List Nat
  after : Interpreter

namespace Look

def key (u : Look) : Nat × String := (u.target, u.script.topId)

/-- The look found the truth of what the hat reports, or an error that does not end the frame and
counts as false. -/
def Reports (fuel : Nat) (u : Look) : Prop :=
  ∃ reply cx, Context.evaluateAtOnce fuel (.block u.script.top)
      { world := u.asked.world, target := u.target } = some (reply, cx) ∧
    match reply with
    | .ok v => u.value = v.toBool
    | .error e => u.asked.isFatal e = false ∧ u.value = false

/-- Each look has started the script exactly if it found the report true and the one before found it
false.  The first is compared with the given value. -/
def Rising : Bool → List Look → Prop
  | _, [] => True
  | previous, u :: rest =>
    (u.ids ≠ [] ↔ u.value = true ∧ previous = false) ∧ Rising u.value rest

/-- What the last look found. -/
def last (previous : Bool) (log : List Look) : Bool := log.getLast?.elim previous Look.value

theorem last_cons (previous : Bool) (u : Look) (log : List Look) :
    last previous (u :: log) = last u.value log := by
  cases log with
  | nil => rfl
  | cons v log => simp [last, List.getLast?_cons]

/-- A look is at an edge hat of the scene, and what it noted decided what was started. -/
structure Sound (scene : Scene) (u : Look) : Prop where
  mem : (u.target, u.script) ∈ scene.scripts
  ordered : u.told.Ordered
  noted : u.told.noteEdge u.target u.script u.value = (u.ids, u.after)

theorem last_eq_false_iff {log : List Look} :
    last false log = false ↔ ∀ v ∈ log.getLast?, v.value = false := by
  rw [last]
  cases log.getLast? <;> simp

theorem last_append (log more : List Look) : ∀ previous : Bool,
    last previous (log ++ more) = last (last previous log) more := by
  induction log with
  | nil => exact fun _ => rfl
  | cons u log ih =>
    intro previous
    rw [List.cons_append, last_cons, last_cons, ih]

theorem rising_append {log more : List Look} : ∀ {previous : Bool},
    Rising previous (log ++ more) ↔ Rising previous log ∧ Rising (last previous log) more := by
  induction log with
  | nil => exact ⟨fun h => ⟨trivial, h⟩, And.right⟩
  | cons u log ih =>
    intro previous
    rw [List.cons_append, Rising, Rising, ih, last_cons, and_assoc]

end Look

theorem Acts.onlooker_outline {s s' : Interpreter} (h : Acts .onlooker s s') :
    s'.world.scene.outline = s.world.scene.outline := by
  induction h with
  | refl => rfl
  | tail _ hact ih => exact hact.onlooker_outline.trans ih

namespace Interpreter

variable {s s₁ s' s'' : Interpreter} {key : Nat × String} {script : Script} {target fuel : Nat}
  {scene : Scene}

/-- The looks that a check of edge hats takes, up to the first error that ends the frame. -/
def looks (fuel : Nat) : List (Nat × Script) → Interpreter → List Look
  | [], _ => []
  | (target, script) :: rest, s =>
    match s.checkEdge fuel target script with
    | some (.ok value, told) =>
      let (ids, after) := told.noteEdge target script value
      ⟨target, script, s, value, told, ids, after⟩ :: looks fuel rest after
    | _ => []

/-- The looks at edge hats since the last green flag, after another command. -/
def watch (fuel : Nat) (log : List Look) (s : Interpreter) : Command → List Look
  | .greenFlag => []
  | .startEdgeHats | .tick _ => log ++ looks fuel (edgeScripts s.world.scene) s
  | _ => log

/-- The states of a session with the scripts of the scene, each with the looks at edge hats since the
last green flag.  The host may act on the threads and change what is in the scene. -/
inductive Watched (scene : Scene) : List Look → Interpreter → Prop
  | fresh (clock : Clock) (settings : SchedulerSettings) :
      Watched scene [] (.fresh scene clock settings)
  | perform {fuel : Nat} {c : Command} {log : List Look} {s s' : Interpreter} :
      Watched scene log s → s.perform fuel c = some s' → Watched scene (watch fuel log s c) s'
  | arrange {log : List Look} {s s' : Interpreter} : Watched scene log s → Act .unbound s s' →
      s'.edges = s.edges → s'.world.scene.scripts = s.world.scene.scripts → Watched scene log s'

/-! ### What a check does -/

theorem adds_noteEdge (target : Nat) (script : Script) (value : Bool) (s : Interpreter) :
    s.Adds (s.noteEdge target script value).2 := by
  generalize hnoted : { s with
    edges := EdgeMemory.remember (target, script.topId) value s.edges } = noted
  have hadds : s.Adds noted := by
    rw [← hnoted]
    exact adds_of_eq rfl rfl
  simp only [noteEdge, hnoted]
  split
  · exact hadds.trans (adds_launch ..)
  · exact hadds

/-- A check that gets past its first hat has looked at it. -/
theorem checkEdges_cons {rest : List (Nat × Script)} {r : Except ExecError (List Nat)}
    (hs : s.Ordered) (h : checkEdges fuel ((target, script) :: rest) s = some (r, s')) :
    (∃ e, s.checkEdge fuel target script = some (.error e, s') ∧ r = .error e ∧
      looks fuel ((target, script) :: rest) s = []) ∨
    ∃ u result, u.target = target ∧ u.script = script ∧ u.asked = s ∧
      s.checkEdge fuel target script = some (.ok u.value, u.told) ∧ u.told.Ordered ∧
      u.told.noteEdge target script u.value = (u.ids, u.after) ∧ u.after.Ordered ∧
      checkEdges fuel rest u.after = some (result, s') ∧ r = result.map (u.ids ++ ·) ∧
      looks fuel ((target, script) :: rest) s = u :: looks fuel rest u.after := by
  rw [checkEdges] at h
  obtain ⟨⟨report, told⟩, hcheck, h⟩ := Option.bind_eq_some_iff.mp h
  cases report with
  | error e =>
    cases h
    exact .inl ⟨e, hcheck, rfl, by rw [looks, hcheck]⟩
  | ok value =>
    simp only at h
    generalize hnoted : told.noteEdge target script value = noted at h
    obtain ⟨ids, after⟩ := noted
    obtain ⟨⟨result, s₂⟩, hrest, heq⟩ := Option.map_eq_some_iff.mp h
    cases heq
    have hspares : s.Spares (target, script.topId) told := checkEdge_spares hcheck
    have htold : told.Ordered := hs.follows hspares.follows
    have hadds := adds_noteEdge target script value told
    rw [hnoted] at hadds
    refine .inr ⟨⟨target, script, s, value, told, ids, after⟩, result, rfl, rfl, rfl, hcheck, htold,
      hnoted, htold.follows hadds.follows, hrest, rfl, ?_⟩
    simp only [looks, hcheck, hnoted]

/-- A hat that was evaluated reports what was evaluated. -/
theorem reports_of_checkEdge {u : Look}
    (h : u.asked.checkEdge fuel u.target u.script = some (.ok u.value, u.told)) : u.Reports fuel := by
  obtain ⟨⟨reply, cx⟩, heval, heq⟩ := Option.map_eq_some_iff.mp h
  refine ⟨reply, cx, heval, ?_⟩
  cases reply with
  | ok v =>
    simp only [Prod.mk.injEq, Except.ok.injEq] at heq
    exact heq.1.symm
  | error e =>
    simp only [Prod.mk.injEq] at heq
    obtain ⟨hvalue, -⟩ := heq
    split at hvalue
    · cases hvalue
    · rename_i hfatal
      exact ⟨Bool.eq_false_iff.mpr hfatal, (Except.ok.inj hvalue).symm⟩

/-- The looks of a check are at its hats. -/
theorem looks_sound {hats : List (Nat × Script)} {r : Except ExecError (List Nat)} :
    ∀ {s : Interpreter}, (∀ x ∈ hats, x ∈ scene.scripts) → s.Ordered →
      checkEdges fuel hats s = some (r, s') →
      ∀ u ∈ looks fuel hats s, u.Sound scene ∧ u.Reports fuel := by
  induction hats generalizing r with
  | nil => exact fun _ _ _ u hu => absurd hu List.not_mem_nil
  | cons x rest ih =>
    obtain ⟨target, script⟩ := x
    intro s hhats hs h
    rcases checkEdges_cons hs h with ⟨e, -, -, hlooks⟩ |
      ⟨u, result, rfl, rfl, rfl, hcheck, htold, hnoted, hafter, hrest, -, hlooks⟩
    · rw [hlooks]
      exact fun u hu => absurd hu List.not_mem_nil
    · rw [hlooks]
      refine List.forall_mem_cons.mpr ⟨⟨⟨hhats _ (List.mem_cons_self ..), htold, hnoted⟩,
        reports_of_checkEdge hcheck⟩, ?_⟩
      exact ih (fun x hx => hhats x (List.mem_cons_of_mem _ hx)) hafter hrest

/-- A look at a hat replaces what is remembered of it, and no look at another hat does. -/
theorem latest_noteEdge {u : Look}
    (hcheck : s.checkEdge fuel u.target u.script = some (.ok u.value, u.told))
    (hnoted : u.told.noteEdge u.target u.script u.value = (u.ids, u.after)) (key : Nat × String) :
    EdgeMemory.latest key u.after.edges =
      if u.key = key then u.value else EdgeMemory.latest key s.edges := by
  have hedges := noteEdge_memory u.target u.script u.value u.told
  rw [hnoted] at hedges
  rw [hedges, EdgeMemory.latest_remember, (checkEdge_spares hcheck).memory]
  rfl

/-- Each look at a hat is compared with the one before, and the last one is remembered. -/
theorem rising_looks (key : Nat × String) {hats : List (Nat × Script)}
    {r : Except ExecError (List Nat)} : ∀ {s : Interpreter}, s.Ordered →
      checkEdges fuel hats s = some (r, s') →
      Look.Rising (EdgeMemory.latest key s.edges)
        ((looks fuel hats s).filter fun u => u.key = key) ∧
      EdgeMemory.latest key s'.edges = Look.last (EdgeMemory.latest key s.edges)
        ((looks fuel hats s).filter fun u => u.key = key) := by
  induction hats generalizing r with
  | nil =>
    intro s _ h
    cases h
    exact ⟨trivial, rfl⟩
  | cons x rest ih =>
    obtain ⟨target, script⟩ := x
    intro s hs h
    rcases checkEdges_cons hs h with ⟨e, hcheck, -, hlooks⟩ |
      ⟨u, result, rfl, rfl, rfl, hcheck, htold, hnoted, hafter, hrest, -, hlooks⟩
    · rw [hlooks]
      exact ⟨trivial, (checkEdge_spares hcheck).memory⟩
    · obtain ⟨hids, -, -⟩ := noteEdge_ids htold u.target u.script u.value
      rw [hnoted] at hids
      have hlater := ih hafter hrest
      rw [latest_noteEdge hcheck hnoted key] at hlater
      rw [hlooks]
      by_cases hkey : u.key = key
      · subst hkey
        rw [if_pos rfl] at hlater
        rw [List.filter_cons_of_pos (by simp), Look.last_cons]
        refine ⟨⟨?_, hlater.1⟩, hlater.2⟩
        rw [← (checkEdge_spares hcheck).memory]
        exact hids
      · rw [if_neg hkey] at hlater
        rw [List.filter_cons_of_neg (by simpa using hkey)]
        exact hlater

/-- A check of other hats. -/
theorem checkEdges_spares {hats : List (Nat × Script)} {r : Except ExecError (List Nat)} :
    ∀ {s : Interpreter}, s.Ordered → (∀ x ∈ hats, x.2.topId ≠ key.2) →
      checkEdges fuel hats s = some (r, s') →
      s.Spares key s' ∧ (looks fuel hats s).filter (fun u => u.key = key) = [] := by
  induction hats generalizing r with
  | nil =>
    intro s _ _ h
    cases h
    exact ⟨.refl _, rfl⟩
  | cons x rest ih =>
    obtain ⟨target, script⟩ := x
    intro s hs hother h
    have hne := hother _ (List.mem_cons_self ..)
    rcases checkEdges_cons hs h with ⟨e, hcheck, -, hlooks⟩ |
      ⟨u, result, rfl, rfl, rfl, hcheck, htold, hnoted, hafter, hrest, -, hlooks⟩
    · exact ⟨checkEdge_spares hcheck, by rw [hlooks]; rfl⟩
    · have hspares := noteEdge_spares htold hne u.target u.value
      rw [hnoted] at hspares
      obtain ⟨hlater, hnone⟩ := ih hafter (fun x hx => hother x (List.mem_cons_of_mem _ hx)) hrest
      refine ⟨((checkEdge_spares hcheck).trans hspares).trans hlater, ?_⟩
      have hkey : ¬ u.key = key := fun hkey => hne (congrArg Prod.snd hkey)
      rw [hlooks, List.filter_cons_of_neg (by simpa using hkey), hnone]

/-- A check of different hats looks at each of them once and leaves it alone before and after, unless it
fails before that. -/
theorem looks_once {hats : List (Nat × Script)} {r : Except ExecError (List Nat)} :
    ∀ {s : Interpreter}, s.Ordered → hats.Pairwise (fun x y => x.2.topId ≠ y.2.topId) →
      (target, script) ∈ hats → checkEdges fuel hats s = some (r, s') →
      (∃ u, (looks fuel hats s).filter (fun u => u.key = (target, script.topId)) = [u] ∧
        s.Spares (target, script.topId) u.told ∧ u.after.Spares (target, script.topId) s') ∨
      ((looks fuel hats s).filter (fun u => u.key = (target, script.topId)) = [] ∧
        (∃ e, r = .error e) ∧ s.Spares (target, script.topId) s') := by
  induction hats generalizing r with
  | nil => exact fun _ _ hmem _ => absurd hmem List.not_mem_nil
  | cons x rest ih =>
    obtain ⟨target', script'⟩ := x
    intro s hs hhats hmem h
    obtain ⟨hfirst, hlast⟩ := List.pairwise_cons.mp hhats
    rcases checkEdges_cons hs h with ⟨e, hcheck, rfl, hlooks⟩ |
      ⟨u, result, rfl, rfl, rfl, hcheck, htold, hnoted, hafter, hrest, rfl, hlooks⟩
    · exact .inr ⟨by rw [hlooks]; rfl, ⟨e, rfl⟩, checkEdge_spares hcheck⟩
    · have hasked : u.asked.Spares (target, script.topId) u.told := checkEdge_spares hcheck
      rw [hlooks]
      rcases List.mem_cons.mp hmem with heq | hmem
      · cases heq
        have hother : ∀ x ∈ rest, x.2.topId ≠ u.key.2 := fun x hx => (hfirst x hx).symm
        obtain ⟨hlater, hnone⟩ := checkEdges_spares hafter hother hrest
        refine .inl ⟨u, ?_, hasked, hlater⟩
        rw [List.filter_cons_of_pos (by simp [Look.key])]
        exact congrArg (u :: ·) hnone
      · have hne := hfirst _ hmem
        have hnote : u.told.Spares (target, script.topId) _ :=
          noteEdge_spares htold hne u.target u.value
        rw [hnoted] at hnote
        have hspares := hasked.trans hnote
        rw [List.filter_cons_of_neg (by simpa [Look.key] using fun _ htop => hne htop)]
        refine (ih hafter hlast hmem hrest).imp ?_ ?_
        · rintro ⟨v, hv, hbefore, hlater⟩
          exact ⟨v, hv, hspares.trans hbefore, hlater⟩
        · rintro ⟨hnone, ⟨e, rfl⟩, hlater⟩
          exact ⟨hnone, ⟨e, rfl⟩, hspares.trans hlater⟩

/-! ### Histories -/

/-- The looks at the edge hat with the key since the last green flag: each was compared with the one
before, and the last one is remembered. -/
structure Tracks (scene : Scene) (key : Nat × String) (log : List Look) (s : Interpreter) : Prop where
  ordered : s.Ordered
  scripts : s.world.scene.scripts = scene.scripts
  sound : ∀ u ∈ log, u.Sound scene
  rising : Look.Rising false (log.filter fun u => u.key = key)
  memory : EdgeMemory.latest key s.edges = Look.last false (log.filter fun u => u.key = key)

namespace Tracks

variable {log : List Look}

theorem of_follows (hs : s.Tracks scene key log) (hfollows : s.Follows s')
    (hscripts : s'.world.scene.scripts = s.world.scene.scripts)
    (hmemory : EdgeMemory.latest key s'.edges = EdgeMemory.latest key s.edges) :
    s'.Tracks scene key log :=
  ⟨hs.ordered.follows hfollows, hscripts.trans hs.scripts, hs.sound, hs.rising,
    hmemory.trans hs.memory⟩

theorem spares (hs : s.Tracks scene key log) (h : s.Spares key s') : s'.Tracks scene key log :=
  hs.of_follows h.follows h.scripts h.memory

theorem checkEdges {hats : List (Nat × Script)} {r : Except ExecError (List Nat)}
    (hs : s.Tracks scene key log) (hhats : ∀ x ∈ hats, x ∈ s.world.scene.scripts)
    (h : Interpreter.checkEdges fuel hats s = some (r, s')) :
    s'.Tracks scene key (log ++ looks fuel hats s) := by
  obtain ⟨hrising, hmemory⟩ := rising_looks key hs.ordered h
  have hcareful : CarefulActs .onlooker s s' := checkEdges_careful hhats h
  rw [hs.scripts] at hhats
  rw [hs.memory] at hrising hmemory
  refine ⟨hs.ordered.follows hcareful.acts.follows, ?_, ?_, ?_, ?_⟩
  · rw [← hs.scripts, Scene.scripts_eq, Scene.scripts_eq, hcareful.acts.onlooker_outline]
  · exact List.forall_mem_append.mpr
      ⟨hs.sound, fun u hu => (looks_sound hhats hs.ordered h u hu).1⟩
  · rw [List.filter_append]
    exact Look.rising_append.mpr ⟨hs.rising, hrising⟩
  · rw [List.filter_append, hmemory, Look.last_append]

theorem startEdgeHats {r : Except ExecError (List Nat)} (hs : s.Tracks scene key log)
    (hedge : s.EdgeAt key.2) (h : s.startEdgeHats fuel = some (r, s')) :
    s'.Tracks scene key (log ++ looks fuel (edgeScripts s.world.scene) s) := by
  obtain ⟨⟨result, s₁⟩, hcheck, heq⟩ := Option.map_eq_some_iff.mp h
  have hs₁ := hs.checkEdges (fun x hx => (List.mem_filter.mp hx).1) hcheck
  cases result with
  | error e =>
    cases heq
    exact hs₁
  | ok ids =>
    cases heq
    refine hs₁.spares (spares_applyEffects hs₁.ordered ?_)
    rw [EdgeAt, hs₁.scripts, ← hs.scripts]
    exact hedge

end Tracks

theorem startEdgeHats_follows {r : Except ExecError (List Nat)}
    (h : s.startEdgeHats fuel = some (r, s')) :
    s.Follows s' ∧ s'.world.scene.scripts = s.world.scene.scripts := by
  have hcareful : CarefulActs .onlooker s s' := startEdgeHats_careful h
  refine ⟨hcareful.acts.follows, ?_⟩
  rw [Scene.scripts_eq, Scene.scripts_eq, hcareful.acts.onlooker_outline]

/-- A tick leaves edge hats alone once they have been checked. -/
theorem tick_spares {budget : Budget} {r : Except ExecError Report}
    (h : s.tick fuel budget = some (r, s')) (hs : s.Ordered) (hedge : s.EdgeAt key.2) :
    ∃ r₁ s₁, s.startEdgeHats fuel = some (r₁, s₁) ∧ s₁.Spares key s' := by
  obtain ⟨⟨r₁, s₁⟩, hcheck, h⟩ := Option.bind_eq_some_iff.mp h
  refine ⟨r₁, s₁, hcheck, ?_⟩
  cases r₁ with
  | error e =>
    cases h
    exact .refl _
  | ok ids =>
    obtain ⟨hfollows, hscripts⟩ := startEdgeHats_follows hcheck
    refine stepThreads_spares h (hs.follows hfollows) ?_
    rw [EdgeAt, hscripts]
    exact hedge

/-- A check of the edge hats looks at one of them once and leaves it alone before and after, or fails
and leaves it alone. -/
theorem Tracks.looks_once {log : List Look} {r : Except ExecError (List Nat)}
    (hs : s.Tracks scene (target, script.topId) log)
    (hdistinct : (scene.scripts.map fun x => x.2.topId).Nodup)
    (hmem : (target, script) ∈ edgeScripts s.world.scene) (hedge : s.EdgeAt script.topId)
    (h : s.startEdgeHats fuel = some (r, s')) :
    (∃ u, (looks fuel (edgeScripts s.world.scene) s).filter
        (fun u => u.key = (target, script.topId)) = [u] ∧ u.Reports fuel ∧
      s.Spares (target, script.topId) u.told ∧ u.after.Spares (target, script.topId) s') ∨
    ((looks fuel (edgeScripts s.world.scene) s).filter
        (fun u => u.key = (target, script.topId)) = [] ∧
      (∃ e, r = .error e) ∧ s.Spares (target, script.topId) s') := by
  obtain ⟨⟨result, s₁⟩, hcheck, heq⟩ := Option.map_eq_some_iff.mp h
  have hhats : ∀ x ∈ edgeScripts s.world.scene, x ∈ s.world.scene.scripts :=
    fun x hx => (List.mem_filter.mp hx).1
  have hs₁ := hs.checkEdges hhats hcheck
  -- the effects that the check has asked for leave the hat alone
  have hends : s₁.Spares (target, script.topId) s' ∧ ∀ e, result = .error e → r = .error e := by
    cases result with
    | error e =>
      cases heq
      exact ⟨.refl _, fun _ he => he⟩
    | ok ids =>
      cases heq
      refine ⟨spares_applyEffects hs₁.ordered ?_, fun e he => by cases he⟩
      rw [EdgeAt, hs₁.scripts, ← hs.scripts]
      exact hedge
  have htops : (edgeScripts s.world.scene).Pairwise fun x y => x.2.topId ≠ y.2.topId := by
    rw [edgeScripts, hs.scripts]
    exact (List.pairwise_map.mp hdistinct).filter _
  rcases Interpreter.looks_once hs.ordered htops hmem hcheck with
    ⟨u, hlooks, hbefore, hafter⟩ | ⟨hnone, ⟨e, he⟩, hspares⟩
  · have hu := (List.mem_filter.mp (hlooks ▸ List.mem_singleton_self u)).1
    exact .inl ⟨u, hlooks, (looks_sound hhats hs.ordered hcheck u hu).2, hbefore,
      hafter.trans hends.1⟩
  · exact .inr ⟨hnone, ⟨e, hends.2 e he⟩, hspares.trans hends.1⟩

/-- What a session remembers of an edge hat is what the last look found. -/
theorem Watched.tracks {log : List Look} (hedge : ∀ x ∈ scene.scripts, x.2.topId = key.2 →
    x.2.hat.any Hat.isEdge = true) (h : s.Watched scene log) : s.Tracks scene key log := by
  induction h with
  | fresh clock settings =>
    exact ⟨ordered_fresh scene clock settings, rfl, fun _ hu => absurd hu List.not_mem_nil, trivial, rfl⟩
  | @arrange log s s' _ hact hedges hscripts ih =>
    exact ih.of_follows hact.follows hscripts (by rw [hedges])
  | @perform fuel c log s s' _ hperform ih =>
    have hedge' : s.EdgeAt key.2 := by
      rw [EdgeAt, ih.scripts]
      exact hedge
    cases c with
    | launch script target payload restart =>
      cases hperform
      exact ih.of_follows (adds_launch ..).follows (by rw [launch_world]) (by rw [launch_edges])
    | trigger g =>
      cases hperform
      exact ih.spares (spares_trigger ih.ordered hedge' g)
    | greenFlag =>
      cases hperform
      have hreset : Tracks scene key []
          { s.stopAll with world := s.stopAll.world.resetTimer, edges := [] } :=
        ⟨ih.ordered.follows (follows_of_sublist rfl (List.nil_sublist _)), ih.scripts,
          fun _ hu => absurd hu List.not_mem_nil, trivial, rfl⟩
      exact hreset.spares (spares_trigger hreset.ordered hedge' .greenFlag)
    | stopAll =>
      cases hperform
      exact ih.spares (spares_applyEffect ih.ordered hedge' .stopAll)
    | startEdgeHats =>
      obtain ⟨⟨r, s₁⟩, hrun, rfl⟩ := Option.map_eq_some_iff.mp hperform
      exact ih.startEdgeHats hedge' hrun
    | stepThreads budget =>
      obtain ⟨⟨r, s₁⟩, hrun, rfl⟩ := Option.map_eq_some_iff.mp hperform
      exact ih.spares (stepThreads_spares hrun ih.ordered hedge')
    | tick budget =>
      obtain ⟨⟨r, s₁⟩, hrun, rfl⟩ := Option.map_eq_some_iff.mp hperform
      obtain ⟨r₁, s₂, hcheck, hspares⟩ := tick_spares hrun ih.ordered hedge'
      exact (ih.startEdgeHats hedge' hcheck).spares hspares
    | setClock clock =>
      cases hperform
      exact ih.spares (spares_of_eq rfl rfl rfl rfl)
    | configure settings =>
      cases hperform
      exact ih.spares (spares_of_eq rfl rfl rfl rfl)
    | retire thread =>
      cases hperform
      have hadds : s.Adds (s.modifyThread thread Thread.retire) :=
        adds_modifyThread fun _ _ _ => ⟨rfl, rfl, rfl⟩
      exact ih.of_follows hadds.follows rfl rfl
    | restart thread payload =>
      cases hperform
      exact ih.of_follows (s.adds_restart thread payload).follows rfl rfl

end Interpreter

open Interpreter in
/-- Edge hats fire when their reports become true.  Take a scene whose scripts have different top
blocks, one of its edge hats, and a session in which the host may act on the threads as it likes.  A
look at the hat starts its script exactly if it finds the report true, and the look before it, if there
is one since the last green flag, has found it false; if it starts nothing it leaves the threads as
they are.  A check of the edge hats takes one look at this one, finds what the hat reports, and leaves
it alone before and after; or it fails at this hat or an earlier one, and leaves it alone.  A tick
leaves it alone once the hats have been checked, and stepping the threads, triggers and the effects of
blocks do so always.  After a green flag there is no thread of the script. -/
theorem edge_hats_fire_on_rising_reports {scene : Scene} {log : List Look} {s : Interpreter}
    {target : Nat} {script : Script} (hdistinct : (scene.scripts.map fun x => x.2.topId).Nodup)
    (hmem : (target, script) ∈ scene.scripts) (hedge : script.hat.any Hat.isEdge = true)
    (h : s.Watched scene log) :
    (∀ earlier u later,
      log.filter (fun u => u.key = (target, script.topId)) = earlier ++ u :: later →
      (u.ids ≠ [] ↔ u.value = true ∧ ∀ v ∈ earlier.getLast?, v.value = false) ∧
      (u.ids = [] → u.after.threads = u.told.threads) ∧
      ∀ id ∈ u.ids, u.ids = [id] ∧ Starts none u.told u.after (target, script, true) id) ∧
    (∀ fuel r s', s.startEdgeHats fuel = some (r, s') →
      (∃ u, (looks fuel (edgeScripts s.world.scene) s).filter
          (fun u => u.key = (target, script.topId)) = [u] ∧ u.Reports fuel ∧
        s.Spares (target, script.topId) u.told ∧ u.after.Spares (target, script.topId) s') ∨
      ((looks fuel (edgeScripts s.world.scene) s).filter
          (fun u => u.key = (target, script.topId)) = [] ∧
        (∃ e, r = .error e) ∧ s.Spares (target, script.topId) s')) ∧
    (∀ fuel budget r s', s.tick fuel budget = some (r, s') →
      ∃ r₁ s₁, s.startEdgeHats fuel = some (r₁, s₁) ∧ s₁.Spares (target, script.topId) s') ∧
    (∀ fuel budget r s', s.stepThreads fuel budget = some (r, s') →
      s.Spares (target, script.topId) s') ∧
    (∀ g, s.Spares (target, script.topId) (s.trigger g).2) ∧
    (∀ e, s.Spares (target, script.topId) (s.applyEffect e)) ∧
    ∀ t ∈ s.greenFlag.2.threads, t.script.topId ≠ script.topId := by
  have honly : ∀ x ∈ scene.scripts, x.2.topId = script.topId → x = (target, script) :=
    fun x hx htop => List.inj_on_of_nodup_map hdistinct hx hmem htop
  have htops : ∀ x ∈ scene.scripts, x.2.topId = script.topId → x.2.hat.any Hat.isEdge = true :=
    fun x hx htop => by rw [honly x hx htop]; exact hedge
  have hs : s.Tracks scene (target, script.topId) log := h.tracks htops
  have hedgeAt : s.EdgeAt script.topId := by
    rw [EdgeAt, hs.scripts]
    exact htops
  refine ⟨fun earlier u later hlog => ?_, fun fuel r s' hcheck => ?_,
    fun fuel budget r s' htick => tick_spares htick hs.ordered hedgeAt,
    fun fuel budget r s' hstep => stepThreads_spares hstep hs.ordered hedgeAt,
    fun g => spares_trigger hs.ordered hedgeAt g, fun e => spares_applyEffect hs.ordered hedgeAt e,
    topId_ne_of_greenFlag hs.ordered hedgeAt⟩
  · have hu : u ∈ log.filter fun u => u.key = (target, script.topId) := by simp [hlog]
    obtain ⟨hulog, hkey⟩ := List.mem_filter.mp hu
    obtain ⟨hscene, htold, hnoted⟩ := hs.sound u hulog
    obtain ⟨rfl, rfl⟩ := Prod.mk.inj
      (honly _ hscene (congrArg Prod.snd (of_decide_eq_true hkey)))
    have hrising := hs.rising
    rw [hlog] at hrising
    obtain ⟨hids, -⟩ := (Look.rising_append.mp hrising).2
    obtain ⟨-, hquiet, hstarts⟩ := noteEdge_ids htold u.target u.script u.value
    rw [hnoted] at hquiet hstarts
    exact ⟨hids.trans (and_congr_right fun _ => Look.last_eq_false_iff), hquiet, hstarts⟩
  · refine hs.looks_once hdistinct (List.mem_filter.mpr ⟨?_, hedge⟩) hedgeAt hcheck
    rw [hs.scripts]
    exact hmem

/-- A script that starts when the variable `on` becomes true. -/
def Script.watching : Script :=
  ⟨.mk { Library.reporter "event_whenvariable" [("VARIABLE", .field)] [.boolean] .getVariable with
      hat := some .edge } "watch" 5 [("VARIABLE", .literal (.str "on"))], []⟩

/-- A scene with that script, and the variable. -/
def Scene.watching (on : Bool) : Scene :=
  { targets := [{ Target.stage with vars := [("on", .bool on)], scripts := [.watching] }] }

/-- The host sets the variable. -/
def Interpreter.switch (on : Bool) (s : Interpreter) : Interpreter :=
  { s with world := { s.world with scene := .watching on } }

/-- The edge hats are checked twice while the variable is true, then once while it is false, and once
while it is true again: the first check starts the script, and the last one starts it over. -/
theorem edge_hats_fire_on_rising_reports_watching :
    ∃ log s, Interpreter.Watched (.watching true) log s ∧
      log.map Look.value = [true, true, false, true] ∧
      log.map Look.ids = [[0], [], [], [0]] ∧
      (∀ earlier u later, log = earlier ++ u :: later →
        (u.ids ≠ [] ↔ u.value = true ∧ ∀ v ∈ earlier.getLast?, v.value = false)) ∧
      (∃ t, s.threads = [t] ∧ t.generation = 1) ∧
      ∀ t ∈ s.greenFlag.2.threads, t.script.topId ≠ "watch" := by
  have hdistinct : ((Scene.watching true).scripts.map fun x => x.2.topId).Nodup := by decide
  have hfresh : Interpreter.Watched (.watching true) [] (.fresh (.watching true) {} {}) :=
    .fresh {} {}
  have hfirst := @Interpreter.Watched.perform _ 8 .startEdgeHats _ _ _ hfresh rfl
  have hsecond := @Interpreter.Watched.perform _ 8 .startEdgeHats _ _ _ hfirst rfl
  have hoff := @Interpreter.Watched.arrange _ _ _ (.switch false _) hsecond
    (.other rfl rfl (.inr trivial)) rfl rfl
  have hthird := @Interpreter.Watched.perform _ 8 .startEdgeHats _ _ _ hoff rfl
  have hon := @Interpreter.Watched.arrange _ _ _ (.switch true _) hthird
    (.other rfl rfl (.inr trivial)) rfl rfl
  have hfourth := @Interpreter.Watched.perform _ 8 .startEdgeHats _ _ _ hon rfl
  obtain ⟨hrising, -, -, -, -, -, hflag⟩ :=
    edge_hats_fire_on_rising_reports hdistinct (List.mem_singleton_self (0, Script.watching)) rfl hfourth
  refine ⟨_, _, hfourth, rfl, rfl, fun earlier u later hlog => ?_, ⟨_, rfl, rfl⟩, hflag⟩
  exact (hrising earlier u later hlog).1

end Blockwork
