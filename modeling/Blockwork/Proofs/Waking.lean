import Blockwork.Proofs.Tokens

/-!
No wake-up is lost.

A parked thread waits for a signal that has been settled, or whose token is held by a delay or a
watcher, which will settle it.  The invariant (`Moment.Sound`) is kept by every stage:
`Thread.Becomes` says once what a stage can make of a thread, and `Trades` what it does with tokens.
Between two commands there is no effect in hand, so the holder is then a delay or a watcher, and
exactly one.
-/

namespace Blockwork

variable {ds : List Declaration}

/-! ### Threads from one moment to the next -/

/-- The thread is at the top of its script. -/
structure Thread.Afresh (t : Thread) : Prop where
  status : t.status = .running
  pending : t.pending = none
  stack : t.stack = .ofBlocks t.script.body

/-- The thread has been restarted, once or more often. -/
structure Thread.Restarts (t t' : Thread) : Prop where
  id : t'.id = t.id
  script : t'.script = t.script
  target : t'.target = t.target
  generation : t.generation < t'.generation
  afresh : t'.Afresh

/-- The thread waits, in its current generation, for a signal that has been settled or whose holder
is to settle it. -/
def Moment.Answered (m : Moment) (t : Thread) : Prop :=
  ∃ token, t.pending = some ⟨t.generation, .waiting token⟩ ∧
    (m.signals.IsSettled token ∨ token ∈ m.bound)

/-- What a stage can make of a thread. -/
inductive Thread.Becomes (ds : List Declaration) (m m' : Moment) (t : Thread) : Thread → Prop
  | same : Becomes ds m m' t t
  | retired : Becomes ds m m' t t.retire
  | restarted {t' : Thread} : t.Restarts t' → Becomes ds m m' t t'
  | resumed {token : Token} {v : Value} :
      t.pending = some ⟨t.generation, .waiting token⟩ → m.signals.outcome token = .settled v →
      Becomes ds m m' t
        { t with status := .running, pending := none, stack := { t.stack with resumed := some v } }
  | stepped {t' : Thread} {w : World} :
      t.status = .running → t.Stepped ds m.state.world t' w →
      (∀ token, m.state.world.Issues w token → token ∈ m'.bound) → Becomes ds m m' t t'

/-- The thread has just been launched. -/
structure Interpreter.Launches (ds : List Declaration) (s : Interpreter) (t : Thread) : Prop where
  id : s.nextId ≤ t.id
  script : t.script.Over ds
  afresh : t.Afresh

/-- A thread of the next moment has become of an old one, or has just been launched. -/
def Moment.Comes (ds : List Declaration) (m m' : Moment) (t' : Thread) : Prop :=
  (∃ t ∈ m.state.threads, t.Becomes ds m m' t') ∨ m.state.Launches ds t'

/-- What holds at every moment of a session. -/
structure Moment.Sound (ds : List Declaration) (m : Moment) : Prop where
  scene : m.state.world.scene.Over ds
  threads : ∀ t ∈ m.state.threads, t.Over ds
  balanced : m.Balanced
  answered : ∀ t ∈ m.state.threads, t.status = .parked → m.Answered t

namespace Thread

theorem restarts_restart (payload : Option Value) (t : Thread) :
    t.Restarts (t.restart payload) :=
  ⟨rfl, rfl, rfl, Nat.lt_succ_self _, rfl, rfl, rfl⟩

theorem Restarts.trans {t t' t'' : Thread} (h : t.Restarts t') (h' : t'.Restarts t'') :
    t.Restarts t'' :=
  ⟨h'.id.trans h.id, h'.script.trans h.script, h'.target.trans h.target,
    Nat.lt_trans h.generation h'.generation, h'.afresh⟩

theorem Afresh.over {t : Thread} (h : t.Afresh) (hscript : t.script.Over ds) : t.Over ds := by
  refine ⟨hscript, fun r hr => ?_⟩
  rw [h.stack] at hr
  rw [List.mem_singleton.mp hr]
  exact hscript.body

theorem Afresh.not_parked {t : Thread} (h : t.Afresh) : t.status ≠ .parked := by
  rw [h.status]
  exact Status.noConfusion

end Thread

/-! ### Launching -/

namespace Interpreter

theorem Launches.restarts {s : Interpreter} {t t' : Thread} (h : s.Launches ds t)
    (hr : t.Restarts t') : s.Launches ds t' :=
  ⟨by rw [hr.id]; exact h.id, by rw [hr.script]; exact h.script, hr.afresh⟩

/-- Threads after some launches: old ones, some of them restarted, and new ones. -/
def Relaunches (ds : List Declaration) (s s' : Interpreter) : Prop :=
  s.nextId ≤ s'.nextId ∧ ∀ t' ∈ s'.threads,
    (∃ t ∈ s.threads, t' = t ∨ t.Restarts t') ∨ s.Launches ds t'

theorem Relaunches.trans {s s' s'' : Interpreter} (h : s.Relaunches ds s')
    (h' : s'.Relaunches ds s'') : s.Relaunches ds s'' := by
  refine ⟨Nat.le_trans h.1 h'.1, fun t'' ht'' => ?_⟩
  rcases h'.2 t'' ht'' with ⟨t', ht', hold⟩ | hnew
  · rcases h.2 t' ht' with ⟨t, ht, hold'⟩ | hnew
    · refine .inl ⟨t, ht, ?_⟩
      rcases hold with rfl | hr
      · exact hold'
      · rcases hold' with rfl | hr'
        · exact .inr hr
        · exact .inr (hr'.trans hr)
    · rcases hold with rfl | hr
      · exact .inr hnew
      · exact .inr (hnew.restarts hr)
  · exact .inr ⟨Nat.le_trans h.1 hnew.id, hnew.script, hnew.afresh⟩

theorem launch_relaunches {script : Script} (hscript : script.Over ds) (target : Nat)
    (payload : Option Value) (restart : Bool) (s : Interpreter) :
    s.Relaunches ds (s.launch script target payload restart).2 := by
  simp only [launch]
  split
  · refine ⟨Nat.le_refl _, fun t' ht' => ?_⟩
    obtain ⟨t, ht, rfl⟩ := List.mem_map.mp ht'
    refine .inl ⟨t, ht, ?_⟩
    split
    · exact .inr (Thread.restarts_restart payload t)
    · exact .inl rfl
  · refine ⟨Nat.le_succ _, fun t' ht' => ?_⟩
    rcases List.mem_append.mp ht' with ht' | ht'
    · exact .inl ⟨t', ht', .inl rfl⟩
    · rw [List.mem_singleton.mp ht']
      exact .inr ⟨Nat.le_refl _, hscript, rfl, rfl, rfl⟩

theorem launchAll_relaunches (payload : Option Value) {xs : List (Nat × Script × Bool)}
    (hxs : ∀ x ∈ xs, x.2.1.Over ds) (s : Interpreter) :
    s.Relaunches ds (launchAll payload xs s).2 := by
  induction xs generalizing s with
  | nil => exact ⟨Nat.le_refl _, fun t ht => .inl ⟨t, ht, .inl rfl⟩⟩
  | cons x xs ih =>
    have hfirst := launch_relaunches (hxs x (List.mem_cons_self ..)) x.1 payload x.2.2 s
    exact hfirst.trans (ih (fun y hy => hxs y (List.mem_cons_of_mem _ hy)) _)

theorem trigger_relaunches {s : Interpreter} (hs : s.world.scene.Over ds) (t : Trigger) :
    s.Relaunches ds (s.trigger t).2 := by
  refine launchAll_relaunches _ (fun x hx => ?_) s
  obtain ⟨⟨target, script⟩, hmem, hx⟩ := List.mem_filterMap.mp hx
  have hscript := hs.scripts _ hmem
  simp only at hx
  split at hx
  · split at hx
    · cases hx
      exact hscript
    · cases hx
  · cases hx

theorem Relaunches.comes {m m' : Moment} {s' : Interpreter} (h : m.state.Relaunches ds s') :
    ∀ t' ∈ s'.threads, m.Comes ds m' t' := by
  intro t' ht'
  rcases h.2 t' ht' with ⟨t, ht, rfl | hr⟩ | hnew
  · exact .inl ⟨t', ht, .same⟩
  · exact .inl ⟨t, ht, .restarted hr⟩
  · exact .inr hnew

end Interpreter

/-! ### What a stage makes of threads -/

namespace Interpreter

/-- What comes of a broadcast besides the threads it starts: a watcher, or a settled signal. -/
theorem threads_broadcast (t : Trigger) (completion : Option Token) (s : Interpreter) :
    (s.applyEffect (.broadcast t completion)).threads = (s.trigger t).2.threads ∧
      (s.applyEffect (.broadcast t completion)).nextId = (s.trigger t).2.nextId := by
  cases completion with
  | none => exact ⟨rfl, rfl⟩
  | some token =>
    simp only [applyEffect]
    split <;> exact ⟨rfl, rfl⟩

end Interpreter

namespace Moment

theorem comes_map {m m' : Moment} {f : Thread → Thread}
    (hthreads : m'.state.threads = m.state.threads.map f)
    (hf : ∀ t ∈ m.state.threads, t.Becomes ds m m' (f t)) :
    ∀ t' ∈ m'.state.threads, m.Comes ds m' t' := by
  intro t' ht'
  rw [hthreads] at ht'
  obtain ⟨t, ht, rfl⟩ := List.mem_map.mp ht'
  exact .inl ⟨t, ht, hf t ht⟩

theorem comes_set {m m' : Moment} {i : Nat} {t t' : Thread} (ht : m.state.threads[i]? = some t)
    (h : t.Becomes ds m m' t') : ∀ u ∈ m.state.threads.set i t', m.Comes ds m' u := by
  intro u hu
  rcases List.mem_or_eq_of_mem_set hu with hu | rfl
  · exact .inl ⟨u, hu, .same⟩
  · exact .inl ⟨t, List.mem_of_getElem? ht, h⟩

/-- A poll resumes a thread whose signal is settled, and does nothing else. -/
theorem becomes_poll {m m' : Moment} (hm : m.Sound ds) {t : Thread} (ht : t ∈ m.state.threads)
    (hp : t.status = .parked) : t.Becomes ds m m' (t.poll m.signals).2 := by
  obtain ⟨token, hpending, -⟩ := hm.answered t ht hp
  by_cases hset : m.signals.IsSettled token
  · obtain ⟨v, hv⟩ := hset
    rw [Thread.poll_of_settled hp hpending hv]
    exact .resumed hpending hv
  · rw [Thread.poll_of_pending hpending fun v hv => hset ⟨v, hv⟩]
    exact .same

/-- The holder of a signal begun in a slice is to settle it. -/
theorem mem_bound_taking {s : Interpreter} {w : World} {token : Token}
    (h : w.Issues s.world token) : token ∈ (Moment.taking s).bound := by
  simp only [bound, taking, List.mem_append]
  rcases h.held with ⟨hd, -⟩ | ⟨-, hp⟩
  · refine .inl ?_
    rw [hd]
    exact List.mem_append_right _ (List.mem_singleton_self _)
  · refine .inr (.inr ?_)
    rw [hp]
    exact List.mem_append_right _ (List.mem_singleton_self _)

end Moment

/-- Where the threads of the next moment come from. -/
theorem Stage.comes {m m' : Moment} (h : Stage ds m m') (hm : m.Sound ds) :
    ∀ t' ∈ m'.state.threads, m.Comes ds m' t' := by
  have hsame : ∀ t ∈ m.state.threads, m.Comes ds m' t := fun t ht => .inl ⟨t, ht, .same⟩
  cases h with
  | poll ht hp => exact Moment.comes_set ht (Moment.becomes_poll hm (List.mem_of_getElem? ht) hp)
  | slice ht hr hstep =>
    have hover := hm.threads _ (List.mem_of_getElem? ht)
    refine Moment.comes_set ht (.stepped hr (Thread.step_stepped hover hm.scene hr hstep) ?_)
    exact fun token htoken => Moment.mem_bound_taking htoken
  | take s => exact hsame
  | effect e queue s =>
    cases e with
    | broadcast t completion =>
      rw [(Interpreter.threads_broadcast t completion s).1]
      exact (Interpreter.trigger_relaunches hm.scene t).comes
    | stopAll => exact fun t ht => absurd ht List.not_mem_nil
    | stopOthers target except =>
      refine Moment.comes_map rfl fun t ht => ?_
      split
      · exact .retired
      · exact .same
  | compact s => exact fun t ht => hsame t (List.mem_filter.mp ht).1
  | settle s =>
    intro t ht
    rw [Interpreter.settleWatchers_eq] at ht
    exact hsame t ht
  | fire s => exact hsame
  | edge hscript hcheck =>
    intro t ht
    rw [(Moment.checkEdge_world hscript hm.scene hcheck).1] at ht
    exact hsame t ht
  | launch target payload restart s hscript =>
    exact (Interpreter.launch_relaunches hscript target payload restart s).comes
  | trigger t s => exact (Interpreter.trigger_relaunches hm.scene t).comes
  | stopAll s => exact fun t ht => absurd ht List.not_mem_nil
  | retire id s =>
    refine Moment.comes_map rfl fun t ht => ?_
    split
    · exact .retired
    · exact .same
  | restart id payload s =>
    refine Moment.comes_map rfl fun t ht => ?_
    split
    · exact .restarted (Thread.restarts_restart payload t)
    · exact .same
  | adjust edges settings clock origin redraw s => exact hsame

/-- The program stays over the vocabulary. -/
theorem Stage.scene {m m' : Moment} (h : Stage ds m m') (hm : m.Sound ds) :
    m'.state.world.scene.Over ds := by
  cases h with
  | slice ht hr hstep =>
    have hover := hm.threads _ (List.mem_of_getElem? ht)
    rcases (Thread.step_stepped hover hm.scene hr hstep).waits with ⟨-, hq⟩ | ⟨token, -, -, hi⟩
    · exact hq.over hm.scene
    · exact hi.over hm.scene
  | effect e queue s =>
    cases e with
    | broadcast t completion =>
      have hworld := Interpreter.trigger_world t s
      cases completion with
      | none =>
        show (s.trigger t).2.world.scene.Over ds
        rw [hworld]
        exact hm.scene
      | some token =>
        simp only [Interpreter.applyEffect]
        split
        · simp only [Interpreter.settle, hworld]
          exact hm.scene
        · simp only [hworld]
          exact hm.scene
    | stopAll => exact hm.scene
    | stopOthers target except => exact hm.scene
  | settle s =>
    rw [Interpreter.settleWatchers_eq]
    exact hm.scene
  | edge hscript hcheck =>
    rcases (Moment.checkEdge_world hscript hm.scene hcheck).2 with hq | ⟨t, ht⟩
    · exact hq.over hm.scene
    · exact ht.over hm.scene
  | launch target payload restart s hscript =>
    rw [Interpreter.launch_world]
    exact hm.scene
  | trigger t s =>
    rw [Interpreter.trigger_world]
    exact hm.scene
  | poll | take | compact | fire | stopAll | retire | restart | adjust => exact hm.scene

/-! ### The invariant -/

namespace Moment

/-- A bound token stays bound until its signal is settled, unless all threads are stopped. -/
theorem Trades.bound {m m' : Moment} (h : m.Trades m') (hm : m.Balanced) {token : Token}
    (ht : token ∈ m.bound) (hthreads : m'.state.threads ≠ []) :
    m'.signals.IsSettled token ∨ token ∈ m'.bound := by
  cases h with
  | keeps held outcomes bound => exact .inr (bound ht)
  | issues u held fresh outcomes bound => exact .inr (bound ht)
  | settles ts held outcomes due bound threads =>
    rcases List.mem_append.mp (bound ht) with hts | ht'
    · refine .inl ⟨.null, ?_⟩
      rw [outcomes]
      exact Signals.outcome_concludeAll_of_mem (hm.pending token (List.mem_append_left _ ht)) hts
        Outcome.noConfusion
    · exact .inr ht'
  | drops ts held outcomes threads => exact absurd threads hthreads

theorem Answered.trades {m m' : Moment} {t : Thread} (h : m.Answered t) (hm : m.Balanced)
    (htrades : m.Trades m') (hthreads : m'.state.threads ≠ []) : m'.Answered t := by
  obtain ⟨token, hpending, hset | hbound⟩ := h
  · exact ⟨token, hpending, .inl (htrades.isSettled hset)⟩
  · exact ⟨token, hpending, htrades.bound hm hbound hthreads⟩

theorem Comes.over {m m' : Moment} (hm : m.Sound ds) {t' : Thread} (h : m.Comes ds m' t') :
    t'.Over ds := by
  rcases h with ⟨t, ht, hbecomes⟩ | hnew
  · have hover := hm.threads t ht
    cases hbecomes with
    | same => exact hover
    | retired => exact hover.finish none
    | restarted hr =>
      refine hr.afresh.over ?_
      rw [hr.script]
      exact hover.script
    | resumed hpending hv => exact ⟨hover.script, hover.frames⟩
    | stepped hr hstep hbound => exact hstep.known
  · exact hnew.afresh.over hnew.script

theorem Comes.answered {m m' : Moment} (hm : m.Sound ds) (htrades : m.Trades m') {t' : Thread}
    (h : m.Comes ds m' t') (ht' : t' ∈ m'.state.threads) (hp : t'.status = .parked) :
    m'.Answered t' := by
  rcases h with ⟨t, ht, hbecomes⟩ | hnew
  · cases hbecomes with
    | same => exact (hm.answered _ ht hp).trades hm.balanced htrades (List.ne_nil_of_mem ht')
    | retired => cases hp
    | restarted hr => exact absurd hp hr.afresh.not_parked
    | resumed hpending hv => cases hp
    | stepped hr hstep hbound =>
      rcases hstep.waits with ⟨hne, -⟩ | ⟨token, -, hpending, hissues⟩
      · exact absurd hp hne
      · exact ⟨token, hpending, .inr (hbound token hissues)⟩
  · exact absurd hp hnew.afresh.not_parked

/-- Every stage keeps the invariant. -/
theorem Sound.stage {m m' : Moment} (hm : m.Sound ds) (h : Stage ds m m') : m'.Sound ds := by
  have htrades := h.trades hm.scene hm.threads
  exact
    { scene := h.scene hm
      threads := fun t ht => (h.comes hm t ht).over hm
      balanced := hm.balanced.trades htrades
      answered := fun t ht hp => (h.comes hm t ht).answered hm htrades ht hp }

theorem Sound.stages {m m' : Moment} (hm : m.Sound ds) (h : Stages ds m m') : m'.Sound ds := by
  induction h with
  | refl => exact hm
  | tail _ hstage ih => exact ih.stage hstage

theorem sound_fresh {scene : Scene} (h : scene.Over ds) (clock : Clock)
    (settings : SchedulerSettings) : (⟨[], .fresh scene clock settings⟩ : Moment).Sound ds where
  scene := h
  threads := fun _ ht => absurd ht List.not_mem_nil
  balanced := ⟨List.nodup_nil, fun _ ht => absurd ht List.not_mem_nil⟩
  answered := fun _ ht => absurd ht List.not_mem_nil

theorem Reached.sound {m : Moment} (h : m.Reached ds) : m.Sound ds := by
  obtain ⟨scene, clock, settings, hscene, hstages⟩ := h
  exact (sound_fresh hscene clock settings).stages hstages

end Moment

namespace Interpreter

/-- Between two commands of a session its interpreter is at a moment of it. -/
theorem Reached.moment {s : Interpreter} (h : s.Reached ds) : (⟨[], s⟩ : Moment).Reached ds := by
  induction h with
  | @fresh scene clock settings hscene => exact ⟨scene, clock, settings, hscene, .refl⟩
  | perform hs hc hperform ih =>
    obtain ⟨scene, clock, settings, hscene, hstages⟩ := ih
    have hsound := ((Moment.sound_fresh hscene clock settings).stages hstages)
    exact ⟨scene, clock, settings, hscene, hstages.trans (perform_stages hsound.scene hc hperform)⟩

/-- How many delays and watchers hold the token. -/
def holders (s : Interpreter) (token : Token) : Nat :=
  s.world.services.timers.pending.countP (·.token = token) +
    s.watchers.countP (·.token = token)

theorem holders_eq_count (s : Interpreter) (token : Token) :
    s.holders token = (⟨[], s⟩ : Moment).bound.count token := by
  have hnil : Outbox.tokens [] = [] := rfl
  rw [Moment.bound, hnil, List.append_nil, List.count_append, Timers.tokens, List.count_eq_countP,
    List.count_eq_countP, List.countP_map, List.countP_map]
  rfl

end Interpreter

/-- No wake-up is lost.  Between two commands, every parked thread waits in its own generation for a
signal that has been settled, or for a pending one whose token is held by exactly one delay or
watcher; and at no moment does a parked thread wait for an abandoned one. -/
theorem wait_is_settled_or_held (ds : List Declaration) :
    (∀ s : Interpreter, s.Reached ds → ∀ t ∈ s.threads, t.status = .parked →
      ∃ token, t.pending = some ⟨t.generation, .waiting token⟩ ∧
        ((∃ v, s.world.signals.outcome token = .settled v) ∨
          (s.world.signals.outcome token = .pending ∧ s.holders token = 1))) ∧
    ∀ m : Moment, m.Reached ds → ∀ t ∈ m.state.threads, t.status = .parked →
      ∃ token, t.pending = some ⟨t.generation, .waiting token⟩ ∧
        m.signals.outcome token ≠ .abandoned := by
  constructor
  · intro s hs t ht hp
    have hsound := hs.moment.sound
    obtain ⟨token, hpending, hset | hbound⟩ := hsound.answered t ht hp
    · exact ⟨token, hpending, .inl hset⟩
    · refine ⟨token, hpending, .inr ⟨?_, ?_⟩⟩
      · exact hsound.balanced.pending token (List.mem_append_left _ hbound)
      · rw [Interpreter.holders_eq_count]
        exact List.count_eq_one_of_mem hsound.balanced.nodup.of_append_left hbound
  · intro m hm t ht hp
    have hsound := hm.sound
    obtain ⟨token, hpending, ⟨v, hv⟩ | hbound⟩ := hsound.answered t ht hp
    · refine ⟨token, hpending, ?_⟩
      rw [hv]
      exact Outcome.noConfusion
    · refine ⟨token, hpending, ?_⟩
      rw [hsound.balanced.pending token (List.mem_append_left _ hbound)]
      exact Outcome.noConfusion

/-- A script that waits for a delay. -/
def Script.pausing : Script :=
  ⟨.mk (Library.command "control_wait" [("DURATION", .slot .number)] .wait) "pause" 0
    [("DURATION", .literal .null)], []⟩

theorem Script.pausing_over : Script.pausing.Over [] := by
  refine List.forall_mem_singleton.mpr (.intro (.inl (List.mem_of_getElem? (i := 0) rfl)) ?_)
  exact List.forall_mem_singleton.mpr (.literal _)

/-- A delay under way: the thread that waits for it has been launched and has had its first turn. -/
theorem wait_is_settled_or_held_of_delay :
    ∃ s : Interpreter, s.Reached [] ∧ ∃ t ∈ s.threads, t.status = .parked ∧
      ∃ token, t.pending = some ⟨t.generation, .waiting token⟩ ∧
        ((∃ v, s.world.signals.outcome token = .settled v) ∨
          (s.world.signals.outcome token = .pending ∧ s.holders token = 1)) := by
  have hfresh : (Interpreter.fresh { targets := [.stage] } {} {}).Reached [] :=
    .fresh {} {} ⟨fun _ hx => absurd hx List.not_mem_nil, fun _ hp => absurd hp List.not_mem_nil⟩
  have hover : ∀ c ∈ [Command.launch .pausing 0 none false, .stepThreads (.rounds 1)],
      c.Over [] := by
    exact List.forall_mem_cons.mpr ⟨Script.pausing_over, List.forall_mem_singleton.mpr trivial⟩
  have hrun : (Interpreter.fresh { targets := [.stage] } {} {}).performAll 8
      [.launch .pausing 0 none false, .stepThreads (.rounds 1)] = some _ := rfl
  have hreached := hfresh.performAll hover hrun
  exact ⟨_, hreached, _, List.mem_singleton_self _, rfl,
    (wait_is_settled_or_held []).1 _ hreached _ (List.mem_singleton_self _) rfl⟩

end Blockwork
