import Blockwork.Proofs.Waking

/-!
A broadcast that its sender waits for is over when the threads it has started are.

The watcher of a broadcast stays until its signal has an outcome (`Stage.watched`), tokens are held
once, and a signal is settled only when it is due; so the signal of a broadcast is settled by its
own watcher, at a moment when none of its threads is live.  Numbers of threads are never used again,
so no later thread can be taken for one of them.  Meanwhile the sender stays as it is, unless it is
stopped or restarted.
-/

namespace Blockwork

variable {ds : List Declaration}

/-! ### Where a thread comes from -/

/-- The thread is the same one, perhaps restarted. -/
structure Thread.Descends (t t' : Thread) : Prop where
  id : t'.id = t.id
  script : t'.script = t.script
  target : t'.target = t.target
  generation : t.generation ≤ t'.generation

namespace Thread

theorem Descends.refl (t : Thread) : t.Descends t := ⟨rfl, rfl, rfl, Nat.le_refl _⟩

theorem Descends.trans {t t' t'' : Thread} (h : t.Descends t') (h' : t'.Descends t'') :
    t.Descends t'' :=
  ⟨h'.id.trans h.id, h'.script.trans h.script, h'.target.trans h.target,
    Nat.le_trans h.generation h'.generation⟩

theorem Becomes.descends {m m' : Moment} {t t' : Thread} (h : t.Becomes ds m m' t') :
    t.Descends t' := by
  cases h with
  | same | retired | resumed => exact ⟨rfl, rfl, rfl, Nat.le_refl _⟩
  | restarted hr => exact ⟨hr.id, hr.script, hr.target, Nat.le_of_lt hr.generation⟩
  | stepped hr hstep hbound =>
    exact ⟨hstep.id, hstep.script, hstep.target, Nat.le_of_eq hstep.generation.symm⟩

end Thread

/-! ### Numbers of threads -/

/-- The threads have different numbers, and none of them is the next one. -/
structure Interpreter.Numbered (s : Interpreter) : Prop where
  nodup : (s.threads.map Thread.id).Nodup
  lt : ∀ t ∈ s.threads, t.id < s.nextId

namespace Interpreter

theorem Numbered.of_sublist {s s' : Interpreter} (h : s.Numbered)
    (hids : (s'.threads.map Thread.id).Sublist (s.threads.map Thread.id))
    (hnext : s'.nextId = s.nextId) : s'.Numbered := by
  refine ⟨hids.nodup h.nodup, fun t ht => ?_⟩
  obtain ⟨u, hu, hid⟩ := List.mem_map.mp (hids.subset (List.mem_map_of_mem ht))
  rw [← hid, hnext]
  exact h.lt u hu

theorem map_id_of_forall {f : Thread → Thread} (hf : ∀ t, (f t).id = t.id) (ts : List Thread) :
    (ts.map f).map Thread.id = ts.map Thread.id := by
  rw [List.map_map]
  exact List.map_congr_left fun t _ => hf t

theorem Numbered.modifyThread {s : Interpreter} (h : s.Numbered) (id : Nat) {f : Thread → Thread}
    (hf : ∀ t, (f t).id = t.id) : (s.modifyThread id f).Numbered := by
  refine h.of_sublist ?_ rfl
  rw [Interpreter.modifyThread, map_id_of_forall]
  intro t
  split
  · exact hf t
  · rfl

theorem Numbered.launch {s : Interpreter} (h : s.Numbered) (script : Script) (target : Nat)
    (payload : Option Value) (restart : Bool) :
    (s.launch script target payload restart).2.Numbered := by
  simp only [Interpreter.launch]
  split
  · exact h.modifyThread _ fun _ => rfl
  · refine ⟨?_, fun t ht => ?_⟩
    · rw [List.map_append, List.nodup_append']
      refine ⟨h.nodup, List.nodup_singleton _, ?_⟩
      intro id hid hnew
      obtain ⟨t, ht, rfl⟩ := List.mem_map.mp hid
      exact Nat.ne_of_lt (h.lt t ht) (List.mem_singleton.mp hnew)
    · rcases List.mem_append.mp ht with ht | ht
      · exact Nat.lt_succ_of_lt (h.lt t ht)
      · rw [List.mem_singleton.mp ht]
        exact Nat.lt_succ_self _

theorem Numbered.launchAll {s : Interpreter} (h : s.Numbered) (payload : Option Value)
    (xs : List (Nat × Script × Bool)) : (Interpreter.launchAll payload xs s).2.Numbered := by
  induction xs generalizing s with
  | nil => exact h
  | cons x xs ih => exact ih (h.launch ..)

end Interpreter

/-- Every stage keeps the numbers in order. -/
theorem Stage.numbered {m m' : Moment} (h : Stage ds m m') (hm : m.Sound ds)
    (hn : m.state.Numbered) : m'.state.Numbered := by
  have hset : ∀ {i : Nat} {t t' : Thread}, m.state.threads[i]? = some t → t'.id = t.id →
      ((m.state.threads.set i t').map Thread.id).Sublist (m.state.threads.map Thread.id) := by
    intro i t t' ht hid
    obtain ⟨hi, rfl⟩ := List.getElem?_eq_some_iff.mp ht
    rw [List.map_set, hid, ← List.getElem_map Thread.id (h := by rw [List.length_map]; exact hi),
      List.set_getElem_self]
  cases h with
  | @poll s i t ht hp =>
    have hpoll : t.Becomes ds ⟨[], s⟩ ⟨[], s⟩ (t.poll s.world.signals).2 :=
      Moment.becomes_poll hm (List.mem_of_getElem? ht) hp
    exact hn.of_sublist (hset ht hpoll.descends.id) rfl
  | slice ht hr hstep =>
    have hover := hm.threads _ (List.mem_of_getElem? ht)
    exact hn.of_sublist (hset ht (Thread.step_stepped hover hm.scene hr hstep).id) rfl
  | take s => exact ⟨hn.nodup, hn.lt⟩
  | effect e queue s =>
    cases e with
    | broadcast t completion =>
      obtain ⟨hthreads, hnext⟩ := Interpreter.threads_broadcast t completion s
      refine (hn.launchAll t.payload (Interpreter.fired s.world.scene t)).of_sublist ?_ hnext
      rw [hthreads]
      rfl
    | stopAll => exact hn.of_sublist (List.nil_sublist _) rfl
    | stopOthers target except =>
      refine hn.of_sublist ?_ rfl
      rw [Interpreter.applyEffect, Interpreter.map_id_of_forall]
      intro t
      split <;> rfl
  | compact s => exact hn.of_sublist (List.filter_sublist.map _) rfl
  | settle s =>
    rw [Interpreter.settleWatchers_eq]
    exact ⟨hn.nodup, hn.lt⟩
  | fire s => exact ⟨hn.nodup, hn.lt⟩
  | edge hscript hcheck =>
    rw [(Moment.checkEdge_world hscript hm.scene hcheck).1]
    exact ⟨hn.nodup, hn.lt⟩
  | launch target payload restart s hscript => exact hn.launch ..
  | trigger t s => exact hn.launchAll ..
  | stopAll s => exact hn.of_sublist (List.nil_sublist _) rfl
  | retire id s => exact hn.modifyThread id fun _ => rfl
  | restart id payload s => exact hn.modifyThread id fun _ => rfl
  | adjust edges settings clock origin redraw s => exact ⟨hn.nodup, hn.lt⟩

/-- The next number never becomes smaller. -/
theorem Stage.le_nextId {m m' : Moment} (h : Stage ds m m') (hm : m.Sound ds) :
    m.state.nextId ≤ m'.state.nextId := by
  cases h with
  | effect e queue s =>
    cases e with
    | broadcast t completion =>
      rw [(Interpreter.threads_broadcast t completion s).2]
      exact (Interpreter.trigger_relaunches hm.scene t).1
    | stopAll | stopOthers => exact Nat.le_refl _
  | settle s => exact Nat.le_of_eq (by rw [Interpreter.settleWatchers_eq])
  | edge hscript hcheck =>
    exact Nat.le_of_eq (by rw [(Moment.checkEdge_world hscript hm.scene hcheck).1])
  | launch target payload restart s hscript =>
    exact (Interpreter.launch_relaunches hscript target payload restart s).1
  | trigger t s => exact (Interpreter.trigger_relaunches hm.scene t).1
  | poll | slice | take | compact | fire | stopAll | retire | restart | adjust =>
    exact Nat.le_refl _

namespace Moment

theorem Reached.stages {m m' : Moment} (hm : m.Reached ds) (h : Stages ds m m') :
    m'.Reached ds := by
  obtain ⟨scene, clock, settings, hscene, hstages⟩ := hm
  exact ⟨scene, clock, settings, hscene, hstages.trans h⟩

theorem Reached.numbered {m : Moment} (h : m.Reached ds) : m.state.Numbered := by
  obtain ⟨scene, clock, settings, hscene, hstages⟩ := h
  induction hstages with
  | refl => exact ⟨List.nodup_nil, fun _ ht => absurd ht List.not_mem_nil⟩
  | tail hstages hstage ih =>
    exact hstage.numbered ((sound_fresh hscene clock settings).stages hstages) ih

/-- A thread with an old number is an old thread. -/
theorem Sound.descends {m m' : Moment} (hm : m.Sound ds) (h : Stages ds m m') :
    m.state.nextId ≤ m'.state.nextId ∧ ∀ t' ∈ m'.state.threads, t'.id < m.state.nextId →
      ∃ t ∈ m.state.threads, t.Descends t' := by
  induction h with
  | refl => exact ⟨Nat.le_refl _, fun t ht _ => ⟨t, ht, .refl t⟩⟩
  | tail hstages hstage ih =>
    have hsound := hm.stages hstages
    refine ⟨Nat.le_trans ih.1 (hstage.le_nextId hsound), fun t' ht' hlt => ?_⟩
    rcases hstage.comes hsound t' ht' with ⟨u, hu, hbecomes⟩ | hnew
    · have hd := hbecomes.descends
      obtain ⟨t, ht, hold⟩ := ih.2 u hu (by rw [← hd.id]; exact hlt)
      exact ⟨t, ht, hold.trans hd⟩
    · exact absurd (Nat.le_trans ih.1 hnew.id) (Nat.not_le.mpr hlt)

end Moment

/-! ### Watchers -/

namespace Moment

/-- Whether a thread with the number is there and has not finished. -/
def Live (m : Moment) (id : Nat) : Prop := ∃ t ∈ m.state.threads, t.id = id ∧ t.status ≠ .done

/-- The watcher is there, or its signal has an outcome. -/
def Watched (m : Moment) (w : Watcher) : Prop :=
  w ∈ m.state.watchers ∨
    (w.token < m.signals.outcomes.size ∧ m.signals.outcome w.token ≠ .pending)

theorem mem_held_of_watcher {m : Moment} {w : Watcher} (h : w ∈ m.state.watchers) :
    w.token ∈ m.held :=
  List.mem_append_left _ (List.mem_append_right _ (List.mem_append_left _ (List.mem_map_of_mem h)))

theorem not_live_of_isSettled {m : Moment} {w : Watcher}
    (h : Interpreter.isSettled m.state.threads w = true) : ∀ id ∈ w.threads, ¬ m.Live id := by
  rintro id hid ⟨t, ht, htid, hlive⟩
  rw [Interpreter.isSettled, Bool.not_eq_true', List.any_eq_false] at h
  refine h id hid (List.any_eq_true.mpr ⟨t, ht, ?_⟩)
  simp [Thread.isDone, htid, hlive]

/-- The books tell watchers apart by their tokens, and from delays and effects in hand. -/
theorem Balanced.due_watcher {m : Moment} (hm : m.Balanced) {w : Watcher}
    (hw : w ∈ m.state.watchers) (h : m.Due w.token) :
    Interpreter.isSettled m.state.threads w = true := by
  have hnodup := hm.nodup.of_append_left
  have hmem : w.token ∈ m.state.watchers.map Watcher.token := List.mem_map_of_mem hw
  cases h with
  | @delay x hx htoken hdue =>
    have hx : w.token ∈ m.state.world.services.timers.tokens := by
      rw [← htoken]
      exact List.mem_map_of_mem hx
    exact absurd (List.mem_append_left _ hmem) (List.disjoint_of_nodup_append hnodup hx)
  | @watcher u hu htoken hset =>
    have hinj := List.inj_on_of_nodup_map hnodup.of_append_right.of_append_left
    rw [← hinj hu hw htoken]
    exact hset
  | @unheard trigger queue hqueue hempty =>
    have hq : w.token ∈ Outbox.tokens m.queue := by
      rw [hqueue]
      exact List.mem_cons_self ..
    exact absurd hq (List.disjoint_of_nodup_append hnodup.of_append_right hmem)

/-- A signal that a trade settles was due, and the trade leaves the threads alone. -/
theorem Trades.due {m m' : Moment} (h : m.Trades m') {t : Token}
    (hm : ¬ m.signals.IsSettled t) (hm' : m'.signals.IsSettled t) :
    m.Due t ∧ t ∈ m.held ∧ m'.state.threads = m.state.threads := by
  obtain ⟨v, hv⟩ := hm'
  cases h with
  | keeps held outcomes bound =>
    rw [outcome_eq_of_outcomes outcomes] at hv
    exact absurd ⟨v, hv⟩ hm
  | issues u held fresh outcomes bound =>
    rw [outcome_push outcomes] at hv
    split at hv
    · cases hv
    · exact absurd ⟨v, hv⟩ hm
  | settles ts held outcomes due bound threads =>
    by_cases hts : t ∈ ts
    · exact ⟨due t hts, held.mem_iff.mpr (List.mem_append_left _ hts), threads⟩
    · rw [outcomes, Signals.outcome_concludeAll_of_notMem hts] at hv
      exact absurd ⟨v, hv⟩ hm
  | drops ts held outcomes threads =>
    rw [outcomes] at hv
    by_cases hp : m.signals.outcome t = .pending
    · by_cases hts : t ∈ ts
      · rw [Signals.outcome_concludeAll_of_mem hp hts Outcome.noConfusion] at hv
        cases hv
      · rw [Signals.outcome_concludeAll_of_notMem hts] at hv
        exact absurd ⟨v, hv⟩ hm
    · rw [Signals.outcome_concludeAll_of_ne_pending hp] at hv
      exact absurd ⟨v, hv⟩ hm

end Moment

/-- A watcher stays until its signal has an outcome. -/
theorem Stage.watched {m m' : Moment} (h : Stage ds m m') (hm : m.Sound ds) {w : Watcher}
    (hw : w ∈ m.state.watchers) : m'.Watched w := by
  have hpending := hm.balanced.pending w.token (Moment.mem_held_of_watcher hw)
  have hlt : w.token < m'.signals.outcomes.size :=
    Nat.lt_of_lt_of_le (Signals.lt_size_of_pending hpending)
      (h.trades hm.scene hm.threads).size_le
  have hstop : ∀ {s : Interpreter}, s.world.signals.outcome w.token = .pending →
      w ∈ s.watchers → s.stopAll.world.signals.outcome w.token ≠ .pending := by
    intro s hp hmem
    rw [Interpreter.stopAll_signals, Signals.outcome_concludeAll_of_mem hp
      (List.mem_append_right _ (List.mem_map_of_mem hmem)) Outcome.noConfusion]
    exact Outcome.noConfusion
  cases h with
  | effect e queue s =>
    cases e with
    | broadcast t completion =>
      refine .inl ?_
      have hwatchers := Interpreter.trigger_watchers t s
      cases completion with
      | none =>
        show w ∈ (s.trigger t).2.watchers
        rw [hwatchers]
        exact hw
      | some token =>
        simp only [Interpreter.applyEffect]
        split
        · simp only [Interpreter.settle, hwatchers]
          exact hw
        · simp only [hwatchers]
          exact List.mem_append_left _ hw
    | stopAll => exact .inr ⟨hlt, hstop hpending hw⟩
    | stopOthers target except => exact .inl hw
  | settle s =>
    by_cases hset : Interpreter.isSettled s.threads w = true
    · refine .inr ⟨hlt, ?_⟩
      have hmem : w.token ∈
          (s.watchers.filter (Interpreter.isSettled s.threads)).map Watcher.token :=
        List.mem_map_of_mem (List.mem_filter.mpr ⟨hw, hset⟩)
      have hnull :
          (s.world.signals.concludeAll _ (.settled .null)).outcome w.token = .settled .null :=
        Signals.outcome_concludeAll_of_mem hpending hmem Outcome.noConfusion
      rw [Interpreter.settleWatchers_eq]
      exact ne_of_eq_of_ne hnull Outcome.noConfusion
    · refine .inl ?_
      rw [Interpreter.settleWatchers_eq]
      exact List.mem_filter.mpr ⟨hw, by simpa using hset⟩
  | edge hscript hcheck =>
    rw [(Moment.checkEdge_world hscript hm.scene hcheck).1]
    exact .inl hw
  | launch target payload restart s hscript =>
    exact .inl (by rw [Interpreter.launch_watchers]; exact hw)
  | trigger t s => exact .inl (by rw [Interpreter.trigger_watchers]; exact hw)
  | stopAll s => exact .inr ⟨hlt, hstop hpending hw⟩
  | poll | slice | take | compact | fire | retire | restart | adjust => exact .inl hw

namespace Moment

theorem Watched.stages {m m' : Moment} {w : Watcher} (h : m.Watched w) (hm : m.Sound ds)
    (hstages : Stages ds m m') : m'.Watched w := by
  induction hstages with
  | refl => exact h
  | tail hstages hstage ih =>
    have hsound := hm.stages hstages
    rcases ih with hw | ⟨hlt, hne⟩
    · exact hstage.watched hsound hw
    · have htrades := hstage.trades hsound.scene hsound.threads
      refine .inr ⟨Nat.lt_of_lt_of_le hlt htrades.size_le, ?_⟩
      rw [htrades.outcome_eq hlt hne]
      exact hne

/-- The signal of a watcher is settled only at a moment when none of its threads is live. -/
theorem Watched.not_live {m m' : Moment} {w : Watcher} (h : m.Watched w) (hm : m.Sound ds)
    (hstage : Stage ds m m') (hunset : ¬ m.signals.IsSettled w.token)
    (hset : m'.signals.IsSettled w.token) : ∀ id ∈ w.threads, ¬ m.Live id ∧ ¬ m'.Live id := by
  obtain ⟨hdue, hheld, hthreads⟩ := (hstage.trades hm.scene hm.threads).due hunset hset
  have hw : w ∈ m.state.watchers := h.resolve_right fun hne =>
    hne.2 (hm.balanced.pending w.token hheld)
  have hnot := not_live_of_isSettled (hm.balanced.due_watcher hw hdue)
  intro id hid
  refine ⟨hnot id hid, fun hlive => hnot id hid ?_⟩
  rw [Live, hthreads] at hlive
  exact hlive

end Moment

/-! ### What a trigger starts -/

namespace Interpreter

/-- Whether a thread with the number is running. -/
def Runs (s : Interpreter) (id : Nat) : Prop := ∃ t ∈ s.threads, t.id = id ∧ t.status = .running

theorem launch_runs (script : Script) (target : Nat) (payload : Option Value) (restart : Bool)
    (s : Interpreter) :
    (s.launch script target payload restart).2.Runs (s.launch script target payload restart).1 ∧
      ∀ id, s.Runs id → (s.launch script target payload restart).2.Runs id := by
  simp only [launch]
  split
  · rename_i t hfind
    have hmem : t ∈ s.threads := by
      split at hfind
      · exact List.mem_of_find?_eq_some hfind
      · cases hfind
    refine ⟨⟨t.restart payload, ?_, rfl, rfl⟩, ?_⟩
    · refine List.mem_map.mpr ⟨t, hmem, ?_⟩
      rw [if_pos rfl]
    · rintro id ⟨u, hu, hid, hrun⟩
      by_cases hut : u.id = t.id
      · refine ⟨u.restart payload, List.mem_map.mpr ⟨u, hu, ?_⟩, hid, rfl⟩
        rw [if_pos hut]
      · refine ⟨u, List.mem_map.mpr ⟨u, hu, ?_⟩, hid, hrun⟩
        rw [if_neg hut]
  · refine ⟨⟨_, List.mem_append_right _ (List.mem_singleton_self _), rfl, rfl⟩, ?_⟩
    rintro id ⟨u, hu, hid, hrun⟩
    exact ⟨u, List.mem_append_left _ hu, hid, hrun⟩

/-- Every thread that has been started runs, also if a later launch has restarted it. -/
theorem launchAll_runs (payload : Option Value) (xs : List (Nat × Script × Bool))
    (s : Interpreter) :
    (∀ id ∈ (launchAll payload xs s).1, (launchAll payload xs s).2.Runs id) ∧
      ∀ id, s.Runs id → (launchAll payload xs s).2.Runs id := by
  induction xs generalizing s with
  | nil => exact ⟨fun id hid => absurd hid List.not_mem_nil, fun id h => h⟩
  | cons x xs ih =>
    obtain ⟨target, script, restart⟩ := x
    obtain ⟨hfirst, hkeep⟩ := launch_runs script target payload restart s
    obtain ⟨hrest, hkeep'⟩ := ih (s.launch script target payload restart).2
    refine ⟨fun id hid => ?_, fun id h => hkeep' id (hkeep id h)⟩
    rcases List.mem_cons.mp hid with rfl | hid
    · exact hkeep' _ hfirst
    · exact hrest id hid

theorem trigger_runs (t : Trigger) (s : Interpreter) :
    ∀ id ∈ (s.trigger t).1, (s.trigger t).2.Runs id :=
  (launchAll_runs t.payload (fired s.world.scene t) s).1

end Interpreter

/-! ### The sender -/

/-- The thread is as it was, has been stopped, or has been restarted since. -/
def Thread.Rests (t u : Thread) : Prop :=
  u = t ∨ (u.status = .done ∧ u.pending = none ∧ t.generation ≤ u.generation) ∨
    t.generation < u.generation

namespace Thread

/-- A parked thread rests as long as its signal is not settled. -/
theorem Rests.becomes {m m' : Moment} {t u u' : Thread} {token : Token} (h : t.Rests u)
    (hb : u.Becomes ds m m' u') (hp : t.status = .parked)
    (hpending : t.pending = some ⟨t.generation, .waiting token⟩)
    (hunset : ¬ m.signals.IsSettled token) : t.Rests u' := by
  have hgeneration : t.generation ≤ u.generation := by
    rcases h with rfl | ⟨-, -, hle⟩ | hlt
    · exact Nat.le_refl _
    · exact hle
    · exact Nat.le_of_lt hlt
  cases hb with
  | same => exact h
  | retired => exact .inr (.inl ⟨rfl, rfl, hgeneration⟩)
  | restarted hr => exact .inr (.inr (Nat.lt_of_le_of_lt hgeneration hr.generation))
  | resumed hpend hv =>
    rcases h with rfl | ⟨-, hnone, -⟩ | hlt
    · rw [hpending] at hpend
      cases hpend
      exact absurd ⟨_, hv⟩ hunset
    · rw [hnone] at hpend
      cases hpend
    · exact .inr (.inr hlt)
  | stepped hr hstep hbound =>
    rcases h with rfl | ⟨hdone, -, -⟩ | hlt
    · rw [hp] at hr
      cases hr
    · rw [hdone] at hr
      cases hr
    · refine .inr (.inr ?_)
      rw [hstep.generation]
      exact hlt

/-- A thread that posts a completion token waits for it. -/
theorem Stepped.waits_of_posted {t t' : Thread} {w w' : World} {token : Token}
    (h : t.Stepped ds w t' w') (hnew : token ∈ w'.services.outbox.tokens)
    (hold : token ∉ w.services.outbox.tokens) :
    t'.status = .parked ∧ t'.pending = some ⟨t'.generation, .waiting token⟩ := by
  rcases h.waits with ⟨-, hq⟩ | ⟨u, hp, hpending, hissues⟩
  · rw [hq.posted] at hnew
    exact absurd hnew hold
  · rcases hissues.held with ⟨-, hposted⟩ | ⟨-, hposted⟩
    · rw [hposted] at hnew
      exact absurd hnew hold
    · rw [hposted] at hnew
      have hu : token = u :=
        List.mem_singleton.mp ((List.mem_append.mp hnew).resolve_left hold)
      rw [hu]
      exact ⟨hp, hpending⟩

end Thread

namespace Moment

/-- The thread waits for the signal, and until that is settled the only thing that happens to it is
that it is stopped or restarted. -/
structure Holds (ds : List Declaration) (m : Moment) (t : Thread) (token : Token) : Prop where
  status : t.status = .parked
  pending : t.pending = some ⟨t.generation, .waiting token⟩
  rests : ∀ m', Stages ds m m' → ¬ m'.signals.IsSettled token →
    ∀ u ∈ m'.state.threads, u.id = t.id → t.Rests u

theorem holds_of_parked {m : Moment} (hm : m.Reached ds) {t : Thread} {token : Token}
    (ht : t ∈ m.state.threads) (hp : t.status = .parked)
    (hpending : t.pending = some ⟨t.generation, .waiting token⟩) : m.Holds ds t token := by
  refine ⟨hp, hpending, fun m' hstages => ?_⟩
  have hsound := hm.sound
  have hlt := hm.numbered.lt t ht
  induction hstages with
  | refl =>
    intro _ u hu hid
    exact .inl (List.inj_on_of_nodup_map hm.numbered.nodup hu ht hid)
  | tail hstages hstage ih =>
    intro hunset u' hu' hid
    have hsound' := hsound.stages hstages
    have hbefore := mt (hstage.trades hsound'.scene hsound'.threads).isSettled hunset
    rcases hstage.comes hsound' u' hu' with ⟨u, hu, hbecomes⟩ | hnew
    · have hrests := ih hbefore u hu (hbecomes.descends.id.symm.trans hid)
      exact hrests.becomes hbecomes hp hpending hbefore
    · have hle := Nat.le_trans (hsound.descends hstages).1 hnew.id
      rw [hid] at hle
      exact absurd hlt (Nat.not_lt.mpr hle)

/-- A broadcast has just been carried out that started these threads.  If there are none its signal
is settled at once.  If there are some, it is settled only at a moment when none of them is live,
and only they bear their numbers. -/
structure Awaits (ds : List Declaration) (m : Moment) (started : List Nat) (token : Token) :
    Prop where
  unheard : started = [] → m.signals.outcome token = .settled .null
  pending : started ≠ [] → m.signals.outcome token = .pending
  live : ∀ id ∈ started, m.Live id
  released : started ≠ [] → ∀ m₁ m₂, Stages ds m m₁ → Stage ds m₁ m₂ →
    ¬ m₁.signals.IsSettled token → m₂.signals.IsSettled token →
    ∀ id ∈ started, ¬ m₁.Live id ∧ ¬ m₂.Live id
  numbers : ∀ m', Stages ds m m' → ∀ u ∈ m'.state.threads, u.id ∈ started →
    ∃ t ∈ m.state.threads, t.Descends u

theorem awaits_of_broadcast {trigger : Trigger} {token : Token} {queue : List Effect}
    {s : Interpreter} (h : Moment.Reached ds ⟨.broadcast trigger (some token) :: queue, s⟩) :
    Awaits ds ⟨queue, s.applyEffect (.broadcast trigger (some token))⟩ (s.trigger trigger).1
      token := by
  have hreached : Moment.Reached ds ⟨queue, s.applyEffect (.broadcast trigger (some token))⟩ :=
    h.stages (.single (.effect ..))
  have hsound := hreached.sound
  have hthreads := (Interpreter.threads_broadcast trigger (some token) s).1
  have hlive : ∀ id ∈ (s.trigger trigger).1,
      (⟨queue, s.applyEffect (.broadcast trigger (some token))⟩ : Moment).Live id := by
    intro id hid
    obtain ⟨t, ht, htid, hrun⟩ := Interpreter.trigger_runs trigger s id hid
    refine ⟨t, by rw [hthreads]; exact ht, htid, ?_⟩
    rw [hrun]
    exact Status.noConfusion
  have hwatcher : (s.trigger trigger).1 ≠ [] → (⟨(s.trigger trigger).1, token⟩ : Watcher) ∈
      (⟨queue, s.applyEffect (.broadcast trigger (some token))⟩ : Moment).state.watchers := by
    intro hne
    simp only [Interpreter.applyEffect]
    rw [if_neg (by rwa [List.isEmpty_iff])]
    exact List.mem_append_right _ (List.mem_singleton_self _)
  refine ⟨fun hempty => ?_, fun hne => ?_, hlive, fun hne => ?_, fun m' hstages u hu hid => ?_⟩
  · have hpending : s.world.signals.outcome token = .pending := by
      refine h.sound.balanced.pending token (List.mem_append_left _ ?_)
      exact List.mem_append_right _ (List.mem_append_right _ (List.mem_cons_self ..))
    simp only [Interpreter.applyEffect, hempty, signals, Interpreter.settle,
      Interpreter.trigger_of_unheard hempty]
    exact Signals.outcome_conclude_self hpending
  · exact hsound.balanced.pending token (mem_held_of_watcher (hwatcher hne))
  · intro m₁ m₂ hstages hstage hunset hset
    have hwatched : Watched _ ⟨(s.trigger trigger).1, token⟩ := .inl (hwatcher hne)
    exact (hwatched.stages hsound hstages).not_live (hsound.stages hstages) hstage hunset hset
  · obtain ⟨t, ht, htid, -⟩ := hlive u.id hid
    refine (hsound.descends hstages).2 u hu ?_
    rw [← htid]
    exact hreached.numbered.lt t ht

end Moment

/-- A broadcast that is waited for never resumes its sender early, whatever the commands of a
session are.  The thread that posts it waits for its signal and takes no step of that generation
before the signal is settled; and the signal is settled at once if the broadcast starts nothing,
else only at a moment when no thread that it has started or restarted is live. -/
theorem broadcast_waits_for_started (ds : List Declaration) :
    (∀ fuel c (s s' : Interpreter), s.Reached ds → c.Over ds → s.perform fuel c = some s' →
      Stages ds ⟨[], s⟩ ⟨[], s'⟩) ∧
    (∀ s i t fuel outcome t' w token, Moment.Reached ds ⟨[], s⟩ → s.threads[i]? = some t →
      t.status = .running → t.step fuel s.world = some (outcome, t', w) →
      token ∈ w.services.outbox.tokens → token ∉ s.world.services.outbox.tokens →
      (Moment.taking { s with threads := s.threads.set i t', world := w }).Holds ds t' token) ∧
    ∀ trigger token queue s, Moment.Reached ds ⟨.broadcast trigger (some token) :: queue, s⟩ →
      Moment.Awaits ds ⟨queue, s.applyEffect (.broadcast trigger (some token))⟩
        (s.trigger trigger).1 token := by
  refine ⟨?_, ?_, fun trigger token queue s => Moment.awaits_of_broadcast⟩
  · intro fuel c s s' hs hc hperform
    exact Interpreter.perform_stages hs.moment.sound.scene hc hperform
  · intro s i t fuel outcome t' w token hm ht hr hstep hnew hold
    have hsound := hm.sound
    have hover := hsound.threads t (List.mem_of_getElem? ht)
    obtain ⟨hp, hpending⟩ :=
      (Thread.step_stepped hover hsound.scene hr hstep).waits_of_posted hnew hold
    have hi : i < s.threads.length := (List.getElem?_eq_some_iff.mp ht).1
    exact Moment.holds_of_parked (hm.stages (.single (.slice ht hr hstep)))
      (List.mem_of_getElem? (List.getElem?_set_self hi)) hp hpending

/-- A script that sends a broadcast and waits for it. -/
def Script.asking : Script :=
  ⟨.mk (Library.command "event_broadcastandwait" [("BROADCAST_INPUT", .slot .string)]
    .broadcastAndWait) "ask" 0 [("BROADCAST_INPUT", .literal (.str "go"))], []⟩

/-- A script that the broadcast starts. -/
def Script.answering : Script :=
  ⟨.mk (Library.eventHat "event_whenbroadcastreceived" [("BROADCAST_OPTION", .field)]
    (((Hat.event Trigger.broadcastEvent).restarting true).keyedBy "BROADCAST_OPTION")) "answer" 1
    [("BROADCAST_OPTION", .literal (.str "go"))], []⟩

theorem Script.asking_over : Script.asking.Over [] := by
  refine List.forall_mem_singleton.mpr (.intro (.inl (List.mem_of_getElem? (i := 13) rfl)) ?_)
  exact List.forall_mem_singleton.mpr (.literal _)

theorem Script.answering_over : Script.answering.Over [] := by
  refine List.forall_mem_singleton.mpr (.intro (.inl (List.mem_of_getElem? (i := 9) rfl)) ?_)
  exact List.forall_mem_singleton.mpr (.literal _)

/-- A session that has just begun, with a script that the broadcast starts. -/
def Interpreter.asking : Interpreter :=
  .fresh { targets := [{ Target.stage with scripts := [.answering] }] } {} {}

/-- The broadcast starts a thread with the number 1, and thread 0 waits for it. -/
theorem broadcast_waits_for_started_answering :
    ∃ queue s t trigger, Moment.Reached [] ⟨.broadcast trigger (some 0) :: queue, s⟩ ∧
      (s.trigger trigger).1 = [1] ∧ t ∈ s.threads ∧
      Moment.Holds [] ⟨.broadcast trigger (some 0) :: queue, s⟩ t 0 ∧
      Moment.Awaits [] ⟨queue, s.applyEffect (.broadcast trigger (some 0))⟩ [1] 0 := by
  have hscene : Interpreter.asking.world.scene.Over [] := by
    refine ⟨fun x hx => ?_, fun _ hp => absurd hp List.not_mem_nil⟩
    rw [List.mem_singleton.mp hx]
    exact Script.answering_over
  have hlaunch : Moment.Reached [] ⟨[], (Interpreter.asking.launch .asking 0 none false).2⟩ :=
    ⟨_, _, _, hscene, .single (.launch 0 none false _ Script.asking_over)⟩
  have hslice := @Stage.slice [] (Interpreter.asking.launch .asking 0 none false).2 0 8 _ _ _ _ rfl
    rfl rfl
  have hposted := hlaunch.stages (.single hslice)
  have hsent := (broadcast_waits_for_started []).2.1 _ 0 _ 8 _ _ _ 0 hlaunch rfl rfl rfl
    (by decide) (by decide)
  exact ⟨_, _, _, _, hposted, rfl, List.mem_singleton_self _, hsent,
    (broadcast_waits_for_started []).2.2 _ _ _ _ hposted⟩

end Blockwork
