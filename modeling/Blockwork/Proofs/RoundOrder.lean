import Blockwork.Proofs.Lifecycle

/-!
The order within a round.

A round walks through the threads by position while its own effects launch, restart and retire some of
them.  Since no effect moves a thread, and new ones come at the end, the numbers of the threads that are
stepped increase.  A position is expected to run as long as it holds no thread yet or one that is ready;
a turn at another position keeps that, unless one of its effects retires the thread
(`Turns.expected`).  So every thread that is ready at the start of a round, and every one launched in
it, is stepped when its turn comes, unless it has been retired before.
-/

namespace Blockwork

/-! ### Ready threads -/

/-- The thread runs, or is parked on what has its value already. -/
def Thread.Ready (signals : Signals) (t : Thread) : Prop :=
  t.status = .running ∨
    t.status = .parked ∧ ∃ p v, t.pending = some p ∧ p.awaitable.Gives signals v

namespace Thread

theorem Ready.grows {t : Thread} {s s' : Signals} (h : t.Ready s) (hs : s.Grows s') :
    t.Ready s' := by
  rcases h with hrun | ⟨hparked, p, v, hp, hgives⟩
  · exact .inl hrun
  · exact .inr ⟨hparked, p, v, hp, hgives.grows hs⟩

theorem Ready.live {t : Thread} {s : Signals} (h : t.Ready s) : t.status ≠ .done := by
  rcases h with hrun | ⟨hparked, -⟩
  · rw [hrun]
    exact Status.noConfusion
  · rw [hparked]
    exact Status.noConfusion

end Thread

namespace Interpreter

/-- A ready thread runs in its turn. -/
theorem polled_running {s : Interpreter} {t : Thread} (ht : t.WellFormed)
    (h : t.Ready s.world.signals) : (s.polled t).status = .running := by
  rw [polled]
  rcases h with hrun | ⟨hparked, p, v, hp, hgives⟩
  · rw [if_neg (by rw [hrun]; exact Status.noConfusion), hrun]
  · rw [if_pos hparked, Thread.poll_of_gives ht.waits hp hgives]

/-- An effect retires a thread: it was live before, and is not any more. -/
def Retires (s : Interpreter) (e : Effect) (id : Nat) : Prop :=
  s.Live id ∧ ¬ (s.applyEffect e).Live id

/-! ### Expected positions -/

/-- No thread stands at the position yet, or one that is ready. -/
def Expects (s : Interpreter) (p : Nat) : Prop :=
  ∀ t, s.threads[p]? = some t → t.Ready s.world.signals

theorem Expects.of_eq {s s' : Interpreter} {p : Nat} (h : s.Expects p)
    (hthreads : s'.threads[p]? = s.threads[p]?) (hgrows : s.world.signals.Grows s'.world.signals) :
    s'.Expects p := by
  intro t ht
  rw [hthreads] at ht
  exact (h t ht).grows hgrows

theorem Expects.launch {s : Interpreter} {p : Nat} (h : s.Expects p) (script : Script)
    (target : Nat) (payload : Option Value) (restart : Bool) :
    (s.launch script target payload restart).2.Expects p := by
  intro t ht
  rw [launch_world]
  simp only [Interpreter.launch] at ht
  split at ht
  · simp only [modifyThread, List.getElem?_map] at ht
    obtain ⟨t₁, ht₁, rfl⟩ := Option.map_eq_some_iff.mp ht
    split
    · exact .inl rfl
    · exact h t₁ ht₁
  · rcases Nat.lt_or_ge p s.threads.length with hlt | hge
    · rw [List.getElem?_append_left hlt] at ht
      exact h t ht
    · rw [List.getElem?_append_right hge] at ht
      rw [List.mem_singleton.mp (List.mem_of_getElem? ht)]
      exact .inl rfl

theorem Expects.launchAll {p : Nat} {payload : Option Value} {xs : List (Nat × Script × Bool)} :
    ∀ {s : Interpreter}, s.Expects p → (Interpreter.launchAll payload xs s).2.Expects p := by
  induction xs with
  | nil => exact fun h => h
  | cons x xs ih => exact fun h => ih (h.launch x.2.1 x.1 payload x.2.2)

/-- Stopping the other threads of a target retires threads, and does nothing else. -/
theorem Expects.stopOthers {s : Interpreter} {p : Nat} (h : s.Expects p) (hs : s.Ordered)
    (target : Nat) (except : Option Nat) :
    (s.applyEffect (.stopOthers target except)).Expects p ∨
      ∃ id, s.ids[p]? = some id ∧ s.Retires (.stopOthers target except) id := by
  cases ht : s.threads[p]? with
  | none =>
    refine .inl (h.of_eq ?_ (.refl _))
    simp only [applyEffect, List.getElem?_map, ht, Option.map_none]
  | some t =>
    have hmem := List.mem_of_getElem? ht
    by_cases hstops : t.target = target ∧ some t.id ≠ except
    · refine .inr ⟨t.id, ?_, ⟨t, hmem, rfl, (h t ht).live⟩, ?_⟩
      · rw [ids, List.getElem?_map, ht, Option.map_some]
      · rintro ⟨t', ht', hid, hlive⟩
        obtain ⟨t₁, ht₁, rfl⟩ := List.mem_map.mp ht'
        -- the only thread with that number has been retired
        have heq : t₁ = t := by
          refine hs.eq_of_id hmem ht₁ (Eq.trans ?_ hid)
          split <;> rfl
        subst heq
        rw [if_pos hstops] at hlive
        exact hlive rfl
    · refine .inl (h.of_eq ?_ (.refl _))
      simp only [applyEffect, List.getElem?_map, ht, Option.map_some, if_neg hstops]

theorem Expects.effect {s : Interpreter} {p : Nat} (h : s.Expects p) (hs : s.Ordered) {e : Effect}
    (he : e ≠ .stopAll) :
    (s.applyEffect e).Expects p ∨ ∃ id, s.ids[p]? = some id ∧ s.Retires e id := by
  cases e with
  | broadcast t completion =>
    have htrigger : (s.trigger t).2.Expects p := h.launchAll
    refine .inl ?_
    simp only [applyEffect]
    split
    · exact htrigger
    · split
      · exact htrigger.of_eq rfl (Signals.grows_conclude ..)
      · exact htrigger.of_eq rfl (.refl _)
  | stopAll => exact absurd rfl he
  | stopOthers target except => exact h.stopOthers hs target except

theorem Adds.getElem? {s s' : Interpreter} (h : s.Adds s') {p id : Nat}
    (hp : s.ids[p]? = some id) : s'.ids[p]? = some id := by
  rw [h.eq, List.getElem?_append_left (List.getElem?_eq_some_iff.mp hp).1]
  exact hp

theorem Expects.effects {p : Nat} {effects : List Effect} :
    ∀ {s : Interpreter}, s.Expects p → s.Ordered →
      (∀ x ∈ effectsFrom effects s, x.2 ≠ .stopAll) →
      (effects.foldl applyEffect s).Expects p ∨ ∃ x ∈ effectsFrom effects s, ∃ id,
        (effects.foldl applyEffect s).ids[p]? = some id ∧ x.1.Retires x.2 id := by
  induction effects with
  | nil => exact fun h _ _ => .inl h
  | cons e effects ih =>
    intro s h hs hspares
    have hspares' := fun x hx => hspares x (List.mem_cons_of_mem _ hx)
    rcases h.effect hs (hspares _ (List.mem_cons_self ..)) with hnext | ⟨id, hid, hretires⟩
    · rcases ih hnext (hs.follows (follows_applyEffect e s)) hspares' with hend | ⟨x, hx, hretired⟩
      · exact .inl hend
      · exact .inr ⟨x, List.mem_cons_of_mem _ hx, hretired⟩
    · exact .inr ⟨(s, e), List.mem_cons_self .., id, (adds_effects hspares).getElem? hid, hretires⟩

/-! ### Turns -/

end Interpreter

/-- The number of the thread whose turn it is. -/
def Turn.thread? (u : Turn) : Option Nat := u.before.threads[u.position]?.map Thread.id

theorem Turn.stepped_sublist (log : List Turn) :
    (log.filterMap stepped?).Sublist (log.filterMap thread?) := by
  induction log with
  | nil => exact .slnil
  | cons u log ih =>
    have hstepped : u.stepped? = none ∨ u.stepped? = u.thread? := by
      rw [stepped?]
      cases u.slice with
      | none => exact .inl rfl
      | some slice => exact .inr rfl
    rw [List.filterMap_cons, List.filterMap_cons]
    cases hthread : u.thread? with
    | none =>
      rw [hthread, or_self] at hstepped
      rw [hstepped]
      exact ih
    | some id =>
      rw [hthread] at hstepped
      rcases hstepped with hnone | hsome
      · rw [hnone]
        exact ih.cons id
      · rw [hsome]
        exact ih.cons_cons id

namespace Interpreter

/-- A turn at another position. -/
theorem Takes.expects {fuel i p : Nat} {s : Interpreter} {u : Turn} (h : s.Takes fuel i u)
    (hip : i ≠ p) (hs : s.Ordered) (hspares : u.SparesAll) (hp : s.Expects p) :
    u.after.Expects p ∨
      ∃ x ∈ u.effects, ∃ id, u.after.ids[p]? = some id ∧ x.1.Retires x.2 id := by
  cases h with
  | rests ht _ => exact .inl (hp.of_eq (List.getElem?_set_ne hip) (.refl _))
  | @runs t t' w outcome ht _ hstep =>
    let slice : Interpreter := { s with threads := s.threads.set i t', world := w }
    have hgrows : s.world.signals.Grows w.signals := Thread.step_grows hstep
    have hexpects : (Moment.taking slice).state.Expects p :=
      hp.of_eq (List.getElem?_set_ne hip) hgrows
    have hadds : s.Adds (Moment.taking slice).state :=
      adds_of_eq rfl (ids_set ht ((s.same_polled t).trans (Thread.same_step hstep)).id)
    exact hexpects.effects (hs.follows hadds.follows) hspares

/-- The turn of an expected position steps its thread. -/
theorem Takes.stepped {fuel p id : Nat} {s : Interpreter} {u : Turn} (h : s.Takes fuel p u)
    (hs : s.Sound) (hp : s.Expects p) (hid : s.ids[p]? = some id) : u.stepped? = some id := by
  cases h with
  | rests ht hrest =>
    exact absurd (polled_running (hs.threads _ (List.mem_of_getElem? ht)) (hp _ ht)) hrest
  | runs ht _ _ =>
    rw [ids, List.getElem?_map] at hid
    exact hid

theorem Turns.expected {fuel i p : Nat} {s s' : Interpreter} {log : List Turn}
    (h : s.Turns fuel i log s') (hp : i + log.length ≤ p) (hs : s.Ordered)
    (hspares : ∀ u ∈ log, u.SparesAll) (hexpects : s.Expects p) :
    s'.Expects p ∨
      ∃ u ∈ log, ∃ x ∈ u.effects, ∃ id, s'.ids[p]? = some id ∧ x.1.Retires x.2 id := by
  induction h with
  | nil => exact .inl hexpects
  | @cons i s s' u log htakes _ hrest ih =>
    have hspares' := fun v hv => hspares v (List.mem_cons_of_mem _ hv)
    rw [List.length_cons] at hp
    have hfollows := htakes.follows
    rcases htakes.expects (by omega) hs (hspares u (List.mem_cons_self ..)) hexpects with
      hnext | ⟨x, hx, id, hid, hretires⟩
    · rcases ih (by omega) (hs.follows hfollows) hspares' hnext with hend | ⟨v, hv, hretired⟩
      · exact .inl hend
      · exact .inr ⟨v, List.mem_cons_of_mem _ hv, hretired⟩
    · exact .inr ⟨u, List.mem_cons_self .., x, hx, id, (hrest.adds hspares').getElem? hid, hretires⟩

/-- The numbers of the threads that have turns come in the order of the threads, those launched
meanwhile at the end. -/
theorem Turns.turned_sublist {fuel i : Nat} {s s' : Interpreter} {log : List Turn}
    (h : s.Turns fuel i log s') :
    (log.filterMap Turn.thread?).Sublist (s.ids.drop i ++ numbers s s') := by
  induction h with
  | nil => exact List.nil_sublist _
  | @cons i s s' u log htakes _ hrest ih =>
    have hfollows := htakes.follows
    have hlt : i < s.ids.length := by
      rw [ids, List.length_map]
      exact htakes.lt
    -- what is left of the threads after the turn, from the next position on
    have hrest : (log.filterMap Turn.thread?).Sublist (s.ids.drop (i + 1) ++ numbers s s') := by
      have hdrop := hfollows.sublist.drop (i + 1)
      rw [List.drop_append_of_le_length hlt] at hdrop
      rw [← numbers_append hfollows.le hrest.follows.le, ← List.append_assoc]
      exact ih.trans (hdrop.append (List.Sublist.refl _))
    have hturn : u.thread? = some s.ids[i] := by
      rw [← List.getElem?_eq_getElem hlt, ids, List.getElem?_map, Turn.thread?, htakes.before_eq.1,
        htakes.before_eq.2]
    rw [List.drop_eq_getElem_cons hlt, List.cons_append, List.filterMap_cons_some hturn]
    exact hrest.cons_cons _

theorem Turns.turned_increasing {fuel i : Nat} {s s' : Interpreter} {log : List Turn}
    (h : s.Turns fuel i log s') (hs : s.Ordered) :
    (log.filterMap Turn.thread?).Pairwise (· < ·) := by
  refine (hs.append s').sublist (h.turned_sublist.trans ?_)
  exact (List.drop_sublist i _).append (List.Sublist.refl _)

theorem Turns.stepped_increasing {fuel i : Nat} {s s' : Interpreter} {log : List Turn}
    (h : s.Turns fuel i log s') (hs : s.Ordered) :
    (log.filterMap Turn.stepped?).Pairwise (· < ·) :=
  (h.turned_increasing hs).sublist (Turn.stepped_sublist log)

/-! ### Rounds -/

/-- The thread has its turn in the round, and is stepped in it, for the only time, unless an effect
that was carried out before has retired it. -/
def Served (log : List Turn) (id : Nat) : Prop :=
  ∃ before u after, log = before ++ u :: after ∧ u.before.ids[u.position]? = some id ∧
    (u.stepped? = some id ∧ (log.filterMap Turn.stepped?).count id = 1 ∨
      ∃ v ∈ before, ∃ x ∈ v.effects, x.1.Retires x.2 id)

/-- In a round that goes to its end without stopping all threads, each position that is expected to run
at its start is served. -/
theorem Turns.served {fuel p id : Nat} {s s' : Interpreter} {log : List Turn}
    (h : s.Turns fuel 0 log s') (hover : s'.threads.length ≤ log.length) (hs : s.Sound)
    (hspares : ∀ u ∈ log, u.SparesAll) (hp : s.Expects p) (hid : s'.ids[p]? = some id) :
    Served log id := by
  have hlt : p < log.length := by
    have hlt := (List.getElem?_eq_some_iff.mp hid).1
    rw [ids, List.length_map] at hlt
    exact Nat.lt_of_lt_of_le hlt hover
  obtain ⟨before, u, after, rfl, rfl⟩ : ∃ before u after,
      log = before ++ u :: after ∧ before.length = p :=
    ⟨log.take p, log[p], log.drop (p + 1), by simp, List.length_take_of_le (Nat.le_of_lt hlt)⟩
  obtain ⟨hbefore, htakes, hafter⟩ := h.split
  rw [Nat.zero_add] at htakes
  have hposition := htakes.before_eq.2
  have hspares' := fun v hv => hspares v (List.mem_append_left _ hv)
  have hafterSpares := fun v hv => hspares v (List.mem_append_right _ hv)
  -- the thread stands there when its turn comes
  have hadds : u.before.Adds s' :=
    (htakes.adds (hafterSpares u (List.mem_cons_self ..))).trans
      (hafter.adds fun v hv => hafterSpares v (List.mem_cons_of_mem _ hv))
  have hthere : u.before.ids[before.length]? = some id := by
    have hlt' : before.length < u.before.ids.length := by
      rw [ids, List.length_map]
      exact htakes.lt
    rw [← hid, hadds.eq, List.getElem?_append_left hlt']
  refine ⟨before, u, after, rfl, by rw [hposition]; exact hthere, ?_⟩
  rcases hbefore.expected (Nat.le_of_eq (Nat.zero_add _)) hs.ordered hspares' hp with
    hready | ⟨v, hv, x, hx, id', hid', hretires⟩
  · have hstepped := htakes.stepped (hs.turns hbefore) hready hthere
    refine .inl ⟨hstepped, ?_⟩
    have hnodup := (h.stepped_increasing hs.ordered).imp Nat.ne_of_lt
    refine List.count_eq_one_of_mem hnodup (List.mem_filterMap.mpr ⟨u, ?_, hstepped⟩)
    exact List.mem_append_right _ (List.mem_cons_self ..)
  · cases hid'.symm.trans hthere
    exact .inr ⟨v, hv, x, hx, hretires⟩

/-- An effect of a round is carried out between its start and its end. -/
theorem mem_effectsFrom_follows {effects : List Effect} {x : Interpreter × Effect} :
    ∀ {s : Interpreter}, x ∈ effectsFrom effects s →
      s.Follows x.1 ∧ (x.1.applyEffect x.2).Follows (effects.foldl applyEffect s) := by
  induction effects with
  | nil => exact fun h => absurd h List.not_mem_nil
  | cons e effects ih =>
    intro s h
    rcases List.mem_cons.mp h with rfl | h
    · exact ⟨.refl s, follows_effects effects _⟩
    · obtain ⟨hbefore, hafter⟩ := ih h
      exact ⟨(follows_applyEffect e s).trans hbefore, hafter⟩

theorem Turns.effect_follows {fuel i : Nat} {s s' : Interpreter} {log : List Turn} {u : Turn}
    {x : Interpreter × Effect} (h : s.Turns fuel i log s') (hu : u ∈ log) (hx : x ∈ u.effects) :
    s.Follows x.1 ∧ (x.1.applyEffect x.2).Follows s' := by
  obtain ⟨before, after, rfl⟩ := List.append_of_mem hu
  obtain ⟨hbefore, htakes, hafter⟩ := h.split
  obtain ⟨effects, s₁, hadds, heffects, hend⟩ := htakes.adds_before_effects
  rw [heffects] at hx
  obtain ⟨hstart, hrest⟩ := mem_effectsFrom_follows hx
  rw [← hend] at hrest
  exact ⟨(hbefore.follows.trans hadds.follows).trans hstart, hrest.trans hafter.follows⟩

end Interpreter

open Interpreter in
/-- The discipline of a round, in every session.  The numbers of the threads that are stepped in a round
increase, so none is stepped twice.  If the round goes to its end and no effect stops all threads, then
every thread that is ready at its start is served in it, and so is every thread that an effect carried
out in it launches. -/
theorem round_steps_in_order {scene : Scene} {s : Interpreter} (hs : s.Session .unbound scene)
    {fuel : Nat} {budget : Budget} {report : Report} {s₀ : Interpreter}
    (hround : s.BeginsRound fuel budget report s₀) :
    (∀ log s', s₀.Turns fuel 0 log s' → (log.filterMap Turn.stepped?).Pairwise (· < ·)) ∧
    ∀ active s', turns fuel fuel 0 0 s₀ = some (active, none, s') →
      ∃ log, s₀.Turns fuel 0 log s' ∧ s'.threads.length ≤ log.length ∧
        ((∀ u ∈ log, u.SparesAll) →
          (∀ t ∈ s₀.threads, t.Ready s₀.world.signals → Served log t.id) ∧
          ∀ u ∈ log, ∀ x ∈ u.effects, ∀ id, x.1.nextId ≤ id →
            id < (x.1.applyEffect x.2).nextId → Served log id) := by
  have hs₀ : s₀.Sound := hs.sound.beginsRound hround
  refine ⟨fun log s' hlog => hlog.stepped_increasing hs₀.ordered, fun active s' hturns => ?_⟩
  obtain ⟨log, hlog, -, hover⟩ := turns_log hturns
  have hover : s'.threads.length ≤ log.length := by
    have hover := hover rfl
    rwa [Nat.zero_add] at hover
  refine ⟨log, hlog, hover, fun hspares => ⟨fun t ht hready => ?_, fun u hu x hx id hge hlt => ?_⟩⟩
  · obtain ⟨p, hp⟩ := List.getElem?_of_mem ht
    have hid : s₀.ids[p]? = some t.id := by rw [ids, List.getElem?_map, hp, Option.map_some]
    refine hlog.served hover hs₀ hspares (fun t' ht' => ?_) ((hlog.adds hspares).getElem? hid)
    cases hp.symm.trans ht'
    exact hready
  · obtain ⟨hbefore, hafter⟩ := hlog.effect_follows hu hx
    have hnew : id ∈ numbers s₀ s' := by
      have hle := hbefore.le
      have hle' := hafter.le
      exact List.mem_range'_1.mpr ⟨by omega, by omega⟩
    obtain ⟨k, hk⟩ := List.getElem?_of_mem hnew
    have hid : s'.ids[s₀.ids.length + k]? = some id := by
      rw [(hlog.adds hspares).eq, List.getElem?_append_right (Nat.le_add_right _ _),
        Nat.add_sub_cancel_left, hk]
    refine hlog.served hover hs₀ hspares (fun t ht => ?_) hid
    -- there was no thread at that position when the round began
    have hlt' := (List.getElem?_eq_some_iff.mp ht).1
    rw [ids, List.length_map] at hlt'
    omega

/-- Thread 0 is ready at the start of the round, and thread 1 is launched in it by an effect.  Both are
served. -/
theorem round_steps_in_order_asked :
    ∃ log s', Interpreter.asked.beginFrame.Turns 8 0 log s' ∧
      log.filterMap Turn.stepped? = [0, 1] ∧ Interpreter.Served log 0 ∧
      Interpreter.Served log 1 := by
  obtain ⟨u, v, s₁, hturns, hlength, hstepped, hlaunched, heffects, hu, hv⟩ :=
    Interpreter.asked_turns
  have hround : Interpreter.asked.BeginsRound 8 (.rounds 1) {} _ := .first
  obtain ⟨-, hserved⟩ := round_steps_in_order (Interpreter.asked_session trivial) hround
  obtain ⟨s', hends⟩ : ∃ s', Interpreter.turns 8 8 0 0 Interpreter.asked.beginFrame =
    some (2, none, s') := ⟨_, rfl⟩
  obtain ⟨log, hlog, hover, hserved⟩ := hserved 2 s' hends
  have heq : log = [u, v] := by
    have hprefix := hturns.isPrefix (Nat.le_of_eq hlength) hlog
    refine hprefix.eq_of_length_le ?_
    exact (hlog.isPrefix (by omega) hturns).length_le
  subst heq
  have hspares : ∀ w ∈ [u, v], w.SparesAll :=
    List.forall_mem_cons.mpr ⟨hu, List.forall_mem_singleton.mpr hv⟩
  obtain ⟨hready, hnew⟩ := hserved hspares
  obtain ⟨x, hx⟩ := List.exists_mem_of_ne_nil _ heffects
  obtain ⟨hbefore, hafter⟩ := hlaunched x hx
  refine ⟨_, _, hturns, hstepped, hready _ (List.mem_singleton_self _) (.inl rfl), ?_⟩
  exact hnew u (List.mem_cons_self ..) x hx 1 (Nat.le_of_eq hbefore) (by rw [hafter]; decide)

end Blockwork
