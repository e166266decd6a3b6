import Blockwork.Proofs.Firing
import Blockwork.Proofs.Moment
import Mathlib.Data.List.Nodup

/-!
What becomes of signals, and who holds their tokens.

A signal that has an outcome keeps it, and concluding one signal leaves all others alone.  `Trades`
says once what a stage can do with tokens: it leaves them where they are, begins one, settles some
that are due, or drops some while it stops all threads.  From that alone, at every moment the tokens
of the delays, the watchers, the outbox and the effects in hand are all different, and their signals
are all pending (`Moment.Balanced`).
-/

namespace Blockwork

/-! ### Outcomes -/

namespace Signals

variable {s : Signals} {t u : Token} {o : Outcome}

theorem outcome_conclude_of_ne (h : u ≠ t) : (s.conclude t o).outcome u = s.outcome u := by
  rw [conclude]
  split
  · rw [outcome, Array.getElem?_setIfInBounds_ne (Ne.symm h)]
    rfl
  · rfl

theorem outcome_conclude_of_ne_pending (h : s.outcome u ≠ .pending) :
    (s.conclude t o).outcome u = s.outcome u := by
  by_cases hut : u = t
  · subst hut
    rw [conclude]
    split
    · rename_i hp
      exact absurd hp h
    · rfl
  · exact outcome_conclude_of_ne hut

/-- A token that no signal has been begun for counts as abandoned. -/
theorem lt_size_of_outcome_ne (h : s.outcome t ≠ .abandoned) : t < s.outcomes.size := by
  by_contra hlt
  rw [outcome, Array.getElem?_eq_none (Nat.le_of_not_lt hlt)] at h
  exact h rfl

theorem lt_size_of_pending (h : s.outcome t = .pending) : t < s.outcomes.size :=
  lt_size_of_outcome_ne (by rw [h]; exact Outcome.noConfusion)

theorem outcome_conclude_self (h : s.outcome t = .pending) : (s.conclude t o).outcome t = o := by
  rw [conclude, h]
  simp only [outcome]
  rw [Array.getElem?_setIfInBounds_self_of_lt (lt_size_of_pending h)]
  rfl

/-- Concludes each of the signals in the same way. -/
def concludeAll (ts : List Token) (o : Outcome) (s : Signals) : Signals :=
  ts.foldl (fun s t => s.conclude t o) s

theorem concludeAll_cons (t : Token) (ts : List Token) (o : Outcome) (s : Signals) :
    s.concludeAll (t :: ts) o = (s.conclude t o).concludeAll ts o := rfl

theorem size_concludeAll (ts : List Token) :
    (s.concludeAll ts o).outcomes.size = s.outcomes.size := by
  induction ts generalizing s with
  | nil => rfl
  | cons t ts ih =>
    rw [concludeAll_cons, ih, conclude]
    split
    · exact Array.size_setIfInBounds
    · rfl

theorem outcome_concludeAll_of_notMem {ts : List Token} (h : u ∉ ts) :
    (s.concludeAll ts o).outcome u = s.outcome u := by
  induction ts generalizing s with
  | nil => rfl
  | cons t ts ih =>
    rw [List.mem_cons, not_or] at h
    rw [concludeAll_cons, ih h.2, outcome_conclude_of_ne h.1]

theorem outcome_concludeAll_of_ne_pending {ts : List Token} (h : s.outcome u ≠ .pending) :
    (s.concludeAll ts o).outcome u = s.outcome u := by
  induction ts generalizing s with
  | nil => rfl
  | cons t ts ih =>
    have ht : (s.conclude t o).outcome u = s.outcome u := outcome_conclude_of_ne_pending h
    rw [concludeAll_cons, ih (by rw [ht]; exact h), ht]

theorem outcome_concludeAll_of_mem {ts : List Token} (h : s.outcome u = .pending) (hu : u ∈ ts)
    (ho : o ≠ .pending) : (s.concludeAll ts o).outcome u = o := by
  induction ts generalizing s with
  | nil => cases hu
  | cons t ts ih =>
    rw [concludeAll_cons]
    by_cases hut : u = t
    · subst hut
      have hself : (s.conclude u o).outcome u = o := outcome_conclude_self h
      rw [outcome_concludeAll_of_ne_pending (by rw [hself]; exact ho), hself]
    · have hne : (s.conclude t o).outcome u = .pending := (outcome_conclude_of_ne hut).trans h
      exact ih hne ((List.mem_cons.mp hu).resolve_left hut)

theorem conclude_of_pending (h : s.outcome t = .pending) :
    s.conclude t o = { s with outcomes := s.outcomes.setIfInBounds t o } := by
  rw [conclude, h]

theorem conclude_of_ne_pending (h : s.outcome t ≠ .pending) : s.conclude t o = s := by
  rw [conclude]
  split
  · rename_i hp
    exact absurd hp h
  · rfl

/-- Two signals can be concluded in either order. -/
theorem conclude_comm (s : Signals) (t u : Token) (o : Outcome) :
    (s.conclude t o).conclude u o = (s.conclude u o).conclude t o := by
  rcases eq_or_ne t u with rfl | htu
  · rfl
  have ht : (s.conclude u o).outcome t = s.outcome t := outcome_conclude_of_ne htu
  have hu : (s.conclude t o).outcome u = s.outcome u := outcome_conclude_of_ne htu.symm
  by_cases htp : s.outcome t = .pending
  · by_cases hup : s.outcome u = .pending
    · rw [conclude_of_pending (hu.trans hup), conclude_of_pending (ht.trans htp),
        conclude_of_pending htp, conclude_of_pending hup]
      exact congrArg (Signals.mk · s.hosted) (Array.setIfInBounds_comm _ _ htu)
    · have hleft := conclude_of_ne_pending (o := o) (hu.trans_ne hup)
      rw [hleft, conclude_of_ne_pending hup]
  · have hright := conclude_of_ne_pending (o := o) (ht.trans_ne htp)
    rw [hright, conclude_of_ne_pending htp]

theorem concludeAll_perm {ts us : List Token} (h : ts.Perm us) (o : Outcome) (s : Signals) :
    s.concludeAll ts o = s.concludeAll us o :=
  h.foldl_eq' (fun t _ u _ s => conclude_comm s t u o) s

/-- Whether a signal has been settled. -/
def IsSettled (s : Signals) (t : Token) : Prop := ∃ v, s.outcome t = .settled v

end Signals

/-! ### Holders -/

theorem Outbox.tokens_broadcast (t : Trigger) (token : Token) (q : List Effect) :
    Outbox.tokens (.broadcast t (some token) :: q) = token :: Outbox.tokens q := rfl

namespace Moment

def signals (m : Moment) : Signals := m.state.world.signals

/-- The tokens whose holders are to settle them: delays, watchers and effects in hand. -/
def bound (m : Moment) : List Token :=
  m.state.world.services.timers.tokens ++
    (m.state.watchers.map Watcher.token ++ Outbox.tokens m.queue)

/-- All tokens that are held. -/
def held (m : Moment) : List Token := m.bound ++ m.state.world.services.outbox.tokens

/-- Every token is held once, and no signal has an outcome while its token is held. -/
structure Balanced (m : Moment) : Prop where
  nodup : m.held.Nodup
  pending : ∀ t ∈ m.held, m.signals.outcome t = .pending

/-- What makes it time to settle a signal: its delay is over, the threads of its watcher have all
finished, or its broadcast has started nothing. -/
inductive Due (m : Moment) (t : Token) : Prop
  | delay {x : Timer} : x ∈ m.state.world.services.timers.pending → x.token = t →
      x.due ≤ m.state.world.now → Due m t
  | watcher {w : Watcher} : w ∈ m.state.watchers → w.token = t →
      Interpreter.isSettled m.state.threads w = true → Due m t
  | unheard {trigger : Trigger} {queue : List Effect} :
      m.queue = .broadcast trigger (some t) :: queue → (m.state.trigger trigger).1 = [] → Due m t

/-- What a stage can do with tokens. -/
inductive Trades (m m' : Moment) : Prop
  | keeps (held : m.held.Perm m'.held)
      (outcomes : m'.signals.outcomes = m.signals.outcomes) (bound : m.bound ⊆ m'.bound)
  | issues (t : Token) (held : (t :: m.held).Perm m'.held) (fresh : t = m.signals.outcomes.size)
      (outcomes : m'.signals.outcomes = m.signals.outcomes.push .pending)
      (bound : m.bound ⊆ m'.bound)
  | settles (ts : List Token) (held : m.held.Perm (ts ++ m'.held))
      (outcomes : m'.signals = m.signals.concludeAll ts (.settled .null))
      (due : ∀ t ∈ ts, m.Due t) (bound : m.bound ⊆ ts ++ m'.bound)
      (threads : m'.state.threads = m.state.threads)
  | drops (ts : List Token) (held : m.held.Perm (ts ++ m'.held))
      (outcomes : m'.signals = m.signals.concludeAll ts .abandoned)
      (threads : m'.state.threads = [])

theorem outcome_eq_of_outcomes {s s' : Signals} (h : s'.outcomes = s.outcomes) (t : Token) :
    s'.outcome t = s.outcome t := by
  rw [Signals.outcome, h]
  rfl

theorem outcome_push {s s' : Signals} (h : s'.outcomes = s.outcomes.push .pending) (t : Token) :
    s'.outcome t = if t = s.outcomes.size then .pending else s.outcome t := by
  rw [Signals.outcome, h, Array.getElem?_push]
  split
  · rfl
  · rfl

/-- Trading keeps the books balanced. -/
theorem Balanced.trades {m m' : Moment} (hm : m.Balanced) (h : m.Trades m') : m'.Balanced := by
  have hrelease : ∀ (ts : List Token) (o : Outcome), m.held.Perm (ts ++ m'.held) →
      m'.signals = m.signals.concludeAll ts o → m'.Balanced := by
    intro ts o hheld hsignals
    have hnodup := hheld.nodup_iff.mp hm.nodup
    refine ⟨hnodup.of_append_right, fun t ht => ?_⟩
    have hts : t ∉ ts := fun hmem => List.disjoint_of_nodup_append hnodup hmem ht
    rw [hsignals, Signals.outcome_concludeAll_of_notMem hts]
    exact hm.pending t (hheld.mem_iff.mpr (List.mem_append_right _ ht))
  cases h with
  | keeps held outcomes bound =>
    refine ⟨held.nodup_iff.mp hm.nodup, fun t ht => ?_⟩
    rw [outcome_eq_of_outcomes outcomes]
    exact hm.pending t (held.mem_iff.mpr ht)
  | issues t held fresh outcomes bound =>
    have ht : t ∉ m.held := by
      intro hmem
      have hlt := Signals.lt_size_of_pending (hm.pending t hmem)
      rw [fresh] at hlt
      exact Nat.lt_irrefl _ hlt
    refine ⟨held.nodup_iff.mp (List.nodup_cons.mpr ⟨ht, hm.nodup⟩), fun u hu => ?_⟩
    rw [outcome_push outcomes]
    split
    · rfl
    · rename_i hne
      rcases List.mem_cons.mp (held.mem_iff.mpr hu) with rfl | hu
      · exact absurd fresh hne
      · exact hm.pending u hu
  | settles ts held outcomes due bound threads => exact hrelease ts _ held outcomes
  | drops ts held outcomes threads => exact hrelease ts _ held outcomes

theorem Trades.size_le {m m' : Moment} (h : m.Trades m') :
    m.signals.outcomes.size ≤ m'.signals.outcomes.size := by
  cases h with
  | keeps held outcomes bound => exact Nat.le_of_eq (by rw [outcomes])
  | issues u held fresh outcomes bound =>
    rw [outcomes, Array.size_push]
    exact Nat.le_succ _
  | settles ts held outcomes due bound threads =>
    exact Nat.le_of_eq (by rw [outcomes, Signals.size_concludeAll])
  | drops ts held outcomes threads =>
    exact Nat.le_of_eq (by rw [outcomes, Signals.size_concludeAll])

/-- A signal that has an outcome keeps it. -/
theorem Trades.outcome_eq {m m' : Moment} (h : m.Trades m') {t : Token}
    (hlt : t < m.signals.outcomes.size) (hne : m.signals.outcome t ≠ .pending) :
    m'.signals.outcome t = m.signals.outcome t := by
  cases h with
  | keeps held outcomes bound => exact outcome_eq_of_outcomes outcomes t
  | issues u held fresh outcomes bound =>
    rw [outcome_push outcomes, if_neg (Nat.ne_of_lt hlt)]
  | settles ts held outcomes due bound threads =>
    rw [outcomes, Signals.outcome_concludeAll_of_ne_pending hne]
  | drops ts held outcomes threads =>
    rw [outcomes, Signals.outcome_concludeAll_of_ne_pending hne]

/-- A signal that is settled stays settled. -/
theorem Trades.isSettled {m m' : Moment} (h : m.Trades m') {t : Token}
    (ht : m.signals.IsSettled t) : m'.signals.IsSettled t := by
  obtain ⟨v, hv⟩ := ht
  have hlt := Signals.lt_size_of_outcome_ne (by rw [hv]; exact Outcome.noConfusion)
  refine ⟨v, ?_⟩
  rw [h.outcome_eq hlt (by rw [hv]; exact Outcome.noConfusion), hv]

end Moment

/-! ### What each operation does with tokens -/

namespace Interpreter

theorem launch_world (script : Script) (target : Nat) (payload : Option Value) (restart : Bool)
    (s : Interpreter) : (s.launch script target payload restart).2.world = s.world := by
  simp only [launch]
  split <;> rfl

theorem launch_watchers (script : Script) (target : Nat) (payload : Option Value) (restart : Bool)
    (s : Interpreter) : (s.launch script target payload restart).2.watchers = s.watchers := by
  simp only [launch]
  split <;> rfl

theorem launchAll_world (payload : Option Value) (xs : List (Nat × Script × Bool))
    (s : Interpreter) : (launchAll payload xs s).2.world = s.world := by
  induction xs generalizing s with
  | nil => rfl
  | cons x xs ih => exact (ih _).trans (launch_world ..)

theorem launchAll_watchers (payload : Option Value) (xs : List (Nat × Script × Bool))
    (s : Interpreter) : (launchAll payload xs s).2.watchers = s.watchers := by
  induction xs generalizing s with
  | nil => rfl
  | cons x xs ih => exact (ih _).trans (launch_watchers ..)

theorem trigger_world (t : Trigger) (s : Interpreter) : (s.trigger t).2.world = s.world :=
  launchAll_world ..

theorem trigger_watchers (t : Trigger) (s : Interpreter) : (s.trigger t).2.watchers = s.watchers :=
  launchAll_watchers ..

theorem stopAll_signals (s : Interpreter) :
    s.stopAll.world.signals = s.world.signals.concludeAll
      (s.world.services.outbox.tokens ++ s.watchers.map Watcher.token) .abandoned :=
  List.foldl_append.symm

/-- A trigger that starts nothing changes nothing. -/
theorem trigger_of_unheard {t : Trigger} {s : Interpreter} (h : (s.trigger t).1 = []) :
    (s.trigger t).2 = s := by
  rw [trigger] at h ⊢
  cases hfired : fired s.world.scene t with
  | nil => rfl
  | cons x xs =>
    rw [hfired] at h
    cases h

theorem foldl_settle (ws : List Watcher) (s : Interpreter) :
    ws.foldl (fun s w => s.settle w.token .null) s =
      { s with world := { s.world with
        signals := s.world.signals.concludeAll (ws.map Watcher.token) (.settled .null) } } := by
  induction ws generalizing s with
  | nil => rfl
  | cons w ws ih => exact ih _

theorem settleWatchers_eq (s : Interpreter) :
    s.settleWatchers = { s with
      watchers := s.watchers.filter fun w => !isSettled s.threads w
      world := { s.world with
        signals := s.world.signals.concludeAll
          ((s.watchers.filter (isSettled s.threads)).map Watcher.token) (.settled .null) } } := by
  rw [settleWatchers, List.partition_eq_filter_filter]
  exact foldl_settle _ _

end Interpreter

/-- The order in which the delays are looked at makes no difference to the signals. -/
theorem Timers.fireDue_signals (now : Nanos) (ts : Timers) (s : Signals) :
    (ts.fireDue now s).2.2 =
      s.concludeAll ((ts.pending.filter (·.due ≤ now)).map Timer.token) (.settled .null) := by
  have hfold : ∀ (xs : List Timer) (s : Signals),
      xs.foldl (fun s x => s.settle x.token .null) s =
        s.concludeAll (xs.map Timer.token) (.settled .null) := by
    intro xs
    induction xs with
    | nil => intro s; rfl
    | cons x xs ih => intro s; exact ih _
  obtain ⟨fired, hfired, -, -, hsignals⟩ := fireDue_spec now ts s
  rw [hsignals, hfold]
  exact Signals.concludeAll_perm (hfired.map _) _ _

theorem World.fireDue_signals (w : World) :
    w.fireDue.2.signals = w.signals.concludeAll
      ((w.services.timers.pending.filter (·.due ≤ w.now)).map Timer.token) (.settled .null) :=
  Timers.fireDue_signals w.now w.services.timers w.signals

/-- Splitting a list by a test splits its tokens. -/
theorem map_filter_perm {α : Type} (f : α → Token) (p : α → Bool) (xs : List α) :
    (xs.map f).Perm ((xs.filter p).map f ++ (xs.filter fun x => !p x).map f) := by
  rw [← List.map_append]
  exact (List.filter_append_perm p xs).symm.map f

namespace Moment

variable {ds : List Declaration}

theorem trades_of_same {q q' : List Effect} {s s' : Interpreter}
    (hs : s'.world.signals.outcomes = s.world.signals.outcomes)
    (ht : s'.world.services.timers.tokens = s.world.services.timers.tokens)
    (ho : s'.world.services.outbox.tokens = s.world.services.outbox.tokens)
    (hw : s'.watchers = s.watchers) (hq : Outbox.tokens q' = Outbox.tokens q) :
    (⟨q, s⟩ : Moment).Trades ⟨q', s'⟩ := by
  have hb : (⟨q', s'⟩ : Moment).bound = (⟨q, s⟩ : Moment).bound := by
    simp only [bound, ht, hw, hq]
  refine .keeps ?_ hs ?_
  · rw [held, held, hb, ho]
  · rw [hb]
    exact List.Subset.refl _

/-- Emptying the outbox hands its tokens to the effects in hand. -/
theorem trades_taking (s : Interpreter) : (⟨[], s⟩ : Moment).Trades (.taking s) := by
  refine .keeps ?_ rfl ?_
  · rw [List.perm_iff_count]
    intro a
    simp [held, bound, taking, Outbox.tokens, List.count_append]
  · intro a ha
    simp only [bound, taking, Outbox.tokens, List.filterMap_nil, List.append_nil,
      List.mem_append] at ha ⊢
    exact ha.imp_right .inl

theorem trades_fire (s : Interpreter) :
    (⟨[], s⟩ : Moment).Trades ⟨[], { s with world := s.world.fireDue.2 }⟩ := by
  have hperm : s.world.services.timers.tokens.Perm
      ((s.world.services.timers.pending.filter (·.due ≤ s.world.now)).map Timer.token ++
        s.world.fireDue.2.services.timers.tokens) := by
    have h := map_filter_perm Timer.token (fun x => decide (x.due ≤ s.world.now))
      s.world.services.timers.pending
    have hneg : (fun x : Timer => !decide (x.due ≤ s.world.now)) =
        fun x => decide (s.world.now < x.due) := by
      funext x
      rw [← decide_not, decide_eq_decide]
      exact Nat.not_le
    rw [hneg] at h
    obtain ⟨-, -, -, hrest, -⟩ :=
      Timers.fireDue_spec s.world.now s.world.services.timers s.world.signals
    exact h.trans ((hrest.map Timer.token).symm.append_left _)
  refine .settles _ ?_ (World.fireDue_signals s.world) ?_ ?_ rfl
  · rw [List.perm_iff_count] at hperm ⊢
    intro a
    have ha := hperm a
    simp only [held, bound, World.fireDue, List.count_append] at ha ⊢
    omega
  · intro t ht
    obtain ⟨x, hx, rfl⟩ := List.mem_map.mp ht
    obtain ⟨hmem, hdue⟩ := List.mem_filter.mp hx
    exact .delay hmem rfl (by simpa using hdue)
  · intro a ha
    simp only [bound, List.mem_append] at ha ⊢
    rcases ha with ha | ha
    · exact (List.mem_append.mp (hperm.mem_iff.mp ha)).imp_right .inl
    · exact .inr (.inr ha)

theorem trades_settle (s : Interpreter) : (⟨[], s⟩ : Moment).Trades ⟨[], s.settleWatchers⟩ := by
  rw [Interpreter.settleWatchers_eq]
  have hperm := map_filter_perm Watcher.token (Interpreter.isSettled s.threads) s.watchers
  refine .settles _ ?_ rfl ?_ ?_ rfl
  · rw [List.perm_iff_count] at hperm ⊢
    intro a
    have ha := hperm a
    simp only [held, bound, List.count_append] at ha ⊢
    omega
  · intro t ht
    obtain ⟨w, hw, rfl⟩ := List.mem_map.mp ht
    obtain ⟨hmem, hset⟩ := List.mem_filter.mp hw
    exact .watcher hmem rfl hset
  · intro a ha
    simp only [bound, List.mem_append] at ha ⊢
    rcases ha with ha | ha | ha
    · exact .inr (.inl ha)
    · rcases List.mem_append.mp (hperm.mem_iff.mp ha) with ha | ha
      · exact .inl ha
      · exact .inr (.inr (.inl ha))
    · exact .inr (.inr (.inr ha))

/-- Stopping everything drops the tokens of the outbox and of the watchers. -/
theorem trades_stopAll (e : Effect) (he : e.token? = none) (q : List Effect) (s : Interpreter) :
    (⟨e :: q, s⟩ : Moment).Trades ⟨q, s.stopAll⟩ ∧ (⟨q, s⟩ : Moment).Trades ⟨q, s.stopAll⟩ := by
  have hq : Outbox.tokens (e :: q) = Outbox.tokens q := List.filterMap_cons_none he
  have hsignals := Interpreter.stopAll_signals s
  have hperm : ∀ q', Outbox.tokens q' = Outbox.tokens q → (⟨q', s⟩ : Moment).held.Perm
      ((s.world.services.outbox.tokens ++ s.watchers.map Watcher.token) ++
        (⟨q, s.stopAll⟩ : Moment).held) := by
    intro q' hq'
    rw [List.perm_iff_count]
    intro a
    have ha := congrArg (List.count a) hq'
    simp only [held, bound, Interpreter.stopAll, World.clearOutbox, Outbox.tokens, List.map_nil,
      List.filterMap_nil, List.nil_append, List.append_nil, List.count_append] at ha ⊢
    omega
  exact ⟨.drops _ (hperm _ hq) hsignals rfl, .drops _ (hperm _ rfl) hsignals rfl⟩

/-- A broadcast that is carried out hands its token to a watcher, or settles its signal. -/
theorem trades_broadcast (t : Trigger) (completion : Option Token) (q : List Effect)
    (s : Interpreter) :
    (⟨.broadcast t completion :: q, s⟩ : Moment).Trades
      ⟨q, s.applyEffect (.broadcast t completion)⟩ := by
  have hworld := Interpreter.trigger_world t s
  have hwatchers := Interpreter.trigger_watchers t s
  cases completion with
  | none =>
    show (⟨.broadcast t none :: q, s⟩ : Moment).Trades ⟨q, (s.trigger t).2⟩
    exact trades_of_same (by rw [hworld]) (by rw [hworld]) (by rw [hworld]) hwatchers rfl
  | some token =>
    simp only [Interpreter.applyEffect]
    split
    · rename_i hempty
      have hthreads : (s.trigger t).2.threads = s.threads :=
        congrArg Interpreter.threads (Interpreter.trigger_of_unheard (List.isEmpty_iff.mp hempty))
      refine .settles [token] ?_ ?_ ?_ ?_ hthreads
      · rw [List.perm_iff_count]
        intro a
        simp only [held, bound, Interpreter.settle, Outbox.tokens_broadcast, hworld, hwatchers,
          List.count_append, List.count_cons, List.count_nil]
        omega
      · simp only [signals, Interpreter.settle, hworld]
        rfl
      · intro u hu
        rw [List.mem_singleton.mp hu]
        exact .unheard rfl (List.isEmpty_iff.mp hempty)
      · intro a ha
        simp only [bound, Interpreter.settle, Outbox.tokens_broadcast, hworld, hwatchers,
          List.mem_append, List.mem_cons, List.not_mem_nil, or_false] at ha ⊢
        tauto
    · refine .keeps ?_ (by simp only [signals, hworld]) ?_
      · rw [List.perm_iff_count]
        intro a
        simp only [held, bound, Outbox.tokens_broadcast, hworld, hwatchers, List.map_append,
          List.map_cons, List.map_nil, List.count_append, List.count_cons, List.count_nil]
        omega
      · intro a ha
        simp only [bound, Outbox.tokens_broadcast, hworld, hwatchers, List.map_append,
          List.map_cons, List.map_nil, List.mem_append, List.mem_cons, List.not_mem_nil,
          or_false] at ha ⊢
        tauto

/-- Work on the world trades as the world says, whether its effects are taken up at once or left in
the outbox. -/
theorem trades_world (s s' : Interpreter) (hw : s'.watchers = s.watchers)
    (h : s.world.Quiet s'.world ∨ ∃ t, s.world.Issues s'.world t) :
    (⟨[], s⟩ : Moment).Trades ⟨[], s'⟩ ∧ (⟨[], s⟩ : Moment).Trades (.taking s') := by
  rcases h with h | ⟨t, h⟩
  · have hkeep : (⟨[], s⟩ : Moment).Trades ⟨[], s'⟩ :=
      trades_of_same h.outcomes h.delays h.posted hw rfl
    refine ⟨hkeep, .keeps ?_ h.outcomes ?_⟩
    · rw [List.perm_iff_count]
      intro a
      have hp := congrArg (List.count a) h.posted
      simp only [held, bound, taking, Outbox.tokens, h.delays, hw, List.filterMap_nil,
        List.append_nil, List.count_append] at hp ⊢
      omega
    · intro a ha
      simp only [bound, taking, Outbox.tokens, h.delays, hw, List.filterMap_nil, List.append_nil,
        List.mem_append] at ha ⊢
      tauto
  · have hcount : ∀ a, List.count a s'.world.services.timers.tokens +
        List.count a s'.world.services.outbox.tokens =
          List.count a s.world.services.timers.tokens +
            List.count a s.world.services.outbox.tokens + List.count a [t] := by
      intro a
      rcases h.held with ⟨hd, hp⟩ | ⟨hd, hp⟩ <;>
        rw [hd, hp, List.count_append] <;> omega
    have hsub : ∀ a ∈ s.world.services.timers.tokens, a ∈ s'.world.services.timers.tokens := by
      intro a ha
      rcases h.held with ⟨hd, -⟩ | ⟨hd, -⟩ <;> rw [hd]
      · exact List.mem_append_left _ ha
      · exact ha
    refine ⟨.issues t ?_ h.fresh h.outcomes ?_, .issues t ?_ h.fresh h.outcomes ?_⟩
    · rw [List.perm_iff_count]
      intro a
      have ha := hcount a
      simp only [held, bound, Outbox.tokens, hw, List.filterMap_nil, List.append_nil,
        List.count_append, List.count_cons, List.count_nil] at ha ⊢
      omega
    · intro a ha
      simp only [bound, hw, List.mem_append] at ha ⊢
      exact ha.imp_left (hsub a)
    · rw [List.perm_iff_count]
      intro a
      have ha := hcount a
      simp only [held, bound, taking, Outbox.tokens, hw, List.filterMap_nil, List.append_nil,
        List.count_append, List.count_cons, List.count_nil] at ha ⊢
      omega
    · intro a ha
      simp only [bound, taking, hw, Outbox.tokens, List.filterMap_nil, List.append_nil,
        List.mem_append] at ha ⊢
      exact ha.imp (hsub a) .inl

/-- An edge check begins at most one signal. -/
theorem checkEdge_world {s s' : Interpreter} {fuel target : Nat} {script : Script}
    {r : Except ExecError Bool} (hscript : script.Over ds) (hscene : s.world.scene.Over ds)
    (h : s.checkEdge fuel target script = some (r, s')) :
    s' = { s with world := s'.world } ∧
      (s.world.Quiet s'.world ∨ ∃ t, s.world.Issues s'.world t) := by
  obtain ⟨⟨reply, cx⟩, heval, heq⟩ := Option.map_eq_some_iff.mp h
  have hs' : s' = { s with world := cx.world } := by
    cases reply <;> cases heq <;> rfl
  refine ⟨by rw [hs'], ?_⟩
  obtain ⟨⟨result, m⟩, hdrive, hcx⟩ := Option.map_eq_some_iff.mp heval
  have hworld : s'.world = m.cx.world := by
    rw [hs']
    rcases result with e | slice
    · cases hcx; rfl
    · cases slice <;> cases hcx <;> rfl
  rw [hworld]
  -- the check runs above a fence
  have htop : script.top.Over ds := hscript _ (List.mem_cons_self ..)
  obtain ⟨r, hstart, hr⟩ := htop.start
  simp only [Machine.evaluateAtOnce, Machine.evaluate, hstart, Machine.driveFrom] at hdrive
  have hm : Machine.Over ds True
      ⟨⟨[r, .fence script.top.opcode], none⟩, { world := s.world, target }⟩ := by
    refine ⟨fun x hx => ?_, hscene⟩
    rcases List.mem_cons.mp hx with rfl | hx
    · exact .inl hr
    · exact .inr ⟨trivial, _, List.mem_singleton.mp hx⟩
  obtain ⟨-, ⟨hq, -⟩ | ⟨t, ht, -⟩⟩ := Machine.drive_ended hm hdrive
  · exact .inl hq
  · exact .inr ⟨t, ht⟩

end Moment

/-- What each stage does with tokens. -/
theorem Stage.trades {ds : List Declaration} {m m' : Moment} (h : Stage ds m m')
    (hscene : m.state.world.scene.Over ds) (hthreads : ∀ t ∈ m.state.threads, t.Over ds) :
    m.Trades m' := by
  cases h with
  | poll ht hp => exact Moment.trades_of_same rfl rfl rfl rfl rfl
  | @slice s i fuel t t' w outcome ht hr hstep =>
    have hover := hthreads _ (List.mem_of_getElem? ht)
    refine (Moment.trades_world s { s with threads := _, world := w } rfl ?_).2
    rcases (Thread.step_stepped hover hscene hr hstep).waits with ⟨-, hq⟩ | ⟨token, -, -, hi⟩
    · exact .inl hq
    · exact .inr ⟨token, hi⟩
  | take s => exact Moment.trades_taking s
  | effect e queue s =>
    cases e with
    | broadcast t completion => exact Moment.trades_broadcast t completion queue s
    | stopAll => exact (Moment.trades_stopAll .stopAll rfl queue s).1
    | stopOthers target except => exact Moment.trades_of_same rfl rfl rfl rfl rfl
  | compact s => exact Moment.trades_of_same rfl rfl rfl rfl rfl
  | settle s => exact Moment.trades_settle s
  | fire s => exact Moment.trades_fire s
  | edge hscript hcheck =>
    obtain ⟨hs', hw⟩ := Moment.checkEdge_world hscript hscene hcheck
    exact (Moment.trades_world _ _ (by rw [hs']) hw).1
  | launch target payload restart s hscript =>
    have hw := Interpreter.launch_world
    exact Moment.trades_of_same (by rw [hw]) (by rw [hw]) (by rw [hw])
      (Interpreter.launch_watchers ..) rfl
  | trigger t s =>
    have hw := Interpreter.trigger_world t s
    exact Moment.trades_of_same (by rw [hw]) (by rw [hw]) (by rw [hw])
      (Interpreter.trigger_watchers t s) rfl
  | stopAll s => exact (Moment.trades_stopAll .stopAll rfl [] s).2
  | retire id s => exact Moment.trades_of_same rfl rfl rfl rfl rfl
  | restart id payload s => exact Moment.trades_of_same rfl rfl rfl rfl rfl
  | adjust edges settings clock origin redraw s => exact Moment.trades_of_same rfl rfl rfl rfl rfl

end Blockwork
