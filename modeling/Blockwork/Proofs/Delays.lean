import Blockwork.Engine.Bench
import Blockwork.Proofs.Tokens

/-!
Delays over a whole history.

At a bench, delays are begun, fired and cleared, waits are looked at or given up, and the clock moves on
or back.  The delays under way have tokens of their own, whose signals are all pending
(`Bench.Balanced`), so that each delay is settled when it is fired, and by nothing else.  The wait for
a delay goes through three stages.  It hangs on a delay under way, until the delay is fired or cleared
(`Bench.Outstanding`); then its signal has an outcome, which stays (`Bench.Concluded`); and a settled
one becomes an empty wait with the first look at it.
-/

namespace Blockwork

namespace Bench

/-- What is done at a bench. -/
inductive Move where
  | delay (length : Nanos)
  | advance (span : Nanos)
  | set (reading : Nanos)
  | fire
  | clear
  | reset
  | poll (i : Nat)
  | drop (i : Nat)
  deriving DecidableEq

/-- Does a move.  To look at a wait that is not there, or to give it up, does nothing. -/
def perform (b : Bench) : Move → Bench
  | .delay length => (b.delay length).2
  | .advance span => b.advance span
  | .set reading => b.setClock reading
  | .fire => b.fire.2
  | .clear => b.clear
  | .reset => b.reset
  | .poll i => ((b.poll? i).map Prod.snd).getD b
  | .drop i => (b.dropWait? i).getD b

def performAll (moves : List Move) (b : Bench) : Bench := moves.foldl perform b

/-- The moves, each with the reading of the clock at which it is made. -/
def timed : List Move → Bench → List (Nanos × Move)
  | [], _ => []
  | m :: moves, b => (b.clock.now, m) :: timed moves (b.perform m)

/-- Whether a move at a reading ends a delay that is due at the given time. -/
def Move.ends (due now : Nanos) : Move → Bool
  | .fire => due ≤ now
  | .clear => true
  | _ => false

/-- What a wait waits for, if somebody still waits. -/
def awaitable? (i : Nat) (b : Bench) : Option Awaitable := do
  let w ← b.waits[i]?
  w.awaitable

/-- What a look at a wait shows. -/
def shown? (i : Nat) (b : Bench) : Option Poll := (b.poll? i).map Prod.fst

/-! ### What moves change -/

section

variable {b : Bench} {i j : Nat} {a : Awaitable}

/-- What each of the moves keeps, all of them keep. -/
theorem performAll_keeps {P : Bench → Prop} {moves : List Move}
    (hstep : ∀ m ∈ moves, ∀ b, P b → P (b.perform m)) (h : P b) : P (b.performAll moves) := by
  induction moves generalizing b with
  | nil => exact h
  | cons m moves ih =>
    rw [List.forall_mem_cons] at hstep
    exact ih hstep.2 (hstep.1 b h)

theorem exists_of_awaitable? (h : b.awaitable? i = some a) :
    ∃ w, b.waits[i]? = some w ∧ w.awaitable = some a :=
  Option.bind_eq_some_iff.mp h

/-- A look changes the wait that is looked at, and nothing else. -/
theorem poll?_eq (h : b.awaitable? i = some a) : ∃ w, b.waits[i]? = some w ∧
    b.poll? i = some ((a.poll b.signals).1,
      { b with waits := b.waits.set i { w with awaitable := some (a.poll b.signals).2 } }) := by
  obtain ⟨w, hw, ha⟩ := exists_of_awaitable? h
  refine ⟨w, hw, ?_⟩
  simp only [poll?, hw, ha, bind, Option.bind, pure]

theorem shown?_eq (h : b.awaitable? i = some a) : b.shown? i = some (a.poll b.signals).1 := by
  obtain ⟨w, -, hpoll⟩ := poll?_eq h
  rw [shown?, hpoll]
  rfl

/-- Nothing has changed but one of the waits. -/
def ChangesWait (j : Nat) (b b' : Bench) : Prop :=
  ∃ waits, b' = { b with waits } ∧ ∀ i, i ≠ j → waits[i]? = b.waits[i]?

theorem changesWait_set (j : Nat) (w : Wait) (b : Bench) :
    ChangesWait j b { b with waits := b.waits.set j w } :=
  ⟨_, rfl, fun _ hi => List.getElem?_set_ne hi.symm⟩

theorem changesWait_poll (j : Nat) (b : Bench) : ChangesWait j b (b.perform (.poll j)) := by
  cases h : b.awaitable? j with
  | none =>
    have hpoll : b.poll? j = none := by
      rw [awaitable?] at h
      rw [poll?]
      cases hw : b.waits[j]? with
      | none => rfl
      | some w =>
        rw [hw] at h
        simp only [bind, Option.bind] at h ⊢
        rw [h]
    rw [perform, hpoll]
    exact ⟨_, rfl, fun _ _ => rfl⟩
  | some a =>
    obtain ⟨w, -, hpoll⟩ := poll?_eq h
    rw [perform, hpoll]
    exact changesWait_set ..

theorem changesWait_drop (j : Nat) (b : Bench) : ChangesWait j b (b.perform (.drop j)) := by
  rw [perform, dropWait?]
  cases b.waits[j]? with
  | none => exact ⟨_, rfl, fun _ _ => rfl⟩
  | some w => exact changesWait_set ..

theorem ChangesWait.awaitable?_eq {b' : Bench} (h : ChangesWait j b b') (hi : i ≠ j) :
    b'.awaitable? i = b.awaitable? i := by
  obtain ⟨waits, rfl, hwaits⟩ := h
  rw [awaitable?, awaitable?, hwaits i hi]

/-- A wait that is neither looked at nor given up stays as it is. -/
theorem awaitable?_perform {m : Move} (h : b.awaitable? i = some a) (hpoll : m ≠ .poll i)
    (hdrop : m ≠ .drop i) : (b.perform m).awaitable? i = some a := by
  cases m with
  | delay length =>
    obtain ⟨w, hw, ha⟩ := exists_of_awaitable? h
    have happend : (b.perform (.delay length)).waits[i]? = b.waits[i]? :=
      List.getElem?_append_left (List.getElem?_eq_some_iff.mp hw).1
    rw [awaitable?, happend]
    exact h
  | poll j =>
    have hij : i ≠ j := fun heq => hpoll (congrArg Move.poll heq.symm)
    rw [(changesWait_poll j b).awaitable?_eq hij, h]
  | drop j =>
    have hij : i ≠ j := fun heq => hdrop (congrArg Move.drop heq.symm)
    rw [(changesWait_drop j b).awaitable?_eq hij, h]
  | advance | set | fire | clear | reset => exact h

theorem awaitable?_poll (h : b.awaitable? i = some a) :
    (b.perform (.poll i)).awaitable? i = some (a.poll b.signals).2 := by
  obtain ⟨w, hw, hpoll⟩ := poll?_eq h
  have hi : i < b.waits.length := (List.getElem?_eq_some_iff.mp hw).1
  rw [perform, hpoll, awaitable?]
  simp only [Option.map_some, Option.getD_some, List.getElem?_set_self hi]
  rfl

end

/-- What a move does to the delays under way and to the signals.  To end delays is to conclude their
signals, and a new delay gets a new one. -/
inductive Deals (b : Bench) : Move → Bench → Prop
  | delay {b' : Bench} (length : Nanos) :
      b'.timers.pending = b.timers.pending ++ [⟨b.clock.now + length, b.signals.outcomes.size⟩] →
      b'.signals.outcomes = b.signals.outcomes.push .pending → Deals b (.delay length) b'
  | fire {b' : Bench} :
      b'.timers.pending.Perm (b.timers.pending.filter (b.clock.now < ·.due)) →
      b'.signals = b.signals.concludeAll
        ((b.timers.pending.filter (·.due ≤ b.clock.now)).map Timer.token) (.settled .null) →
      Deals b .fire b'
  | clear {b' : Bench} :
      b'.timers.pending = [] →
      b'.signals = b.signals.concludeAll b.timers.tokens .abandoned → Deals b .clear b'
  | rest {m : Move} {b' : Bench} :
      b'.timers.pending = b.timers.pending → b'.signals = b.signals → (∀ length, m ≠ .delay length) →
      m ≠ .fire → m ≠ .clear → Deals b m b'

theorem deals_perform (b : Bench) (m : Move) : b.Deals m (b.perform m) := by
  cases m with
  | delay length => exact .delay length rfl rfl
  | fire =>
    obtain ⟨fired, -, -, hrest, -⟩ := Timers.fireDue_spec b.clock.now b.timers b.signals
    exact .fire hrest (Timers.fireDue_signals ..)
  | clear => exact .clear rfl rfl
  | poll j =>
    obtain ⟨waits, h, -⟩ := changesWait_poll j b
    refine .rest ?_ ?_ (fun _ => Move.noConfusion) Move.noConfusion Move.noConfusion <;> rw [h]
  | drop j =>
    obtain ⟨waits, h, -⟩ := changesWait_drop j b
    refine .rest ?_ ?_ (fun _ => Move.noConfusion) Move.noConfusion Move.noConfusion <;> rw [h]
  | advance | set | reset =>
    exact .rest rfl rfl (fun _ => Move.noConfusion) Move.noConfusion Move.noConfusion

/-- The delays under way have tokens of their own, and their signals are pending. -/
structure Balanced (b : Bench) : Prop where
  nodup : b.timers.tokens.Nodup
  pending : ∀ t ∈ b.timers.tokens, b.signals.outcome t = .pending

namespace Balanced

variable {b : Bench}

theorem ofClock (clock : Clock) : (Bench.ofClock clock).Balanced :=
  ⟨List.nodup_nil, fun _ h => absurd h List.not_mem_nil⟩

/-- The delays that are due and the others have no token in common. -/
theorem not_due (hb : b.Balanced) {x : Timer} (hx : x ∈ b.timers.pending) (hlate : b.clock.now < x.due) :
    x.token ∉ (b.timers.pending.filter (·.due ≤ b.clock.now)).map Timer.token := by
  intro hmem
  obtain ⟨y, hy, htoken⟩ := List.mem_map.mp hmem
  obtain ⟨hy, hdue⟩ := List.mem_filter.mp hy
  obtain rfl : y = x := List.inj_on_of_nodup_map hb.nodup hy hx htoken
  exact absurd (of_decide_eq_true hdue) (Nat.not_le.mpr hlate)

theorem deals (hb : b.Balanced) {m : Move} {b' : Bench} (h : b.Deals m b') : b'.Balanced := by
  cases h with
  | delay length htimers hsignals =>
    have htokens : b'.timers.tokens = b.timers.tokens ++ [b.signals.outcomes.size] := by
      rw [Timers.tokens, htimers, List.map_append]
      rfl
    have hnew : ∀ t ∈ b.timers.tokens, t ≠ b.signals.outcomes.size := fun t ht =>
      Nat.ne_of_lt (Signals.lt_size_of_pending (hb.pending t ht))
    refine ⟨?_, fun t ht => ?_⟩
    · rw [htokens]
      refine hb.nodup.append (List.nodup_singleton _) ?_
      exact List.disjoint_singleton.mpr fun hmem => hnew _ hmem rfl
    · rw [Moment.outcome_push hsignals]
      split
      · rfl
      · rename_i hne
        rw [htokens] at ht
        exact hb.pending t ((List.mem_append.mp ht).resolve_right fun h => hne (List.mem_singleton.mp h))
  | fire htimers hsignals =>
    have hsub : (b.timers.pending.filter (b.clock.now < ·.due)).Sublist b.timers.pending :=
      List.filter_sublist
    refine ⟨(htimers.map Timer.token).nodup_iff.mpr (hb.nodup.sublist (hsub.map _)), fun t ht => ?_⟩
    obtain ⟨x, hx, rfl⟩ := List.mem_map.mp ht
    obtain ⟨hx, hlate⟩ := List.mem_filter.mp (htimers.mem_iff.mp hx)
    rw [hsignals, Signals.outcome_concludeAll_of_notMem (hb.not_due hx (of_decide_eq_true hlate))]
    exact hb.pending _ (List.mem_map_of_mem hx)
  | clear htimers hsignals =>
    have htokens : b'.timers.tokens = [] := congrArg (List.map Timer.token) htimers
    refine ⟨htokens ▸ List.nodup_nil, fun t ht => ?_⟩
    rw [htokens] at ht
    exact absurd ht List.not_mem_nil
  | rest htimers hsignals =>
    have htokens : b'.timers.tokens = b.timers.tokens := congrArg (List.map Timer.token) htimers
    refine ⟨htokens ▸ hb.nodup, fun t ht => ?_⟩
    rw [hsignals]
    exact hb.pending t (htokens ▸ ht)

theorem performAll (hb : b.Balanced) (moves : List Move) : (b.performAll moves).Balanced :=
  performAll_keeps (fun m _ b hb => hb.deals (deals_perform b m)) hb

end Balanced

/-! ### The stages of a wait for a delay -/

section

variable {b : Bench} {i : Nat} {x : Timer} {t : Token} {o : Outcome} {m : Move}

/-- The wait hangs on a delay under way. -/
structure Outstanding (b : Bench) (i : Nat) (x : Timer) : Prop where
  awaitable : b.awaitable? i = some (.waiting x.token)
  mem : x ∈ b.timers.pending

/-- The wait hangs on a signal that has been begun, and whose outcome is this. -/
structure Concluded (b : Bench) (i : Nat) (t : Token) (o : Outcome) : Prop where
  awaitable : b.awaitable? i = some (.waiting t)
  begun : t < b.signals.outcomes.size
  outcome : b.signals.outcome t = o

/-- The value of the wait has been handed out. -/
def Emptied (b : Bench) (i : Nat) : Prop := b.awaitable? i = some (.ready none)

theorem Outstanding.outcome (hb : b.Balanced) (h : b.Outstanding i x) :
    b.signals.outcome x.token = .pending :=
  hb.pending _ (List.mem_map_of_mem h.mem)

theorem Outstanding.shown (hb : b.Balanced) (h : b.Outstanding i x) : b.shown? i = some .pending := by
  rw [shown?_eq h.awaitable, Awaitable.poll, h.outcome hb]

theorem Concluded.shown_settled {v : Value} (h : b.Concluded i t (.settled v)) :
    b.shown? i = some (.settled v) := by
  rw [shown?_eq h.awaitable, Awaitable.poll, h.outcome]

theorem Concluded.shown_abandoned (h : b.Concluded i t .abandoned) :
    b.shown? i = some .abandoned := by
  rw [shown?_eq h.awaitable, Awaitable.poll, h.outcome]

theorem Emptied.shown (h : b.Emptied i) : b.shown? i = some .abandoned := shown?_eq h

/-- Only firing at or after the time it is due, and clearing, end a delay. -/
theorem Outstanding.perform (hb : b.Balanced) (h : b.Outstanding i x)
    (hends : m.ends x.due b.clock.now = false) (hdrop : m ≠ .drop i) :
    (b.perform m).Outstanding i x := by
  refine ⟨?_, ?_⟩
  · by_cases hpoll : m = .poll i
    · rw [hpoll, awaitable?_poll h.awaitable, Awaitable.poll, h.outcome hb]
    · exact awaitable?_perform h.awaitable hpoll hdrop
  · have hdeals := deals_perform b m
    generalize b.perform m = b' at hdeals
    cases hdeals with
    | delay length htimers _ =>
      rw [htimers]
      exact List.mem_append_left _ h.mem
    | fire htimers _ =>
      refine htimers.mem_iff.mpr (List.mem_filter.mpr ⟨h.mem, ?_⟩)
      exact decide_eq_true (Nat.not_le.mp (of_decide_eq_false hends))
    | clear => cases hends
    | rest htimers => exact htimers ▸ h.mem

theorem Outstanding.performAll {moves : List Move} (hb : b.Balanced) (h : b.Outstanding i x)
    (hends : ∀ e ∈ b.timed moves, e.2.ends x.due e.1 = false) (hdrop : Move.drop i ∉ moves) :
    (b.performAll moves).Outstanding i x := by
  induction moves generalizing b with
  | nil => exact h
  | cons m moves ih =>
    rw [timed, List.forall_mem_cons] at hends
    obtain ⟨hm, hmoves⟩ := not_or.mp (mt List.mem_cons.mpr hdrop)
    exact ih (hb.deals (deals_perform b m)) (h.perform hb hends.1 (Ne.symm hm)) hends.2 hmoves

/-- Firing a delay that is due settles its signal with null. -/
theorem Outstanding.fire (hb : b.Balanced) (h : b.Outstanding i x) (hdue : x.due ≤ b.clock.now) :
    (b.perform .fire).Concluded i x.token (.settled .null) := by
  have hsignals : (b.perform .fire).signals = _ :=
    Timers.fireDue_signals b.clock.now b.timers b.signals
  have hmem : x.token ∈ (b.timers.pending.filter (·.due ≤ b.clock.now)).map Timer.token :=
    List.mem_map_of_mem (List.mem_filter.mpr ⟨h.mem, decide_eq_true hdue⟩)
  refine ⟨awaitable?_perform h.awaitable Move.noConfusion Move.noConfusion, ?_, ?_⟩ <;> rw [hsignals]
  · rw [Signals.size_concludeAll]
    exact Signals.lt_size_of_pending (h.outcome hb)
  · exact Signals.outcome_concludeAll_of_mem (h.outcome hb) hmem Outcome.noConfusion

/-- Clearing abandons it. -/
theorem Outstanding.clear (hb : b.Balanced) (h : b.Outstanding i x) :
    (b.perform .clear).Concluded i x.token .abandoned := by
  have hsignals : (b.perform .clear).signals = b.signals.concludeAll b.timers.tokens .abandoned := rfl
  refine ⟨awaitable?_perform h.awaitable Move.noConfusion Move.noConfusion, ?_, ?_⟩ <;> rw [hsignals]
  · rw [Signals.size_concludeAll]
    exact Signals.lt_size_of_pending (h.outcome hb)
  · exact Signals.outcome_concludeAll_of_mem (h.outcome hb) (List.mem_map_of_mem h.mem)
      Outcome.noConfusion

/-- An outcome stays, and so does a wait for it, until a value is handed out. -/
theorem Concluded.perform (h : b.Concluded i t o) (ho : o ≠ .pending) (hdrop : m ≠ .drop i)
    (hpoll : m = .poll i → o = .abandoned) : (b.perform m).Concluded i t o := by
  have hne : b.signals.outcome t ≠ .pending := h.outcome ▸ ho
  have hstays : t < (b.perform m).signals.outcomes.size ∧
      (b.perform m).signals.outcome t = b.signals.outcome t := by
    have hdeals := deals_perform b m
    generalize b.perform m = b' at hdeals
    cases hdeals with
    | delay length _ hsignals =>
      rw [hsignals, Array.size_push, Moment.outcome_push hsignals, if_neg (Nat.ne_of_lt h.begun)]
      exact ⟨Nat.lt_succ_of_lt h.begun, rfl⟩
    | fire _ hsignals | clear _ hsignals =>
      rw [hsignals, Signals.size_concludeAll]
      exact ⟨h.begun, Signals.outcome_concludeAll_of_ne_pending hne⟩
    | rest _ hsignals =>
      rw [hsignals]
      exact ⟨h.begun, rfl⟩
  refine ⟨?_, hstays.1, hstays.2.trans h.outcome⟩
  by_cases hm : m = .poll i
  · rw [hm, awaitable?_poll h.awaitable, Awaitable.poll, h.outcome, hpoll hm]
  · exact awaitable?_perform h.awaitable hm hdrop

theorem Concluded.performAll {moves : List Move} (h : b.Concluded i t o) (ho : o ≠ .pending)
    (hdrop : Move.drop i ∉ moves) (hpoll : Move.poll i ∈ moves → o = .abandoned) :
    (b.performAll moves).Concluded i t o := by
  refine performAll_keeps (P := (Concluded · i t o)) (fun m hm b h => ?_) h
  exact h.perform ho (fun heq => hdrop (heq ▸ hm)) fun heq => hpoll (heq ▸ hm)

theorem Emptied.performAll {moves : List Move} (h : b.Emptied i) (hdrop : Move.drop i ∉ moves) :
    (b.performAll moves).Emptied i := by
  refine performAll_keeps (P := (Emptied · i)) (fun m hm b h => ?_) h
  by_cases hpoll : m = .poll i
  · rw [hpoll, Emptied, awaitable?_poll h]
    rfl
  · exact awaitable?_perform h hpoll fun heq => hdrop (heq ▸ hm)

/-- A settled wait shows its value to the first look only. -/
theorem Concluded.shown_performAll {v : Value} {moves : List Move}
    (h : b.Concluded i t (.settled v)) (hdrop : Move.drop i ∉ moves) :
    (b.performAll moves).shown? i =
      some (if Move.poll i ∈ moves then .abandoned else .settled v) := by
  by_cases hpoll : Move.poll i ∈ moves
  · obtain ⟨before, after, rfl, hfirst⟩ := List.eq_append_cons_of_mem hpoll
    rw [List.mem_append, not_or] at hdrop
    have hbefore := h.performAll Outcome.noConfusion hdrop.1 fun hmem => absurd hmem hfirst
    have hempty : ((b.performAll before).perform (.poll i)).Emptied i := by
      rw [Emptied, awaitable?_poll hbefore.awaitable, Awaitable.poll, hbefore.outcome]
    rw [if_pos hpoll, Bench.performAll, List.foldl_append]
    exact (hempty.performAll fun hmem => hdrop.2 (List.mem_cons_of_mem _ hmem)).shown
  · rw [if_neg hpoll]
    exact (h.performAll Outcome.noConfusion hdrop fun hmem => absurd hmem hpoll).shown_settled

/-- A new delay is under way. -/
theorem outstanding_delay (length : Nanos) (b : Bench) :
    (b.perform (.delay length)).Outstanding (b.delay length).1
      ⟨b.clock.now + length, b.signals.outcomes.size⟩ := by
  refine ⟨?_, List.mem_append_right _ (List.mem_singleton_self _)⟩
  have hwait : (b.perform (.delay length)).waits[b.waits.length]? =
      some ⟨some (.waiting b.signals.outcomes.size), none⟩ := List.getElem?_concat_length
  show Option.bind (b.perform (.delay length)).waits[b.waits.length]? _ = _
  rw [hwait]
  rfl

end

/-- The benches that moves can lead to. -/
def Reached (b : Bench) : Prop := ∃ clock moves, b = (ofClock clock).performAll moves

theorem Reached.balanced {b : Bench} (h : b.Reached) : b.Balanced := by
  obtain ⟨clock, moves, rfl⟩ := h
  exact (Balanced.ofClock clock).performAll moves

end Bench

/-- Timers fire exactly when they are due, whatever has been done at the bench before.  Firing takes out
the delays that are due at the reading of the clock, settles each once with null, and counts them; the
others stay under way, and no other signal changes.  So the wait for a delay shows nothing while the
delay has neither been fired at or after the time it is due nor been cleared.  Once it has been fired, the
first look shows null, and every later one that there is nothing more to come, as does every look at one
that has been cleared. -/
theorem delays_end_when_fired_due {b : Bench} (hb : b.Reached) :
    (∃ fired : List Timer,
      fired.Perm (b.timers.pending.filter (·.due ≤ b.clock.now)) ∧
      (fired.map Timer.token).Nodup ∧ (∀ x ∈ fired, b.signals.outcome x.token = .pending) ∧
      b.fire.1 = fired.length ∧
      b.fire.2.timers.pending.Perm (b.timers.pending.filter (b.clock.now < ·.due)) ∧
      b.fire.2.signals = fired.foldl (fun s x => s.settle x.token .null) b.signals ∧
      ∀ t, b.fire.2.signals.outcome t =
        if t ∈ fired.map Timer.token then .settled .null else b.signals.outcome t) ∧
    ∀ (length : Nanos) (quiet : List Bench.Move),
      .drop (b.delay length).1 ∉ quiet →
      (∀ e ∈ (b.delay length).2.timed quiet, e.2.ends (b.clock.now + length) e.1 = false) →
      (∃ x, x.due = b.clock.now + length ∧
        ((b.delay length).2.performAll quiet).Outstanding (b.delay length).1 x) ∧
      ((b.delay length).2.performAll quiet).shown? (b.delay length).1 = some .pending ∧
      ∀ later : List Bench.Move, .drop (b.delay length).1 ∉ later →
        (b.clock.now + length ≤ ((b.delay length).2.performAll quiet).clock.now →
          ((((b.delay length).2.performAll quiet).perform .fire).performAll later).shown?
              (b.delay length).1 =
            some (if .poll (b.delay length).1 ∈ later then .abandoned else .settled .null)) ∧
        ((((b.delay length).2.performAll quiet).perform .clear).performAll later).shown?
            (b.delay length).1 = some .abandoned := by
  have hbalanced := hb.balanced
  constructor
  case left =>
    obtain ⟨fired, hfired, hcount, hrest, hsignals⟩ :=
      Timers.fireDue_spec b.clock.now b.timers b.signals
    have hnodup : (fired.map Timer.token).Nodup :=
      (hfired.map Timer.token).nodup_iff.mpr
        (hbalanced.nodup.sublist (List.filter_sublist.map Timer.token))
    have hpending : ∀ t ∈ fired.map Timer.token, b.signals.outcome t = .pending := by
      intro t ht
      obtain ⟨x, hx, rfl⟩ := List.mem_map.mp ht
      exact hbalanced.pending _
        (List.mem_map_of_mem (List.mem_of_mem_filter (hfired.mem_iff.mp hx)))
    refine ⟨fired, hfired, hnodup, fun x hx => hpending _ (List.mem_map_of_mem hx), hcount, hrest,
      hsignals, fun t => ?_⟩
    have hall : b.fire.2.signals =
        b.signals.concludeAll (fired.map Timer.token) (.settled .null) :=
      (Timers.fireDue_signals ..).trans (Signals.concludeAll_perm (hfired.symm.map _) _ _)
    rw [hall]
    split
    · rename_i ht
      exact Signals.outcome_concludeAll_of_mem (hpending t ht) ht Outcome.noConfusion
    · rename_i ht
      exact Signals.outcome_concludeAll_of_notMem ht
  case right =>
    intro length quiet hkept hquiet
    have hbegun := hbalanced.deals (Bench.deals_perform b (.delay length))
    have hsteady := hbegun.performAll quiet
    have hout := (Bench.outstanding_delay length b).performAll hbegun hquiet hkept
    refine ⟨⟨_, rfl, hout⟩, hout.shown hsteady, fun later hlater => ⟨fun hdue => ?_, ?_⟩⟩
    · exact (hout.fire hsteady hdue).shown_performAll hlater
    · have hcleared := hout.clear hsteady
      exact (hcleared.performAll Outcome.noConfusion hlater fun _ => rfl).shown_abandoned

namespace Bench

/-- Two delays are under way, due after two and three milliseconds, and one has passed. -/
def waiting : Bench := (ofClock {}).performAll [.delay 2000000, .delay 3000000, .advance 1000000]

/-- The timers are fired too early, and the clock is put back and then moved on. -/
def patience : List Move :=
  [.poll 2, .advance 500000, .fire, .drop 0, .set 0, .poll 2, .advance 2500000]

end Bench

/-- A third delay ends with the first one, when the timers are fired at last. -/
theorem delays_end_when_fired_due_patience :
    ((Bench.waiting.delay 1000000).2.performAll Bench.patience).shown? 2 = some .pending ∧
    ((Bench.waiting.delay 1000000).2.performAll Bench.patience).fire.1 = 2 ∧
    ((((Bench.waiting.delay 1000000).2.performAll Bench.patience).perform .fire).performAll
      [.poll 1]).shown? 2 = some (.settled .null) ∧
    ((((Bench.waiting.delay 1000000).2.performAll Bench.patience).perform .fire).performAll
      [.poll 1, .poll 2]).shown? 2 = some .abandoned ∧
    ((((Bench.waiting.delay 1000000).2.performAll Bench.patience).perform .clear).performAll
      [.poll 2]).shown? 2 = some .abandoned := by
  obtain ⟨-, hdelay⟩ := delays_end_when_fired_due (b := Bench.waiting) ⟨{}, _, rfl⟩
  obtain ⟨-, hshown, hends⟩ := hdelay 1000000 Bench.patience (by decide) (by decide)
  refine ⟨hshown, rfl, ?_, ?_, ?_⟩
  · exact (hends [.poll 1] (by decide)).1 (by decide)
  · exact (hends [.poll 1, .poll 2] (by decide)).1 (by decide)
  · exact (hends [.poll 2] (by decide)).2

end Blockwork
