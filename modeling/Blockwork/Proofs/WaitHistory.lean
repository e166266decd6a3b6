import Blockwork.Proofs.SignalUse
import Blockwork.Proofs.Tokens

/-!
What happens to the waits of a thread.

A slice ends in a wait, and the frames it leaves are suspended on an awaitable; a poll finds the value
of the awaitable, and hands it to the frames.  `Orderly` says in which order such events come, and
`Thread.step_steps` and `Thread.poll_cases` say which of them a step and a poll can bring about.
-/

namespace Blockwork

/-! ### Histories of waits -/

/-- Something that happens to the waits of a thread. -/
inductive WaitEvent where
  /-- A slice has ended in a wait: the top one of the frames is suspended on the awaitable. -/
  | asked (generation : Nat) (frames : List Routine) (awaitable : Awaitable)
  /-- The value of the awaitable has been handed to the frames. -/
  | handed (generation : Nat) (frames : List Routine) (awaitable : Awaitable) (value : Value)
  /-- A value has been handed to the frames from outside. -/
  | told (value : Value)
  /-- A slice has ended in another way. -/
  | ran
  | restarted
  | retired

namespace WaitEvent

/-- The awaitable that the event is about. -/
def awaitable? : WaitEvent → Option Awaitable
  | .asked _ _ a | .handed _ _ a _ => some a
  | _ => none

/-- The signal that is asked for. -/
def asked? : WaitEvent → Option Token
  | .asked _ _ (.waiting token) => some token
  | _ => none

/-- The signal whose value is handed over. -/
def delivered? : WaitEvent → Option Token
  | .handed _ _ (.waiting token) _ => some token
  | _ => none

/-- The value that is handed over. -/
def value? : WaitEvent → Option Value
  | .handed _ _ _ v | .told v => some v
  | _ => none

end WaitEvent

/-- The events of a thread, the latest first, are in order: a value is handed over directly after it
has been asked for, by the same frames in the same generation, and no signal is asked for twice. -/
inductive Orderly : List WaitEvent → Prop
  | nil : Orderly []
  | asked {events : List WaitEvent} (generation : Nat) (frames : List Routine) {a : Awaitable} :
      Orderly events → (∀ token, a = .waiting token → token ∉ events.filterMap WaitEvent.asked?) →
      Orderly (.asked generation frames a :: events)
  | handed {events : List WaitEvent} {generation : Nat} {frames : List Routine} {a : Awaitable}
      (v : Value) :
      Orderly (.asked generation frames a :: events) →
      Orderly (.handed generation frames a v :: .asked generation frames a :: events)
  | other {events : List WaitEvent} {e : WaitEvent} :
      e.awaitable? = none → Orderly events → Orderly (e :: events)

namespace Orderly

theorem of_asked {events : List WaitEvent} {generation : Nat} {frames : List Routine}
    {a : Awaitable} (h : Orderly (.asked generation frames a :: events)) :
    Orderly events ∧ ∀ token, a = .waiting token → token ∉ events.filterMap WaitEvent.asked? := by
  cases h with
  | asked _ _ hevents hfresh => exact ⟨hevents, hfresh⟩
  | other he _ => cases he

/-- A signal that has delivered a value has been asked for. -/
theorem asked_of_delivered {events : List WaitEvent} (h : Orderly events) {token : Token}
    (ht : token ∈ events.filterMap WaitEvent.delivered?) :
    token ∈ events.filterMap WaitEvent.asked? := by
  rw [List.mem_filterMap] at ht ⊢
  induction h with
  | nil =>
    obtain ⟨e, he, -⟩ := ht
    exact absurd he List.not_mem_nil
  | asked generation frames _ _ ih =>
    obtain ⟨e, he, hd⟩ := ht
    rcases List.mem_cons.mp he with rfl | he
    · cases hd
    · obtain ⟨e', he', ha⟩ := ih ⟨e, he, hd⟩
      exact ⟨e', List.mem_cons_of_mem _ he', ha⟩
  | @handed events generation frames a v _ ih =>
    obtain ⟨e, he, hd⟩ := ht
    rcases List.mem_cons.mp he with rfl | he
    · refine ⟨.asked generation frames a, List.mem_cons_of_mem _ (List.mem_cons_self ..), ?_⟩
      cases a with
      | ready o => cases hd
      | waiting u => exact hd
    · obtain ⟨e', he', ha⟩ := ih ⟨e, he, hd⟩
      exact ⟨e', List.mem_cons_of_mem _ he', ha⟩
  | other ho _ ih =>
    obtain ⟨e, he, hd⟩ := ht
    rcases List.mem_cons.mp he with rfl | he
    · cases e <;> first | cases hd | cases ho
    · obtain ⟨e', he', ha⟩ := ih ⟨e, he, hd⟩
      exact ⟨e', List.mem_cons_of_mem _ he', ha⟩

/-- No signal delivers more than one value. -/
theorem delivered_nodup {events : List WaitEvent} (h : Orderly events) :
    (events.filterMap WaitEvent.delivered?).Nodup := by
  induction h with
  | nil => exact List.nodup_nil
  | asked generation frames _ _ ih =>
    rw [List.filterMap_cons_none rfl]
    exact ih
  | @handed events generation frames a v h ih =>
    obtain ⟨hevents, hfresh⟩ := h.of_asked
    cases a with
    | ready o =>
      rw [List.filterMap_cons_none rfl]
      exact ih
    | waiting token =>
      have hd : (WaitEvent.handed generation frames (.waiting token) v).delivered? = some token := rfl
      rw [List.filterMap_cons_some hd]
      refine List.nodup_cons.mpr ⟨fun hmem => ?_, ih⟩
      rw [List.filterMap_cons_none rfl] at hmem
      exact hfresh token rfl (hevents.asked_of_delivered hmem)
  | @other events e ho _ ih =>
    have hd : e.delivered? = none := by
      cases e <;> first | rfl | cases ho
    rw [List.filterMap_cons_none hd]
    exact ih

/-- Events that are about no awaitable change nothing. -/
theorem append {events more : List WaitEvent} (he : ∀ e ∈ events, e.awaitable? = none)
    (h : Orderly more) : Orderly (events ++ more) := by
  induction events with
  | nil => exact h
  | cons e events ih =>
    obtain ⟨he, hevents⟩ := List.forall_mem_cons.mp he
    exact .other he (ih hevents)

end Orderly

/-! ### Signals -/

namespace Beginning

theorem size_le_apply (b : Beginning) (s : Signals) :
    s.outcomes.size ≤ (b.apply s).outcomes.size := by
  cases b with
  | nothing => exact Nat.le_refl _
  | signal | hosted =>
    simp only [apply, Signals.fresh, Signals.freshHosted, Array.size_push]
    exact Nat.le_succ _

theorem outcomes_apply {b : Beginning} (h : b ≠ .nothing) (s : Signals) :
    (b.apply s).outcomes = s.outcomes.push .pending := by
  cases b with
  | nothing => exact absurd rfl h
  | signal | hosted => rfl

theorem outcome_apply_of_lt (b : Beginning) {s : Signals} {token : Token}
    (h : token < s.outcomes.size) : (b.apply s).outcome token = s.outcome token := by
  by_cases hb : b = .nothing
  · rw [hb]
    rfl
  · rw [Signals.outcome, outcomes_apply hb, Array.getElem?_push, if_neg (Nat.ne_of_lt h)]
    rfl

/-- A signal that has just been begun has no outcome. -/
theorem outcome_apply_next {b : Beginning} (h : b ≠ .nothing) (s : Signals) :
    (b.apply s).outcome s.outcomes.size = .pending := by
  rw [Signals.outcome, outcomes_apply h, Array.getElem?_push_size]
  rfl

end Beginning

/-- Signals are added, and what is settled stays settled. -/
structure Signals.Grows (s s' : Signals) : Prop where
  size : s.outcomes.size ≤ s'.outcomes.size
  settled : ∀ token v, s.outcome token = .settled v → s'.outcome token = .settled v

theorem Signals.Grows.refl (s : Signals) : s.Grows s := ⟨Nat.le_refl _, fun _ _ hv => hv⟩

theorem Signals.grows_conclude (token : Token) (o : Outcome) (s : Signals) :
    s.Grows (s.conclude token o) := by
  refine ⟨?_, fun u v hv => ?_⟩
  · rw [conclude]
    split
    · exact Nat.le_of_eq Array.size_setIfInBounds.symm
    · exact Nat.le_refl _
  · rw [outcome_conclude_of_ne_pending, hv]
    rw [hv]
    exact Outcome.noConfusion

theorem Beginning.grows_apply (b : Beginning) (s : Signals) : s.Grows (b.apply s) := by
  refine ⟨b.size_le_apply s, fun token v hv => ?_⟩
  rw [b.outcome_apply_of_lt, hv]
  refine Signals.lt_size_of_outcome_ne ?_
  rw [hv]
  exact Outcome.noConfusion

/-! ### Threads -/

namespace Awaitable

/-- The awaitable has the value. -/
def Gives (s : Signals) (v : Value) : Awaitable → Prop
  | .ready o => o = some v
  | .waiting token => s.outcome token = .settled v

theorem Gives.grows {a : Awaitable} {s s' : Signals} {v : Value} (h : a.Gives s v)
    (hs : s.Grows s') : a.Gives s' v := by
  cases a with
  | ready o => exact h
  | waiting token => exact hs.settled token v h

theorem poll_of_gives {a : Awaitable} {s : Signals} {v : Value} (h : a.Gives s v) :
    a.poll s = (.settled v, .ready none) := by
  cases a with
  | ready o =>
    cases h
    rfl
  | waiting token =>
    have hout : s.outcome token = .settled v := h
    simp only [poll, hout]

end Awaitable

/-- The frames at the end of a slice have been handed nothing yet. -/
theorem Machine.resumed_of_drive {fuel : Nat} {m m' : Machine} {slice : Slice}
    (h : drive fuel m = some (.ok slice, m')) : m'.stack.resumed = none := by
  obtain ⟨last, -, hhalt⟩ :=
    drive_induction (I := fun _ => True) (fun _ _ _ _ => trivial) trivial h
  rcases halt_cases hhalt with ⟨v, -, hstack⟩ | ⟨_, _, _, _, -, -, hstack, -⟩
  · rw [hstack]
  · rw [hstack]

namespace Thread

/-- The thread suspended on an awaitable, at the end of a slice. -/
def parkedOn (a : Awaitable) (m : Machine) (t : Thread) : Thread :=
  { t with stack := m.stack, calls := m.cx.calls, status := .parked,
           pending := some ⟨t.generation, a⟩ }

/-- What a poll hands over. -/
def handing (s : Signals) (t : Thread) : List WaitEvent :=
  match t.pending, t.poll s with
  | some p, (true, t') =>
    [.handed t.generation t.stack.frames p.awaitable (t'.stack.resumed.getD .null)]
  | _, _ => []

/-- What happens at the end of a slice.  A thread that waits is polled at once. -/
def sliceEvents (t : Thread) : Except ExecError Slice × Machine → List WaitEvent
  | (.ok (.awaiting a), m) =>
    (t.parkedOn a m).handing m.cx.world.signals ++ [.asked t.generation m.stack.frames a]
  | _ => [.ran]

/-- What happens in a step. -/
def stepEvents (fuel : Nat) (w : World) (t : Thread) : List WaitEvent :=
  if t.status = .running ∧ (w.scene.target? t.target).isNone = false then
    (Machine.drive fuel (t.machine w)).elim [] t.sliceEvents
  else []

/-- The thread waits in its own generation, if at all, and is parked then. -/
def Waits (t : Thread) : Prop :=
  ∀ p, t.pending = some p → t.status = .parked ∧ p.generation = t.generation

theorem poll_of_gives {t : Thread} (ht : t.Waits) {s : Signals} {p : Pending} {v : Value}
    (hp : t.pending = some p) (h : p.awaitable.Gives s v) :
    t.poll s = (true, { t with
      status := .running, pending := none, stack := { t.stack with resumed := some v } }) := by
  obtain ⟨hparked, hgeneration⟩ := ht p hp
  simp only [poll, hp, Awaitable.poll_of_gives h, resolve, hparked, hgeneration, ne_eq,
    not_true_eq_false, or_self, if_false]

theorem poll_of_not_gives {t : Thread} {s : Signals} {p : Pending} (hp : t.pending = some p)
    (h : ∀ v, ¬ p.awaitable.Gives s v) : t.poll s = (false, t) := by
  obtain ⟨generation, a⟩ := p
  cases a with
  | waiting token => exact poll_of_pending hp h
  | ready o =>
    cases o with
    | some v => exact absurd rfl (h v)
    | none =>
      cases t
      simp only at hp
      subst hp
      rfl

theorem waits_parkedOn (a : Awaitable) (m : Machine) (t : Thread) : (t.parkedOn a m).Waits := by
  rintro p ⟨⟩
  exact ⟨rfl, rfl⟩

/-- A thread that is suspended on an awaitable is polled at once. -/
theorem absorb_parkedOn (a : Awaitable) (m : Machine) (t : Thread) :
    t.absorb (.ok (.awaiting a)) m = ((t.parkedOn a m).poll m.cx.world.signals).2 := rfl

/-- A poll finds nothing, or hands the value of the awaitable to the frames. -/
theorem poll_cases {t : Thread} (ht : t.Waits) (s : Signals) :
    (t.poll s = (false, t) ∧ t.handing s = []) ∨
    ∃ p v, t.pending = some p ∧ p.awaitable.Gives s v ∧
      t.poll s = (true, { t with
        status := .running, pending := none, stack := { t.stack with resumed := some v } }) ∧
      t.handing s = [.handed t.generation t.stack.frames p.awaitable v] := by
  cases hp : t.pending with
  | none =>
    refine .inl ⟨?_, ?_⟩
    · rw [poll, hp]
    · simp only [handing, hp]
  | some p =>
    by_cases hgives : ∃ v, p.awaitable.Gives s v
    · obtain ⟨v, hv⟩ := hgives
      have hpoll := poll_of_gives ht hp hv
      refine .inr ⟨p, v, rfl, hv, hpoll, ?_⟩
      simp only [handing, hp, hpoll, Option.getD_some]
    · have hpoll := poll_of_not_gives hp fun v hv => hgives ⟨v, hv⟩
      refine .inl ⟨hpoll, ?_⟩
      simp only [handing, hp, hpoll]

/-- A poll looks only at the signal that the thread waits for. -/
theorem poll_congr {t : Thread} {s s' : Signals}
    (h : ∀ generation token, t.pending = some ⟨generation, .waiting token⟩ →
      s'.outcome token = s.outcome token) : t.poll s' = t.poll s := by
  cases hp : t.pending with
  | none => rw [poll, poll, hp]
  | some p =>
    obtain ⟨generation, a⟩ := p
    cases a with
    | ready o => cases o <;> simp only [poll, hp, Awaitable.poll]
    | waiting token => simp only [poll, hp, Awaitable.poll, h generation token hp]

/-- What a step makes of the waits of a thread: it does not run; it runs, and waits for nothing; it
waits for a value that is there, which is handed over; or it is parked, on what it has begun. -/
inductive Steps (t : Thread) (s : Signals) (t' : Thread) (s' : Signals) (events : List WaitEvent) :
    Prop
  | rested : t.status ≠ .running → t' = t → s' = s → events = [] → Steps t s t' s' events
  | went (b : Beginning) : t.status = .running → t'.pending = none ∨ t'.pending = t.pending →
      t'.stack.resumed = none → s' = b.apply s → events = [] ∨ events = [.ran] →
      Steps t s t' s' events
  | handed (b : Beginning) (v : Value) : t.status = .running → t'.pending = none →
      t'.stack.resumed = some v → s' = b.apply s →
      events = [.handed t.generation t'.stack.frames (.ready (some v)) v,
        .asked t.generation t'.stack.frames (.ready (some v))] →
      Steps t s t' s' events
  | parked (b : Beginning) (a : Awaitable) : t.status = .running → t'.status = .parked →
      t'.generation = t.generation → t'.pending = some ⟨t.generation, a⟩ →
      t'.stack.resumed = none → b.Fits s.outcomes.size (some a) → s' = b.apply s →
      events = [.asked t.generation t'.stack.frames a] → Steps t s t' s' events

theorem step_steps {t t' : Thread} {fuel : Nat} {w w' : World} {outcome : Except ExecError Status}
    (h : t.step fuel w = some (outcome, t', w')) :
    t.Steps w.signals t' w'.signals (t.stepEvents fuel w) := by
  by_cases hr : t.status = .running
  · cases hknown : (w.scene.target? t.target).isNone with
    | true =>
      rw [step_of_unknown hr hknown] at h
      cases h
      refine .went .nothing hr (.inl rfl) rfl rfl (.inl ?_)
      rw [stepEvents, hknown, if_neg fun hrun => by cases hrun.2]
    | false =>
      rw [step_of_running hr hknown] at h
      obtain ⟨⟨result, m⟩, hdrive, heq⟩ := Option.map_eq_some_iff.mp h
      cases heq
      have hevents : t.stepEvents fuel w = t.sliceEvents (result, m) := by
        rw [stepEvents, if_pos ⟨hr, hknown⟩, hdrive]
        rfl
      obtain ⟨b, hfits, hsame⟩ := Machine.drive_withSignals fuel (t.machine w)
      have hsignals : m.cx.world.signals = b.apply w.signals :=
        Machine.signals_of_drive hsame hdrive
      rw [hevents]
      have hfinish : ∀ v, t.sliceEvents (result, m) = [.ran] →
          t.Steps w.signals (({ t with stack := m.stack, calls := m.cx.calls } : Thread).finish v)
            m.cx.world.signals (t.sliceEvents (result, m)) :=
        fun v hran => .went b hr (.inl rfl) rfl hsignals (.inr hran)
      rcases result with e | slice
      · exact hfinish none rfl
      · have hresumed := Machine.resumed_of_drive hdrive
        cases slice with
        | finished v => exact hfinish (some v) rfl
        | exited => exact hfinish none rfl
        | yielded => exact .went b hr (.inr rfl) hresumed hsignals (.inr rfl)
        | awaiting a =>
          rw [absorb_parkedOn, sliceEvents]
          rcases poll_cases (waits_parkedOn a m t) m.cx.world.signals with ⟨hpoll, hhands⟩ |
            ⟨p, v, hp, hgives, hpoll, hhands⟩
          · rw [hpoll, hhands]
            exact .parked b a hr rfl rfl rfl hresumed (hfits a m hdrive) hsignals rfl
          · rw [hpoll, hhands]
            cases hp
            cases a with
            | ready o =>
              cases hgives
              exact .handed b v hr rfl rfl hsignals rfl
            | waiting token =>
              -- the signal has just been begun
              obtain ⟨rfl, hb⟩ := hfits _ m hdrive
              have hpending := Beginning.outcome_apply_next hb w.signals
              have hsettled : m.cx.world.signals.outcome w.signals.outcomes.size = .settled v := hgives
              rw [hsignals, hpending] at hsettled
              cases hsettled
  · rw [step_of_resting hr] at h
    cases h
    refine .rested hr rfl rfl ?_
    rw [stepEvents, if_neg fun hrun => hr hrun.1]

theorem step_grows {t t' : Thread} {fuel : Nat} {w w' : World} {outcome : Except ExecError Status}
    (h : t.step fuel w = some (outcome, t', w')) : w.signals.Grows w'.signals := by
  cases step_steps h with
  | rested _ _ hsignals _ => rw [hsignals]; exact .refl _
  | went b _ _ _ hsignals _ => rw [hsignals]; exact b.grows_apply _
  | handed b v _ _ _ hsignals _ => rw [hsignals]; exact b.grows_apply _
  | parked b a _ _ _ _ _ _ hsignals _ => rw [hsignals]; exact b.grows_apply _

/-- The end of a slice looks only at the signal that the slice waits for. -/
theorem absorb_withSignals {t : Thread} {result : Except ExecError Slice} {m : Machine} {s : Signals}
    (h : ∀ token, result = .ok (.awaiting (.waiting token)) →
      s.outcome token = m.cx.world.signals.outcome token) :
    t.absorb result (m.withSignals s) = t.absorb result m ∧
      t.sliceEvents (result, m.withSignals s) = t.sliceEvents (result, m) := by
  rcases result with e | slice
  · exact ⟨rfl, rfl⟩
  · cases slice with
    | finished | exited | yielded => exact ⟨rfl, rfl⟩
    | awaiting a =>
      have hpoll : (t.parkedOn a m).poll s = (t.parkedOn a m).poll m.cx.world.signals := by
        refine poll_congr fun generation token hp => h token ?_
        cases hp
        rfl
      have hhands : (t.parkedOn a m).handing s = (t.parkedOn a m).handing m.cx.world.signals := by
        rw [handing, handing, hpoll]
      exact ⟨congrArg Prod.snd hpoll, congrArg (· ++ _) hhands⟩

/-- On other signals, as many of them, a step does the same and begins the same. -/
theorem step_withSignals (fuel : Nat) (w : World) (t : Thread) :
    ∃ b : Beginning, ∀ s : Signals, s.outcomes.size = w.signals.outcomes.size →
      t.step fuel (w.withSignals s) =
        (t.step fuel w).map (fun x => (x.1, x.2.1, x.2.2.withSignals (b.apply s))) ∧
      t.stepEvents fuel (w.withSignals s) = t.stepEvents fuel w := by
  have hscene : ∀ s, (w.withSignals s).scene = w.scene := fun _ => rfl
  by_cases hr : t.status = .running
  · cases hknown : (w.scene.target? t.target).isNone with
    | true =>
      refine ⟨.nothing, fun s _ => ⟨?_, ?_⟩⟩
      · have hknown' : ((w.withSignals s).scene.target? t.target).isNone = true := hknown
        rw [step_of_unknown hr hknown, step_of_unknown hr hknown']
        rfl
      · simp only [stepEvents, hscene, hknown, Bool.true_eq_false, and_false, if_false]
    | false =>
      obtain ⟨b, hfits, hsame⟩ := Machine.drive_withSignals fuel (t.machine w)
      refine ⟨b, fun s hs => ?_⟩
      have hknown' : ((w.withSignals s).scene.target? t.target).isNone = false := hknown
      have hmachine : t.machine (w.withSignals s) = (t.machine w).withSignals s := rfl
      rw [step_of_running hr hknown, step_of_running hr hknown', stepEvents, stepEvents,
        if_pos ⟨hr, hknown⟩, if_pos ⟨hr, hknown'⟩, hmachine, hsame s hs]
      cases hdrive : Machine.drive fuel (t.machine w) with
      | none => exact ⟨rfl, rfl⟩
      | some x =>
        obtain ⟨result, m⟩ := x
        -- what the slice waits for has just been begun, on either signals
        have hsettled : ∀ token, result = .ok (.awaiting (.waiting token)) →
            (b.apply s).outcome token = m.cx.world.signals.outcome token := by
          rintro token rfl
          obtain ⟨rfl, hb⟩ := hfits _ m hdrive
          have hpending := Beginning.outcome_apply_next hb s
          rw [hs] at hpending
          rw [Machine.signals_of_drive hsame hdrive]
          exact hpending.trans (Beginning.outcome_apply_next hb w.signals).symm
        obtain ⟨habsorb, hevents⟩ := absorb_withSignals (t := t) hsettled
        refine ⟨?_, hevents⟩
        simp only [Option.map_some, habsorb]
        rfl
  · refine ⟨.nothing, fun s _ => ⟨?_, ?_⟩⟩
    · rw [step_of_resting hr, step_of_resting hr]
      rfl
    · simp only [stepEvents, hr, false_and, if_false]

end Thread

end Blockwork
