import Blockwork.Proofs.WaitHistory

/-!
Stale settlements never reach a computation.

A thread is driven by deeds, in any order: it is stepped on whatever scene and services there are,
polled, handed values, restarted and retired, while signals are settled, abandoned and begun by others.
A course records what happens to its waits.  Every value that is handed over follows directly on the
wait for it: the same frames, in the same generation, asked for that awaitable, and since then have
neither run nor been handed anything else.  No signal is asked for twice, so none delivers twice.  And
a signal that a restart or an end leaves behind might as well never be settled: with the settlements
left out, everything that follows is the same.
-/

namespace Blockwork

/-! ### Courses -/

/-- Something that is done with a thread, or happens to the signals. -/
inductive Deed where
  /-- A step, on whatever scene and services there are. -/
  | step (fuel : Nat) (w : World)
  | poll
  | resolve (generation : Nat) (v : Value)
  | restart (payload : Option Value)
  | retire
  | settle (token : Token) (v : Value)
  | abandon (token : Token)
  /-- Some other thread begins a signal. -/
  | begins (b : Beginning)

/-- Whether a deed settles or abandons the signal. -/
def Deed.isAbout (token : Token) : Deed → Bool
  | .settle u _ | .abandon u => u = token
  | _ => false

/-- What a deed reports, and the world that a step leaves, its signals aside. -/
inductive Answer where
  | stepped (outcome : Except ExecError Status) (w : World)
  | polled (resumed : Bool)
  | resolved (taken : Bool)

/-- A thread in the course of deeds: what has happened to its waits, and what the deeds have reported,
the latest first. -/
structure Course where
  thread : Thread
  signals : Signals := {}
  events : List WaitEvent := []
  answers : List Answer := []

namespace Course

/-- Does a deed, unless the fuel of a step runs out. -/
def perform (c : Course) : Deed → Option Course
  | .step fuel w =>
    let w := w.withSignals c.signals
    (c.thread.step fuel w).map fun (outcome, thread, w') =>
      { thread
        signals := w'.signals
        events := c.thread.stepEvents fuel w ++ c.events
        answers := .stepped outcome (w'.withSignals {}) :: c.answers }
  | .poll =>
    some { c with
      thread := (c.thread.poll c.signals).2
      events := c.thread.handing c.signals ++ c.events
      answers := .polled (c.thread.poll c.signals).1 :: c.answers }
  | .resolve generation v =>
    some { c with
      thread := (c.thread.resolve generation v).2
      events := if (c.thread.resolve generation v).1 then .told v :: c.events else c.events
      answers := .resolved (c.thread.resolve generation v).1 :: c.answers }
  | .restart payload =>
    some { c with thread := c.thread.restart payload, events := .restarted :: c.events }
  | .retire => some { c with thread := c.thread.retire, events := .retired :: c.events }
  | .settle token v => some { c with signals := c.signals.settle token v }
  | .abandon token => some { c with signals := c.signals.abandon token }
  | .begins b => some { c with signals := b.apply c.signals }

/-- Does deeds one after another. -/
def performAll : List Deed → Course → Option Course
  | [], c => some c
  | d :: ds, c => (c.perform d).bind (performAll ds)

/-- The courses of a thread from its launch on. -/
inductive Reached : Course → Prop
  | launch (id : Nat) (script : Script) (target : Nat) (payload : Option Value) (signals : Signals) :
      Reached { thread := .launch id script target payload, signals }
  | perform {c c' : Course} {d : Deed} : Reached c → c.perform d = some c' → Reached c'

/-- The course is in order: its events are, and the thread and the signals are as they say. -/
structure Sound (c : Course) : Prop where
  orderly : Orderly c.events
  waits : c.thread.Waits
  asked : ∀ p, c.thread.pending = some p →
    ∃ events, c.events = .asked c.thread.generation c.thread.stack.frames p.awaitable :: events
  begun : ∀ token ∈ c.events.filterMap WaitEvent.asked?, token < c.signals.outcomes.size
  given : ∀ generation frames a v, .handed generation frames a v ∈ c.events → a.Gives c.signals v
  slot : ∀ v, c.thread.stack.resumed = some v → ∃ e events, c.events = e :: events ∧ e.value? = some v

theorem sound_launch (id : Nat) (script : Script) (target : Nat) (payload : Option Value)
    (signals : Signals) : Sound { thread := .launch id script target payload, signals } := by
  refine ⟨.nil, ?_, ?_, ?_, ?_, ?_⟩
  · rintro p ⟨⟩
  · rintro p ⟨⟩
  · intro token ht
    exact absurd ht List.not_mem_nil
  · intro generation frames a v hmem
    exact absurd hmem List.not_mem_nil
  · rintro v ⟨⟩

variable {c : Course}

/-- The course goes on: signals are added, and events that are in order with those before. -/
theorem Sound.goesOn (hc : c.Sound) {t : Thread} {s : Signals} {events : List WaitEvent}
    (hs : c.signals.Grows s) (horderly : Orderly (events ++ c.events)) (hwaits : t.Waits)
    (hasked : ∀ p, t.pending = some p →
      ∃ more, events ++ c.events = .asked t.generation t.stack.frames p.awaitable :: more)
    (hbegun : ∀ token ∈ events.filterMap WaitEvent.asked?, token < s.outcomes.size)
    (hgiven : ∀ generation frames a v, .handed generation frames a v ∈ events → a.Gives s v)
    (hslot : ∀ v, t.stack.resumed = some v →
      ∃ e more, events ++ c.events = e :: more ∧ e.value? = some v) (answers : List Answer) :
    Sound ⟨t, s, events ++ c.events, answers⟩ := by
  refine ⟨horderly, hwaits, hasked, ?_, ?_, hslot⟩
  · intro token ht
    rw [List.filterMap_append] at ht
    rcases List.mem_append.mp ht with ht | ht
    · exact hbegun token ht
    · exact Nat.lt_of_lt_of_le (hc.begun token ht) hs.size
  · intro generation frames a v hmem
    rcases List.mem_append.mp hmem with hmem | hmem
    · exact hgiven generation frames a v hmem
    · exact (hc.given generation frames a v hmem).grows hs

/-- The course goes on with a thread that waits for nothing, and events about no awaitable. -/
theorem Sound.goesOnFree (hc : c.Sound) {t : Thread} {s : Signals} {events : List WaitEvent}
    (hs : c.signals.Grows s) (he : ∀ e ∈ events, e.awaitable? = none) (hp : t.pending = none)
    (hslot : ∀ v, t.stack.resumed = some v →
      ∃ e more, events ++ c.events = e :: more ∧ e.value? = some v) (answers : List Answer) :
    Sound ⟨t, s, events ++ c.events, answers⟩ := by
  refine hc.goesOn hs (.append he hc.orderly) ?_ ?_ ?_ ?_ hslot answers
  · intro p hp'
    rw [hp] at hp'
    cases hp'
  · intro p hp'
    rw [hp] at hp'
    cases hp'
  · intro token ht
    obtain ⟨e, hmem, hasked⟩ := List.mem_filterMap.mp ht
    have hnone := he e hmem
    cases e <;> first | cases hasked | cases hnone
  · intro generation frames a v hmem
    cases he _ hmem

theorem Sound.steps (hc : c.Sound) {t : Thread} {s : Signals} {events : List WaitEvent}
    (h : c.thread.Steps c.signals t s events) (answers : List Answer) :
    Sound ⟨t, s, events ++ c.events, answers⟩ := by
  -- a thread that runs waits for nothing
  have hidle : c.thread.status = .running → c.thread.pending = none := by
    intro hr
    cases hp : c.thread.pending with
    | none => rfl
    | some p =>
      have hparked := (hc.waits p hp).1
      rw [hr] at hparked
      cases hparked
  cases h with
  | rested hr ht hs he =>
    subst ht hs he
    exact ⟨hc.orderly, hc.waits, hc.asked, hc.begun, hc.given, hc.slot⟩
  | went b hr hp hresumed hs he =>
    subst hs
    have hnone : t.pending = none := by
      rcases hp with hp | hp
      · exact hp
      · rw [hp, hidle hr]
    have hothers : ∀ e ∈ events, e.awaitable? = none := by
      rcases he with rfl | rfl
      · exact fun e he => absurd he List.not_mem_nil
      · exact List.forall_mem_singleton.mpr rfl
    refine hc.goesOnFree (b.grows_apply _) hothers hnone (fun v hv => ?_) answers
    rw [hresumed] at hv
    cases hv
  | handed b v hr hp hresumed hs he =>
    subst hs he
    refine hc.goesOn (b.grows_apply _) ?_ ?_ ?_ ?_ ?_ ?_ answers
    · exact .handed v (.asked _ _ hc.orderly fun token ha => by cases ha)
    · intro p hp'
      rw [hp] at hp'
      cases hp'
    · intro p hp'
      rw [hp] at hp'
      cases hp'
    · intro token ht
      exact absurd ht List.not_mem_nil
    · intro generation frames a u hmem
      rcases List.mem_cons.mp hmem with heq | hmem
      · cases heq
        rfl
      · cases List.mem_singleton.mp hmem
    · intro u hu
      rw [hresumed] at hu
      exact ⟨_, _, rfl, hu⟩
  | parked b a hr hstatus hgeneration hp hresumed hfits hs he =>
    subst hs he
    refine hc.goesOn (b.grows_apply _) ?_ ?_ ?_ ?_ ?_ ?_ answers
    · refine .asked _ _ hc.orderly fun token ha hmem => ?_
      subst ha
      exact Nat.ne_of_lt (hc.begun token hmem) hfits.1
    · intro p hp'
      rw [hp] at hp'
      cases hp'
      exact ⟨hstatus, hgeneration.symm⟩
    · intro p hp'
      rw [hp] at hp'
      cases hp'
      rw [hgeneration]
      exact ⟨_, rfl⟩
    · intro token ht
      cases a with
      | ready o => exact absurd ht List.not_mem_nil
      | waiting u =>
        obtain ⟨rfl, hb⟩ := hfits
        rw [List.mem_singleton.mp ht, Beginning.outcomes_apply hb, Array.size_push]
        exact Nat.lt_succ_self _
    · intro generation frames a u hmem
      cases List.mem_singleton.mp hmem
    · intro v hv
      rw [hresumed] at hv
      cases hv

/-- What happens to signals alone is no event. -/
theorem Sound.signals (hc : c.Sound) {s : Signals} (hs : c.signals.Grows s) :
    Sound { c with signals := s } := by
  refine ⟨hc.orderly, hc.waits, hc.asked, ?_, ?_, hc.slot⟩
  · exact fun token ht => Nat.lt_of_lt_of_le (hc.begun token ht) hs.size
  · exact fun generation frames a v hmem => (hc.given generation frames a v hmem).grows hs

theorem Sound.perform {c' : Course} {d : Deed} (hc : c.Sound) (h : c.perform d = some c') :
    c'.Sound := by
  have hgrows : c.signals.Grows c.signals := ⟨Nat.le_refl _, fun _ _ hv => hv⟩
  cases d with
  | step fuel w =>
    obtain ⟨⟨outcome, t, w'⟩, hstep, rfl⟩ := Option.map_eq_some_iff.mp h
    exact hc.steps (Thread.step_steps hstep) _
  | poll =>
    cases h
    rcases Thread.poll_cases hc.waits c.signals with ⟨hpoll, hhands⟩ |
      ⟨p, v, hp, hgives, hpoll, hhands⟩
    · rw [hpoll, hhands]
      exact ⟨hc.orderly, hc.waits, hc.asked, hc.begun, hc.given, hc.slot⟩
    · rw [hpoll, hhands]
      obtain ⟨more, hevents⟩ := hc.asked p hp
      refine hc.goesOn hgrows ?_ ?_ ?_ ?_ ?_ ?_ _
      · rw [List.singleton_append, hevents]
        refine .handed v ?_
        rw [← hevents]
        exact hc.orderly
      · rintro q ⟨⟩
      · rintro q ⟨⟩
      · intro token ht
        exact absurd ht List.not_mem_nil
      · intro generation frames a u hmem
        cases List.mem_singleton.mp hmem
        exact hgives
      · rintro u ⟨⟩
        exact ⟨_, _, rfl, rfl⟩
  | resolve generation v =>
    cases h
    rw [Thread.resolve]
    split
    · exact ⟨hc.orderly, hc.waits, hc.asked, hc.begun, hc.given, hc.slot⟩
    · show Sound ⟨_, _, [.told v] ++ c.events, _⟩
      refine hc.goesOnFree hgrows (List.forall_mem_singleton.mpr rfl) rfl ?_ _
      rintro u ⟨⟩
      exact ⟨_, _, rfl, rfl⟩
  | restart payload =>
    cases h
    show Sound ⟨_, _, [.restarted] ++ c.events, _⟩
    refine hc.goesOnFree hgrows (List.forall_mem_singleton.mpr rfl) rfl ?_ _
    rintro v ⟨⟩
  | retire =>
    cases h
    show Sound ⟨_, _, [.retired] ++ c.events, _⟩
    refine hc.goesOnFree hgrows (List.forall_mem_singleton.mpr rfl) rfl ?_ _
    rintro v ⟨⟩
  | settle token v =>
    cases h
    exact hc.signals (c.signals.grows_conclude token _)
  | abandon token =>
    cases h
    exact hc.signals (c.signals.grows_conclude token _)
  | begins b =>
    cases h
    exact hc.signals (b.grows_apply c.signals)

theorem Reached.sound (h : c.Reached) : c.Sound := by
  induction h with
  | launch id script target payload signals => exact sound_launch id script target payload signals
  | perform _ hperform ih => exact ih.perform hperform

end Course

/-! ### Signals that are left behind -/

namespace Signals

/-- The signals with one of them as if it had no outcome. -/
def forget (token : Token) (s : Signals) : Signals :=
  { s with outcomes := s.outcomes.setIfInBounds token .pending }

theorem size_forget (token : Token) (s : Signals) :
    (s.forget token).outcomes.size = s.outcomes.size := Array.size_setIfInBounds

theorem outcome_forget_of_ne {token u : Token} (h : u ≠ token) (s : Signals) :
    (s.forget token).outcome u = s.outcome u := by
  rw [outcome, forget, Array.getElem?_setIfInBounds_ne (Ne.symm h)]
  rfl

/-- Whatever becomes of a signal can be forgotten. -/
theorem forget_conclude (token : Token) (o : Outcome) (s : Signals) :
    (s.conclude token o).forget token = s.forget token := by
  rw [conclude]
  split
  · rw [forget, forget]
    simp only [Array.setIfInBounds_setIfInBounds]
  · rfl

theorem forget_conclude_of_ne {token u : Token} (h : u ≠ token) (o : Outcome) (s : Signals) :
    (s.conclude u o).forget token = (s.forget token).conclude u o := by
  rw [conclude, conclude, outcome_forget_of_ne h]
  split
  · rw [forget, forget]
    simp only [Array.setIfInBounds_comm _ _ h]
  · rfl

end Signals

theorem Beginning.forget_apply (b : Beginning) (token : Token) (s : Signals) :
    (b.apply s).forget token = b.apply (s.forget token) := by
  -- a signal that is just being begun has no outcome to forget
  have hpush : (s.outcomes.push .pending).setIfInBounds token .pending =
      (s.outcomes.setIfInBounds token .pending).push .pending := by
    apply Array.ext_getElem?
    intro i
    simp only [Array.getElem?_setIfInBounds, Array.getElem?_push, Array.size_push,
      Array.size_setIfInBounds]
    split_ifs <;> first | rfl | omega
  cases b with
  | nothing => rfl
  | signal | hosted =>
    simp only [Signals.forget, Beginning.apply, Signals.fresh, Signals.freshHosted, hpush,
      Array.size_setIfInBounds]

namespace Course

variable {c : Course}

/-- The course with one signal as if it had no outcome. -/
def forget (token : Token) (c : Course) : Course := { c with signals := c.signals.forget token }

/-- The signal has been begun, and the thread does not wait for it. -/
structure LeftBehind (token : Token) (c : Course) : Prop where
  sound : c.Sound
  begun : token < c.signals.outcomes.size
  unheard : ∀ generation, c.thread.pending ≠ some ⟨generation, .waiting token⟩

variable {token : Token}

theorem grows_perform {c' : Course} {d : Deed} (h : c.perform d = some c') :
    c.signals.Grows c'.signals := by
  have hgrows : c.signals.Grows c.signals := ⟨Nat.le_refl _, fun _ _ hv => hv⟩
  cases d with
  | step fuel w =>
    obtain ⟨⟨outcome, t, w'⟩, hstep, rfl⟩ := Option.map_eq_some_iff.mp h
    have hsteps := Thread.step_steps hstep
    show c.signals.Grows w'.signals
    cases hsteps with
    | rested _ _ hs _ =>
      rw [hs]
      exact hgrows
    | went b _ _ _ hs _ | handed b _ _ _ _ hs _ | parked b _ _ _ _ _ _ _ hs _ =>
      rw [hs]
      exact b.grows_apply c.signals
  | poll | resolve | restart | retire =>
    cases h
    exact hgrows
  | settle token v | abandon token =>
    cases h
    exact c.signals.grows_conclude token _
  | begins b =>
    cases h
    exact b.grows_apply c.signals

/-- A signal that is left behind stays so: a thread waits only for signals that it has begun itself. -/
theorem LeftBehind.perform {c' : Course} {d : Deed} (hc : c.LeftBehind token)
    (h : c.perform d = some c') : c'.LeftBehind token := by
  refine ⟨hc.sound.perform h, Nat.lt_of_lt_of_le hc.begun (grows_perform h).size, ?_⟩
  cases d with
  | step fuel w =>
    obtain ⟨⟨outcome, t, w'⟩, hstep, rfl⟩ := Option.map_eq_some_iff.mp h
    intro generation hpending
    have hpending : t.pending = some ⟨generation, .waiting token⟩ := hpending
    cases Thread.step_steps hstep with
    | rested _ ht _ _ =>
      rw [ht] at hpending
      exact hc.unheard generation hpending
    | went _ _ hp _ _ _ =>
      rcases hp with hp | hp
      · rw [hp] at hpending
        cases hpending
      · rw [hp] at hpending
        exact hc.unheard generation hpending
    | handed _ _ _ hp _ _ _ =>
      rw [hp] at hpending
      cases hpending
    | parked _ a _ _ _ hp _ hfits _ _ =>
      rw [hp] at hpending
      cases hpending
      exact Nat.ne_of_lt hc.begun hfits.1
  | poll =>
    cases h
    rcases Thread.poll_cases hc.sound.waits c.signals with ⟨hpoll, -⟩ | ⟨p, v, -, -, hpoll, -⟩
    · simp only [hpoll]
      exact hc.unheard
    · simp only [hpoll]
      rintro generation ⟨⟩
  | resolve generation v =>
    cases h
    rw [Thread.resolve]
    split
    · exact hc.unheard
    · rintro generation ⟨⟩
  | restart payload =>
    cases h
    rintro generation ⟨⟩
  | retire =>
    cases h
    rintro generation ⟨⟩
  | settle u v | abandon u | begins b =>
    cases h
    exact hc.unheard

/-- Deeds on other signals do the same, whatever has become of the signal that is left behind. -/
theorem LeftBehind.perform_forget {d : Deed} (hc : c.LeftBehind token)
    (hd : d.isAbout token = false) :
    (c.forget token).perform d = (c.perform d).map (forget token) := by
  have hpoll : c.thread.poll (c.signals.forget token) = c.thread.poll c.signals := by
    refine Thread.poll_congr fun generation u hp => Signals.outcome_forget_of_ne ?_ c.signals
    rintro rfl
    exact hc.unheard generation hp
  cases d with
  | step fuel w =>
    obtain ⟨b, hb⟩ := c.thread.step_withSignals fuel (w.withSignals c.signals)
    obtain ⟨hown, -⟩ := hb c.signals rfl
    obtain ⟨hstep, hevents⟩ := hb (c.signals.forget token) (Signals.size_forget token c.signals)
    have hstep' : c.thread.step fuel (w.withSignals (c.signals.forget token)) = _ := hstep
    have hevents' : c.thread.stepEvents fuel (w.withSignals (c.signals.forget token)) = _ := hevents
    simp only [Course.perform, forget, hstep', hevents']
    cases hrun : c.thread.step fuel (w.withSignals c.signals) with
    | none => rfl
    | some x =>
      obtain ⟨outcome, t, w'⟩ := x
      have hown' : c.thread.step fuel (w.withSignals c.signals) = _ := hown
      rw [hrun] at hown'
      have hsignals : w'.signals = b.apply c.signals :=
        congrArg (fun x : Except ExecError Status × Thread × World => x.2.2.signals)
          (Option.some.inj hown')
      simp only [Option.map_some, hsignals, forget, b.forget_apply]
      rfl
  | poll =>
    have hhands : c.thread.handing (c.signals.forget token) = c.thread.handing c.signals := by
      rw [Thread.handing, Thread.handing, hpoll]
    simp only [Course.perform, forget, hpoll, hhands, Option.map_some]
  | resolve generation v => rfl
  | restart payload => rfl
  | retire => rfl
  | settle u v =>
    have hne : u ≠ token := of_decide_eq_false hd
    simp only [Course.perform, forget, Option.map_some, Signals.settle,
      Signals.forget_conclude_of_ne hne]
  | abandon u =>
    have hne : u ≠ token := of_decide_eq_false hd
    simp only [Course.perform, forget, Option.map_some, Signals.abandon,
      Signals.forget_conclude_of_ne hne]
  | begins b => simp only [Course.perform, forget, Option.map_some, b.forget_apply]

/-- What becomes of a signal can be forgotten. -/
theorem perform_about {d : Deed} (hd : d.isAbout token = true) :
    ∃ c', c.perform d = some c' ∧ c'.forget token = c.forget token := by
  cases d with
  | settle u v =>
    obtain rfl : u = token := of_decide_eq_true hd
    refine ⟨_, rfl, ?_⟩
    simp only [forget, Signals.settle, Signals.forget_conclude]
  | abandon u =>
    obtain rfl : u = token := of_decide_eq_true hd
    refine ⟨_, rfl, ?_⟩
    simp only [forget, Signals.abandon, Signals.forget_conclude]
  | _ => cases hd

theorem LeftBehind.performAll_forget (ds : List Deed) (hc : c.LeftBehind token) :
    (c.performAll ds).map (forget token) =
      (c.forget token).performAll (ds.filter fun d => !d.isAbout token) := by
  induction ds generalizing c with
  | nil => rfl
  | cons d ds ih =>
    cases hd : d.isAbout token with
    | true =>
      obtain ⟨c', hperform, hforget⟩ := perform_about hd
      rw [List.filter_cons_of_neg (by simp [hd]), performAll, hperform, Option.bind_some,
        ih (hc.perform hperform), hforget]
    | false =>
      rw [List.filter_cons_of_pos (by simp [hd]), performAll, performAll, hc.perform_forget hd]
      cases hperform : c.perform d with
      | none => rfl
      | some c' => exact ih (hc.perform hperform)

/-- Whatever becomes of a signal that is left behind, everything else is the same. -/
theorem LeftBehind.performAll_filter (ds : List Deed) (hc : c.LeftBehind token) :
    (c.performAll ds).map (forget token) =
      (c.performAll (ds.filter fun d => !d.isAbout token)).map (forget token) := by
  rw [hc.performAll_forget ds, hc.performAll_forget, List.filter_filter]
  simp only [Bool.and_self]

end Course

/-- Stale settlements never reach a computation, whatever is done with a thread and its signals, in any
order.  The values that are handed over are those of the awaitables that the frames have just asked
for in the same generation, and nothing else stands in the slot of the frames; no signal delivers
twice; settling or abandoning a signal that a restart or an end has left behind changes nothing, then
and later; and a value for another generation, or for a thread that is not parked, is refused. -/
theorem stale_settlements_never_arrive {c : Course} (hc : c.Reached) :
    (Orderly c.events ∧
      (∀ generation frames a v, .handed generation frames a v ∈ c.events → a.Gives c.signals v) ∧
      ∀ v, c.thread.stack.resumed = some v → ∃ e events, c.events = e :: events ∧ e.value? = some v) ∧
    (c.events.filterMap WaitEvent.delivered?).Nodup ∧
    (∀ generation token d c', c.thread.pending = some ⟨generation, .waiting token⟩ →
      (d = .retire ∨ ∃ payload, d = .restart payload) → c.perform d = some c' →
      ∀ ds, (c'.performAll ds).map (Course.forget token) =
        (c'.performAll (ds.filter fun d => !d.isAbout token)).map (Course.forget token)) ∧
    ∀ generation v, generation ≠ c.thread.generation ∨ c.thread.status ≠ .parked →
      c.thread.resolve generation v = (false, c.thread) := by
  have hsound := hc.sound
  refine ⟨⟨hsound.orderly, hsound.given, hsound.slot⟩, hsound.orderly.delivered_nodup, ?_, ?_⟩
  · intro generation token d c' hp hd hperform ds
    refine Course.LeftBehind.performAll_filter ds ⟨hsound.perform hperform, ?_, ?_⟩
    · obtain ⟨events, hevents⟩ := hsound.asked _ hp
      refine Nat.lt_of_lt_of_le (hsound.begun token ?_) (Course.grows_perform hperform).size
      rw [hevents]
      exact List.mem_filterMap.mpr ⟨_, List.mem_cons_self .., rfl⟩
    · rcases hd with rfl | ⟨payload, rfl⟩
      · cases hperform
        rintro u ⟨⟩
      · cases hperform
        rintro u ⟨⟩
  · intro generation v h
    rw [Thread.resolve, if_pos h]

/-- Waits for a value that the host supplies. -/
def Block.asking : Block := .mk (Library.command "ask" [] (.extended .awaitHost)) "ask" 0 []

/-- A thread that has just been launched, and will wait for the host. -/
def Course.asking : Course := { thread := .launch 0 ⟨.asking, []⟩ 0 none }

/-- Steps, on a scene with nothing but the stage. -/
def Deed.go : Deed := .step 8 { scene := { targets := [.stage] } }

/-- The thread is restarted while it waits, and waits again.  The first wait is settled too late, and
only the value of the second one arrives. -/
theorem stale_settlements_never_arrive_asking :
    ∃ c c₁ c₂, Course.asking.perform .go = some c ∧ c.thread.waitsFor 0 = true ∧
      c.perform (.restart none) = some c₁ ∧
      c₁.performAll [.go, .settle 0 (.str "stale"), .poll, .settle 1 (.str "fresh"), .poll] =
        some c₂ ∧
      c₂.thread.stack.resumed = some (.str "fresh") ∧
      c₂.events.filterMap WaitEvent.delivered? = [1] ∧
      (c₁.performAll [.go, .poll, .settle 1 (.str "fresh"), .poll]).map (Course.forget 0) =
        some (c₂.forget 0) := by
  have hgo : Course.asking.perform .go = some _ := rfl
  have hreached : Course.Reached _ := .perform (.launch 0 ⟨.asking, []⟩ 0 none {}) hgo
  have hsame := (stale_settlements_never_arrive hreached).2.2.1 0 0 (.restart none) _ rfl
    (.inr ⟨none, rfl⟩) rfl [.go, .settle 0 (.str "stale"), .poll, .settle 1 (.str "fresh"), .poll]
  exact ⟨_, _, _, hgo, rfl, rfl, rfl, rfl, rfl, hsame.symm⟩

end Blockwork
