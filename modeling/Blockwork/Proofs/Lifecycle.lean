import Blockwork.Proofs.Registration
import Blockwork.Proofs.WaitHistory

/-!
The life of a thread.

The status of a thread says what else it holds: a running one has frames and waits for nothing, a
parked one has frames and a wait of its own generation, and one that is done holds nothing but its
result (`Thread.WellFormed`).  Whatever is done with a thread keeps that.  A step goes by the way in
which the slice ends (`Thread.StepLeaves`), a poll by whether there is a value (`Thread.PollLeaves`);
both keep the generation, as retiring does, and only a restart begins a new one.  The interpreter does
nothing else with a thread, and restarts it only while it is not done (`Thread.Does`), so a thread goes
back and forth between running and parked until it is done, and stays done.
-/

namespace Blockwork

open Relation

/-! ### What the status says -/

/-- What a thread holds is what its status calls for. -/
structure Thread.WellFormed (t : Thread) : Prop where
  running : t.status = .running → t.stack.frames ≠ [] ∧ t.pending = none
  parked : t.status = .parked →
    t.stack.frames ≠ [] ∧ ∃ p, t.pending = some p ∧ p.generation = t.generation
  done : t.status = .done → t.stack.frames = [] ∧ t.calls = {} ∧ t.pending = none
  result : t.result.isSome → t.status = .done

/-- A slice that leaves something to run leaves frames. -/
theorem Machine.frames_of_drive {fuel : Nat} {m m' : Machine} {slice : Slice}
    (h : drive fuel m = some (.ok slice, m')) (hslice : ∀ v, slice ≠ .finished v) :
    m'.stack.frames ≠ [] := by
  obtain ⟨last, -, hhalt⟩ := drive_induction (I := fun _ => True) (fun _ _ _ _ => trivial) trivial h
  rcases halt_cases hhalt with ⟨v, hv, -⟩ | ⟨_, rest, _, top', -, -, hstack, -⟩
  · exact absurd hv (hslice v)
  · rw [hstack]
    exact List.cons_ne_nil top' rest

namespace Thread

theorem wellFormed_finish (result : Option Value) (t : Thread) : (t.finish result).WellFormed :=
  ⟨fun h => (by cases h), fun h => (by cases h), fun _ => ⟨rfl, rfl, rfl⟩, fun _ => rfl⟩

/-- A thread at the top of its script. -/
theorem wellFormed_of_start {t : Thread} (hstatus : t.status = .running)
    (hstack : t.stack = .ofBlocks t.script.body) (hpending : t.pending = none)
    (hresult : t.result = none) : t.WellFormed := by
  refine ⟨fun _ => ⟨?_, hpending⟩, fun h => ?_, fun h => ?_, fun h => ?_⟩
  · rw [hstack]
    exact List.cons_ne_nil _ _
  · cases hstatus.symm.trans h
  · cases hstatus.symm.trans h
  · rw [hresult] at h
    cases h

namespace WellFormed

variable {t t' : Thread}

theorem waits (ht : t.WellFormed) : t.Waits := by
  intro p hp
  cases hstatus : t.status with
  | running =>
    have hnone := (ht.running hstatus).2
    rw [hp] at hnone
    cases hnone
  | parked =>
    obtain ⟨-, q, hq, hgeneration⟩ := ht.parked hstatus
    cases hp.symm.trans hq
    exact ⟨rfl, hgeneration⟩
  | done =>
    have hnone := (ht.done hstatus).2.2
    rw [hp] at hnone
    cases hnone

theorem result_eq_none (ht : t.WellFormed) (h : t.status ≠ .done) : t.result = none := by
  cases hresult : t.result with
  | none => rfl
  | some v =>
    refine absurd (ht.result ?_) h
    rw [hresult]
    rfl

theorem frames (ht : t.WellFormed) (h : t.status ≠ .done) : t.stack.frames ≠ [] := by
  cases hstatus : t.status with
  | running => exact (ht.running hstatus).1
  | parked => exact (ht.parked hstatus).1
  | done => exact absurd hstatus h

/-- Handing a value to a parked thread makes it run. -/
theorem wake (ht : t.WellFormed) (hparked : t.status = .parked) (v : Value) :
    ({ t with status := .running, pending := none,
              stack := { t.stack with resumed := some v } } : Thread).WellFormed := by
  have hlive : t.status ≠ .done := by
    rw [hparked]
    exact Status.noConfusion
  refine ⟨fun _ => ⟨ht.frames hlive, rfl⟩, fun h => (by cases h), fun h => (by cases h), fun h => ?_⟩
  exact absurd (ht.result h) hlive

theorem resolve (ht : t.WellFormed) (generation : Nat) (v : Value) :
    (t.resolve generation v).2.WellFormed := by
  rw [Thread.resolve]
  split
  · exact ht
  · rename_i hfits
    exact ht.wake (not_not.mp (not_or.mp hfits).2) v

theorem poll (ht : t.WellFormed) (s : Signals) : (t.poll s).2.WellFormed := by
  rcases poll_cases ht.waits s with ⟨hpoll, -⟩ | ⟨p, v, hp, -, hpoll, -⟩
  · rw [hpoll]
    exact ht
  · rw [hpoll]
    exact ht.wake (ht.waits p hp).1 v

theorem absorb (ht : t.WellFormed) (hrun : t.status = .running) {fuel : Nat} {m m' : Machine}
    {result : Except ExecError Slice} (h : Machine.drive fuel m = some (result, m')) :
    (t.absorb result m').WellFormed := by
  have hresult : t.result = none := ht.result_eq_none (by rw [hrun]; exact Status.noConfusion)
  rcases result with e | slice
  · exact wellFormed_finish ..
  · cases slice with
    | finished v => exact wellFormed_finish ..
    | exited => exact wellFormed_finish ..
    | yielded =>
      have hframes := Machine.frames_of_drive h fun v hv => by cases hv
      refine ⟨fun _ => ⟨hframes, (ht.running hrun).2⟩, fun h => ?_, fun h => ?_, ht.result⟩
      · cases hrun.symm.trans h
      · cases hrun.symm.trans h
    | awaiting a =>
      have hframes := Machine.frames_of_drive h fun v hv => by cases hv
      have hparked : (t.parkedOn a m').WellFormed := by
        refine ⟨fun h => (by cases h), fun _ => ⟨hframes, _, rfl, rfl⟩, fun h => (by cases h), ?_⟩
        intro h
        have hsome : t.result.isSome := h
        rw [hresult] at hsome
        cases hsome
      exact hparked.poll _

theorem step (ht : t.WellFormed) {fuel : Nat} {w w' : World} {outcome : Except ExecError Status}
    (h : t.step fuel w = some (outcome, t', w')) : t'.WellFormed := by
  rw [Thread.step] at h
  split at h
  · cases h
    exact ht
  · rename_i hrun
    split at h
    · cases h
      exact wellFormed_finish ..
    · obtain ⟨⟨result, m⟩, hdrive, heq⟩ := Option.map_eq_some_iff.mp h
      cases heq
      exact ht.absorb (not_not.mp hrun) hdrive

theorem handled (ht : t.WellFormed) (h : t.Handled t') : t'.WellFormed := by
  cases h with
  | poll signals => exact ht.poll signals
  | resolve generation v => exact ht.resolve generation v
  | restart payload => exact wellFormed_of_start rfl rfl rfl rfl
  | retire => exact wellFormed_finish ..
  | step hstep => exact ht.step hstep

end WellFormed

/-! ### What each operation does to the status -/

/-- The status in which a slice leaves its thread, by the way it has ended. -/
inductive SliceLeaves (s : Signals) : Except ExecError Slice → Status → Prop
  | fails (e : ExecError) : SliceLeaves s (.error e) .done
  | finishes (v : Value) : SliceLeaves s (.ok (.finished v)) .done
  | exits : SliceLeaves s (.ok .exited) .done
  | yields : SliceLeaves s (.ok .yielded) .running
  /-- What it waits for is there already. -/
  | resumes {a : Awaitable} {v : Value} : a.Gives s v → SliceLeaves s (.ok (.awaiting a)) .running
  | parks {a : Awaitable} : (∀ v, ¬ a.Gives s v) → SliceLeaves s (.ok (.awaiting a)) .parked

/-- What a step leaves: a thread that does not run, and the world, as they are; otherwise a thread of
the same generation, which is done if its target is not there, and else as its slice has left it.  The
step reports the new status, or the error. -/
inductive StepLeaves (fuel : Nat) (w : World) (t : Thread) :
    Except ExecError Status → Thread → World → Prop
  | rests : t.status ≠ .running → StepLeaves fuel w t (.ok t.status) t w
  | lost {t' : Thread} : t.status = .running → w.scene.target? t.target = none →
      t'.status = .done → t'.generation = t.generation →
      StepLeaves fuel w t (.error (.unknownTarget t.target)) t' w
  | runs {result : Except ExecError Slice} {m : Machine} {t' : Thread} : t.status = .running →
      w.scene.target? t.target ≠ none → Machine.drive fuel (t.machine w) = some (result, m) →
      SliceLeaves m.cx.world.signals result t'.status → t'.generation = t.generation →
      StepLeaves fuel w t (result.map fun _ => t'.status) t' m.cx.world

/-- What a poll answers and leaves: a parked thread for which there is a value runs, in the same
generation; every other thread stays as it is. -/
inductive PollLeaves (s : Signals) (t : Thread) : Bool → Thread → Prop
  | wakes {p : Pending} {v : Value} {t' : Thread} : t.status = .parked → t.pending = some p →
      p.awaitable.Gives s v → t'.status = .running → t'.generation = t.generation →
      PollLeaves s t true t'
  | rests : (∀ p v, t.pending = some p → ¬ p.awaitable.Gives s v) → PollLeaves s t false t

theorem sliceLeaves_absorb {t : Thread} (hrun : t.status = .running)
    (result : Except ExecError Slice) (m : Machine) :
    SliceLeaves m.cx.world.signals result (t.absorb result m).status := by
  rcases result with e | slice
  · exact .fails e
  · cases slice with
    | finished v => exact .finishes v
    | exited => exact .exits
    | yielded =>
      have hstatus : (t.absorb (.ok .yielded) m).status = .running := hrun
      rw [hstatus]
      exact .yields
    | awaiting a =>
      rw [absorb_parkedOn]
      by_cases hgives : ∃ v, a.Gives m.cx.world.signals v
      · obtain ⟨v, hv⟩ := hgives
        rw [poll_of_gives (waits_parkedOn a m t) rfl hv]
        exact .resumes hv
      · have hnone : ∀ v, ¬ a.Gives m.cx.world.signals v := fun v hv => hgives ⟨v, hv⟩
        rw [poll_of_not_gives rfl hnone]
        exact .parks hnone

theorem stepLeaves_step {t t' : Thread} {fuel : Nat} {w w' : World} {outcome : Except ExecError Status}
    (h : t.step fuel w = some (outcome, t', w')) : t.StepLeaves fuel w outcome t' w' := by
  by_cases hrun : t.status = .running
  · have hgeneration := (continues_step h).generation
    cases htarget : w.scene.target? t.target with
    | none =>
      rw [step_of_unknown hrun (Option.isNone_iff_eq_none.mpr htarget)] at h
      cases h
      exact .lost hrun htarget rfl hgeneration
    | some target =>
      rw [step_of_running hrun (by rw [htarget]; rfl)] at h
      obtain ⟨⟨result, m⟩, hdrive, heq⟩ := Option.map_eq_some_iff.mp h
      cases heq
      refine .runs hrun ?_ hdrive (sliceLeaves_absorb hrun result m) hgeneration
      rw [htarget]
      exact Option.some_ne_none target
  · rw [step_of_resting hrun] at h
    cases h
    exact .rests hrun

theorem WellFormed.pollLeaves_poll {t : Thread} (ht : t.WellFormed) (s : Signals) :
    t.PollLeaves s (t.poll s).1 (t.poll s).2 := by
  by_cases hgives : ∃ p v, t.pending = some p ∧ p.awaitable.Gives s v
  · obtain ⟨p, v, hp, hv⟩ := hgives
    rw [poll_of_gives ht.waits hp hv]
    exact .wakes (ht.waits p hp).1 hp hv rfl rfl
  · have hpoll : t.poll s = (false, t) := by
      cases hp : t.pending with
      | none => rw [Thread.poll, hp]
      | some p => exact poll_of_not_gives hp fun v hv => hgives ⟨p, v, hp, hv⟩
    rw [hpoll]
    exact .rests fun p v hp hv => hgives ⟨p, v, hp, hv⟩

/-- What the interpreter does with a thread at a time, in the world as it is. -/
inductive Does (w : World) (t : Thread) : Thread → Prop
  | nothing : Does w t t
  | step {fuel : Nat} {w' : World} {outcome : Except ExecError Status} {t' : Thread} :
      t.step fuel w = some (outcome, t', w') → Does w t t'
  | poll : Does w t (t.poll w.signals).2
  | restart (payload : Option Value) : t.status ≠ .done → Does w t (t.restart payload)
  | retire : Does w t t.retire

variable {w : World} {t t' : Thread}

theorem Does.eq_or_handled (h : t.Does w t') : t' = t ∨ t.Handled t' := by
  cases h with
  | nothing => exact .inl rfl
  | step hstep => exact .inr (.step hstep)
  | poll => exact .inr (.poll w.signals)
  | restart payload _ => exact .inr (.restart payload)
  | retire => exact .inr .retire

theorem Does.same (h : t.Does w t') : t.Same t' := by
  rcases h.eq_or_handled with rfl | hhandled
  · exact .refl t'
  · exact hhandled.same

theorem WellFormed.does (ht : t.WellFormed) (h : t.Does w t') : t'.WellFormed := by
  rcases h.eq_or_handled with rfl | hhandled
  · exact ht
  · exact ht.handled hhandled

/-- A thread that is done stays done. -/
theorem WellFormed.live_of_does (ht : t.WellFormed) (h : t.Does w t') (hlive : t'.status ≠ .done) :
    t.status ≠ .done := by
  intro hdone
  refine hlive ?_
  cases h with
  | nothing => exact hdone
  | step hstep =>
    have hrest : t.status ≠ .running := by
      rw [hdone]
      exact Status.noConfusion
    rw [step_of_resting hrest] at hstep
    cases hstep
    exact hdone
  | poll =>
    rw [Thread.poll, (ht.done hdone).2.2]
    exact hdone
  | restart _ hbefore => exact absurd hdone hbefore
  | retire => rfl

end Thread

/-! ### Where threads come from -/

namespace Interpreter

/-- Threads are told apart by their numbers. -/
theorem Ordered.eq_of_id {s : Interpreter} (hs : s.Ordered) {t t' : Thread} (ht : t ∈ s.threads)
    (ht' : t' ∈ s.threads) (hid : t'.id = t.id) : t' = t :=
  List.inj_on_of_nodup_map hs.nodup ht' ht hid

/-- The threads that there can be after an act: what the interpreter or the host has made of one that
was there, and one that has just been launched. -/
inductive Begets (host : Host) (s : Interpreter) : Thread → Prop
  | does {t t' : Thread} : t ∈ s.threads → t.Does s.world t' → Begets host s t'
  | handled {t t' : Thread} : t ∈ s.threads → host.handles → t.Handled t' → Begets host s t'
  | launched {target : Nat} {script : Script} (payload : Option Value) :
      (target, script) ∈ s.world.scene.scripts ∨ host.arranges →
      Begets host s (.launch s.nextId script target payload)

end Interpreter

theorem Act.begets {host : Host} {s s' : Interpreter} (h : Act host s s') (hs : s.Ordered)
    {t' : Thread} (ht' : t' ∈ s'.threads) : s.Begets host t' := by
  cases h with
  | poll ht _ =>
    rcases List.mem_or_eq_of_mem_set ht' with hmem | rfl
    · exact .does hmem .nothing
    · exact .does (List.mem_of_getElem? ht) .poll
  | slice ht _ hstep =>
    rcases List.mem_or_eq_of_mem_set ht' with hmem | rfl
    · exact .does hmem .nothing
    · exact .does (List.mem_of_getElem? ht) (.step hstep)
  | launch payload hallowed =>
    rcases List.mem_append.mp ht' with hmem | hmem
    · exact .does hmem .nothing
    · rw [List.mem_singleton.mp hmem]
      exact .launched payload hallowed
  | @restart _ t payload ht hlive =>
    obtain ⟨t₁, ht₁, rfl⟩ := List.mem_map.mp ht'
    refine .does ht₁ ?_
    split
    · rename_i hid
      cases hs.eq_of_id ht ht₁ hid
      exact .restart payload (by simpa [Thread.isDone] using hlive)
    · exact .nothing
  | stopOthers target except =>
    obtain ⟨t₁, ht₁, rfl⟩ := List.mem_map.mp ht'
    refine .does ht₁ ?_
    split
    · exact .retire
    · exact .nothing
  | stopAll => exact absurd ht' List.not_mem_nil
  | compact => exact .does (List.mem_filter.mp ht').1 .nothing
  | edge _ hcheck =>
    obtain ⟨result, m, -, rfl, -⟩ := Interpreter.checkEdge_cases hcheck
    exact .does ht' .nothing
  | other hthreads _ _ =>
    rw [hthreads] at ht'
    exact .does ht' .nothing
  | handle hhandles hf =>
    obtain ⟨t₁, ht₁, rfl⟩ := List.mem_map.mp ht'
    split
    · rename_i hid
      exact .handled ht₁ hhandles (hf t₁ ht₁ hid)
    · exact .does ht₁ .nothing

namespace Interpreter

/-- The threads are numbered in order, and each is as its status says. -/
structure Sound (s : Interpreter) : Prop where
  ordered : s.Ordered
  threads : ∀ t ∈ s.threads, t.WellFormed

theorem Sound.act {host : Host} {s s' : Interpreter} (hs : s.Sound) (h : Act host s s') :
    s'.Sound := by
  refine ⟨hs.ordered.follows h.follows, fun t' ht' => ?_⟩
  cases h.begets hs.ordered ht' with
  | does ht hdoes => exact (hs.threads _ ht).does hdoes
  | handled ht _ hhandled => exact (hs.threads _ ht).handled hhandled
  | launched payload _ => exact Thread.wellFormed_of_start rfl rfl rfl rfl

theorem Sound.acts {host : Host} {s s' : Interpreter} (hs : s.Sound) (h : Acts host s s') :
    s'.Sound := h.keeps (fun hs hact => hs.act hact) hs

theorem Sound.turns {fuel i : Nat} {s s' : Interpreter} {log : List Turn} (hs : s.Sound)
    (h : s.Turns fuel i log s') : s'.Sound := by
  have hacts : Acts .unbound s s' := h.careful.acts
  exact hs.acts hacts

theorem Sound.beginsRound {fuel : Nat} {budget : Budget} {report : Report} {s s₁ : Interpreter}
    (hs : s.Sound) (h : s.BeginsRound fuel budget report s₁) : s₁.Sound := by
  have hacts : Acts .unbound s s₁ := h.careful.acts
  exact hs.acts hacts

theorem sound_fresh (scene : Scene) (clock : Clock) (settings : SchedulerSettings) :
    (fresh scene clock settings).Sound :=
  ⟨ordered_fresh scene clock settings, fun _ ht => absurd ht List.not_mem_nil⟩

theorem Session.sound {host : Host} {scene : Scene} {s : Interpreter} (h : s.Session host scene) :
    s.Sound := by
  obtain ⟨clock, settings, hacts⟩ := h.acts
  exact (sound_fresh scene clock settings).acts hacts

/-- A thread with the number is there, and is not done. -/
def Live (s : Interpreter) (id : Nat) : Prop := ∃ t ∈ s.threads, t.id = id ∧ t.status ≠ .done

/-- A host that keeps its hands off leaves each thread to what the interpreter does with it. -/
theorem Sound.does {s s' : Interpreter} (hs : s.Sound) (h : Act .handsOff s s') {t t' : Thread}
    (ht : t ∈ s.threads) (ht' : t' ∈ s'.threads) (hid : t'.id = t.id) : t.Does s.world t' := by
  cases h.begets hs.ordered ht' with
  | does ht₁ hdoes =>
    cases hs.ordered.eq_of_id ht ht₁ (hdoes.same.id.symm.trans hid)
    exact hdoes
  | handled _ hhandles _ => exact hhandles.elim
  | launched payload _ =>
    -- the number of a new thread is larger than those of the others
    exact absurd hid (Nat.ne_of_gt (hs.ordered.below t.id (List.mem_map_of_mem ht)))

theorem Sound.same {s s' : Interpreter} (hs : s.Sound) (h : Acts .handsOff s s') {t : Thread}
    (ht : t ∈ s.threads) : ∀ t' ∈ s'.threads, t'.id = t.id → t.Same t' := by
  induction h with
  | refl =>
    intro t' ht' hid
    rw [hs.ordered.eq_of_id ht ht' hid]
    exact .refl t
  | @tail s₁ s₂ hacts hact ih =>
    intro t₂ ht₂ hid
    have hs₁ := hs.acts hacts
    cases hact.begets hs₁.ordered ht₂ with
    | does ht₁ hdoes => exact (ih _ ht₁ (hdoes.same.id.symm.trans hid)).trans hdoes.same
    | handled _ hhandles _ => exact hhandles.elim
    | launched payload _ =>
      have hlt := hs.ordered.below t.id (List.mem_map_of_mem ht)
      exact absurd hid (Nat.ne_of_gt (Nat.lt_of_lt_of_le hlt (Acts.follows hacts).le))

/-- A number that no live thread has, although it has been given out, never gets one again. -/
theorem Sound.not_live {s s' : Interpreter} (hs : s.Sound) (h : Acts .handsOff s s') {id : Nat}
    (hid : id < s.nextId) (hgone : ¬ s.Live id) : ¬ s'.Live id := by
  induction h with
  | refl => exact hgone
  | @tail s₁ s₂ hacts hact ih =>
    rintro ⟨t₂, ht₂, rfl, hlive⟩
    have hs₁ := hs.acts hacts
    cases hact.begets hs₁.ordered ht₂ with
    | does ht₁ hdoes =>
      exact ih ⟨_, ht₁, hdoes.same.id.symm, (hs₁.threads _ ht₁).live_of_does hdoes hlive⟩
    | handled _ hhandles _ => exact hhandles.elim
    | launched payload _ => exact absurd hid (Nat.not_lt_of_le (Acts.follows hacts).le)

end Interpreter

/-- The life of a thread, in every session whose host keeps its hands off the threads.  Each command is
a run of acts.  At every state, in the middle of commands too, each thread is as its status says.  A
step and a poll keep its generation, and its status becomes what the slice or the awaitable calls for; a
restart, as long as it is not done, makes it run in the next generation; and retiring makes it done in
the same one.  An act steps, polls or retires a thread, restarts one that is not done, or leaves it
alone.  From there on the thread keeps its number, script and target, and a number whose thread is done
or gone is never that of a live thread again. -/
theorem threads_keep_lifecycle {scene : Scene} {s : Interpreter} (hs : s.Session .handsOff scene) :
    (∀ fuel c s', c.Allowed .handsOff → s.perform fuel c = some s' → Acts .handsOff s s') ∧
    ∀ s₁, Acts .handsOff s s₁ →
      (∀ t ∈ s₁.threads, t.WellFormed ∧
        (∀ fuel w outcome t' w', t.step fuel w = some (outcome, t', w') →
          t.StepLeaves fuel w outcome t' w') ∧
        (∀ signals, t.PollLeaves signals (t.poll signals).1 (t.poll signals).2) ∧
        (t.status ≠ .done → ∀ payload, (t.restart payload).status = .running ∧
          (t.restart payload).generation = t.generation + 1) ∧
        t.retire.status = .done ∧ t.retire.generation = t.generation) ∧
      (∀ s₂, Act .handsOff s₁ s₂ → ∀ t ∈ s₁.threads, ∀ t' ∈ s₂.threads, t'.id = t.id →
        t.Does s₁.world t') ∧
      ∀ s₂, Acts .handsOff s₁ s₂ →
        (∀ t ∈ s₁.threads, ∀ t' ∈ s₂.threads, t'.id = t.id → t.Same t') ∧
        ∀ id < s₁.nextId, ¬ s₁.Live id → ¬ s₂.Live id := by
  refine ⟨fun _ _ _ hc h => Interpreter.perform_acts hc h, fun s₁ hacts => ?_⟩
  have hs₁ := hs.sound.acts hacts
  refine ⟨fun t ht => ?_, fun s₂ hact t ht t' ht' hid => hs₁.does hact ht ht' hid,
    fun s₂ hacts' => ⟨?_, ?_⟩⟩
  · have hwell := hs₁.threads t ht
    exact ⟨hwell, fun _ _ _ _ _ h => Thread.stepLeaves_step h, hwell.pollLeaves_poll,
      fun _ _ => ⟨rfl, rfl⟩, rfl, rfl⟩
  · exact fun t ht => hs₁.same hacts' ht
  · exact fun id hid => hs₁.not_live hacts' hid

/-- Thread 0 is parked until its broadcast is over, and a restart makes it run in generation 1.  Thread
1, which the broadcast has started, is done and gone, and will not come back. -/
theorem threads_keep_lifecycle_asked :
    ∃ s t, Interpreter.asked.perform 8 (.stepThreads (.rounds 1)) = some s ∧ s.threads = [t] ∧
      t.id = 0 ∧ t.status = .parked ∧ t.WellFormed ∧ s.nextId = 2 ∧
      ((t.restart none).status = .running ∧ (t.restart none).generation = 1) ∧
      ∀ s', Acts .handsOff s s' → ¬ s'.Live 1 := by
  have hstep : Interpreter.asked.perform 8 (.stepThreads (.rounds 1)) = some _ := rfl
  obtain ⟨hcommand, hlife⟩ := threads_keep_lifecycle (Interpreter.asked_session trivial)
  obtain ⟨hthreads, -, hrun⟩ := hlife _ (hcommand 8 (.stepThreads (.rounds 1)) _ trivial hstep)
  obtain ⟨hwell, -, -, hrestart, -⟩ := hthreads _ (List.mem_singleton_self _)
  refine ⟨_, _, hstep, rfl, rfl, rfl, hwell, rfl, hrestart Status.noConfusion none,
    fun s' hacts => ?_⟩
  refine (hrun s' hacts).2 1 (by decide) ?_
  rintro ⟨t, ht, hid, -⟩
  rw [List.mem_singleton.mp ht] at hid
  cases hid

end Blockwork
