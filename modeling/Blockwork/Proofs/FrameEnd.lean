import Blockwork.Proofs.ErrorPolicy

/-!
Why a frame ends.

A frame ends when no thread is left, when a round has run no slice, when its budget is spent or when a
redraw is wanted (`stepThreads_end`).  A round that has run no slice has carried out no effect either: it
has polled each thread in its place and found it parked or done (`turns_rest`).  So whatever the effects
of the frame have launched, restarted or retired, a frame that ends for want of work leaves parked
threads only.
-/

namespace Blockwork

namespace Interpreter

/-- The first threads, as many as given, do not run. -/
def RestsBelow (i : Nat) (s : Interpreter) : Prop :=
  ∀ j < i, ∀ t, s.threads[j]? = some t → t.status ≠ .running

theorem restsBelow_zero (s : Interpreter) : s.RestsBelow 0 := fun j hj => absurd hj j.not_lt_zero

/-- A turn that runs no slice adds its thread to those that do not run. -/
theorem RestsBelow.takes {fuel i : Nat} {s : Interpreter} {u : Turn} (hs : s.RestsBelow i)
    (h : s.Takes fuel i u) (hslice : u.slice = none) : u.after.RestsBelow (i + 1) := by
  cases h with
  | runs => cases hslice
  | @rests t ht hrest =>
    intro j hj t' ht'
    rcases Nat.lt_succ_iff_lt_or_eq.mp hj with hlt | rfl
    · rw [List.getElem?_set_ne (Nat.ne_of_gt hlt)] at ht'
      exact hs j hlt t' ht'
    · rw [List.getElem?_set_self (List.getElem?_eq_some_iff.mp ht).1] at ht'
      cases ht'
      exact hrest

/-- Turns only add to the slices that have been run. -/
theorem turns_le {fuel : Nat} :
    ∀ {gas i stepped n : Nat} {failure : Option ExecError} {s s' : Interpreter},
      turns fuel gas i stepped s = some (n, failure, s') → stepped ≤ n
  | 0, _, _, _, _, _, _, h => by cases h
  | gas + 1, i, stepped, n, failure, s, s', h => by
    rw [turns] at h
    split at h
    · split at h
      · cases h
      · exact turns_le h
      · exact Nat.le_of_succ_le (turns_le h)
      · split at h
        · cases h
          exact Nat.le_succ _
        · exact Nat.le_of_succ_le (turns_le h)
    · cases h
      exact Nat.le_refl _

/-- If no slice is run from a position on, no thread runs in the end. -/
theorem turns_rest {fuel : Nat} :
    ∀ {gas i stepped : Nat} {failure : Option ExecError} {s s' : Interpreter},
      turns fuel gas i stepped s = some (stepped, failure, s') → s.RestsBelow i →
      ∀ t ∈ s'.threads, t.status ≠ .running
  | 0, _, _, _, _, _, h, _ => by cases h
  | gas + 1, i, stepped, failure, s, s', h, hs => by
    rw [turns] at h
    split at h
    · rename_i hi
      split at h
      · cases h
      · rename_i hturn
        obtain ⟨u, htakes, hslice, rfl⟩ := turn_takes hi hturn
        exact turns_rest h (hs.takes htakes (Option.map_eq_none_iff.mp hslice))
      · exact absurd (turns_le h) (Nat.not_succ_le_self _)
      · split at h
        · cases h
        · exact absurd (turns_le h) (Nat.not_succ_le_self _)
    · rename_i hover
      cases h
      intro t ht
      obtain ⟨j, hj⟩ := List.getElem?_of_mem ht
      have hlt := (List.getElem?_eq_some_iff.mp hj).1
      exact hs j (Nat.lt_of_lt_of_le hlt (Nat.le_of_not_lt hover)) t hj

/-- A round that runs no slice leaves parked threads only. -/
theorem round_rest {fuel finished : Nat} {failure : Option ExecError} {s s' : Interpreter}
    (h : s.round fuel = some (0, finished, failure, s')) : ∀ t ∈ s'.threads, t.status = .parked := by
  obtain ⟨s₁, hturns, hthreads, -, -⟩ := round_threads h
  intro t ht
  rw [hthreads] at ht
  obtain ⟨hmem, hlive⟩ := List.mem_filter.mp ht
  have hrest := turns_rest hturns s.restsBelow_zero t hmem
  cases hstatus : t.status with
  | running => exact absurd hstatus hrest
  | parked => rfl
  | done => simp [Thread.isDone, hstatus] at hlive

/-- Why a frame goes no further after a round: nothing is left to do, the budget is spent, or a redraw is
waited for. -/
inductive Ends (active : Nat) (report : Report) (s : Interpreter) : Prop
  | empty : s.threads = [] → Ends active report s
  | idle : active = 0 → Ends active report s
  | timedOut : report.timedOut = true → Ends active report s
  | redraw : s.settings.turbo = false → s.world.services.redraw = true → Ends active report s

theorem rounds_end {fuel : Nat} {budget : Budget} :
    ∀ {gas : Nat} {report₀ report : Report} {s₀ s' : Interpreter},
      rounds fuel budget gas report₀ s₀ = some (.ok report, s') →
      ∃ (s : Interpreter) (active finished : Nat),
        s.round fuel = some (active, finished, none, s') ∧ s'.Ends active report
  | 0, _, _, _, _, h => by cases h
  | gas + 1, report₀, report, s₀, s', h => by
    rw [rounds] at h
    split at h
    · cases h
    · cases h
    · rename_i active finished s₁ hround
      simp only at h
      split at h
      · rename_i hnone
        cases h
        refine ⟨s₀, active, finished, hround, ?_⟩
        rcases Bool.or_eq_true_iff.mp hnone with hempty | hidle
        · exact .empty (List.isEmpty_iff.mp hempty)
        · exact .idle (of_decide_eq_true hidle)
      · split at h
        · cases h
          exact ⟨s₀, active, finished, hround, .timedOut rfl⟩
        · split at h
          · rename_i hredraw
            cases h
            obtain ⟨hturbo, hwanted⟩ := Bool.and_eq_true_iff.mp hredraw
            rw [Bool.not_eq_true'] at hturbo
            exact ⟨s₀, active, finished, hround, .redraw hturbo hwanted⟩
          · exact rounds_end h

/-- A frame that does not fail ends after a round for one of the reasons. -/
theorem stepThreads_end {fuel : Nat} {budget : Budget} {report : Report} {s s' : Interpreter}
    (h : s.stepThreads fuel budget = some (.ok report, s')) :
    ∃ (s₁ : Interpreter) (active finished : Nat),
      s₁.round fuel = some (active, finished, none, s') ∧ s'.Ends active report := rounds_end h

theorem stepThreads_settings {fuel : Nat} {budget : Budget} {r : Except ExecError Report}
    {s s' : Interpreter} (h : s.stepThreads fuel budget = some (r, s')) :
    s'.settings = s.settings := by
  obtain ⟨report, s₁, active, finished, failure, timedOut, hbegins, hround, -⟩ := stepThreads_round h
  rw [← roundWith_step] at hround
  exact (roundWith_settings hround).trans hbegins.settings

end Interpreter

open Interpreter in
/-- A frame ends only for a reason.  Unless its budget ran out, or a redraw is wanted and the session is
not in turbo mode, the threads that it leaves are all parked: none is running, and none is done.  That
holds in every state, whatever the effects of the frame did to the threads. -/
theorem frame_leaves_parked {fuel : Nat} {budget : Budget} {report : Report} {s s' : Interpreter}
    (h : s.stepThreads fuel budget = some (.ok report, s')) (htime : report.timedOut = false)
    (hredraw : s.settings.turbo = true ∨ s'.world.services.redraw = false) :
    ∀ t ∈ s'.threads, t.status = .parked := by
  obtain ⟨s₁, active, finished, hround, hend⟩ := stepThreads_end h
  cases hend with
  | empty hempty =>
    rw [hempty]
    exact fun t ht => absurd ht List.not_mem_nil
  | idle hidle =>
    rw [hidle] at hround
    exact round_rest hround
  | timedOut hspent =>
    rw [htime] at hspent
    cases hspent
  | redraw hturbo hwanted =>
    rw [stepThreads_settings h] at hturbo
    rcases hredraw with hon | hoff
    · rw [hturbo] at hon
      cases hon
    · rw [hwanted] at hoff
      cases hoff

/-- A script that the broadcast starts, and that waits for a delay. -/
def Script.lingering : Script := ⟨Script.answering.top, [Script.pausing.top]⟩

/-- A script that sends the broadcast twice, and waits for it the second time. -/
def Script.insisting : Script :=
  ⟨.mk (Library.command "event_broadcast" [("BROADCAST_INPUT", .slot .string)] .broadcast) "call" 2
    [("BROADCAST_INPUT", .literal (.str "go"))], [Script.asking.top]⟩

/-- A session in which the script has been launched. -/
def Interpreter.insisting : Interpreter :=
  ((Interpreter.fresh { targets := [{ Target.stage with scripts := [.lingering] }] } {} {}).launch
    .insisting 0 none false).2

/-- The first broadcast launches thread 1, and the second restarts it.  In the second round nothing runs:
both threads are parked, one until its broadcast is over, the other until its delay is. -/
theorem frame_leaves_parked_insisting :
    ∃ report s', Interpreter.insisting.stepThreads 12 .unlimited = some (.ok report, s') ∧
      report.rounds = 2 ∧ report.timedOut = false ∧ s'.world.services.redraw = false ∧
      s'.threads.map (fun t => (t.id, t.generation)) = [(0, 0), (1, 1)] ∧
      ∀ t ∈ s'.threads, t.status = .parked := by
  have hstep : Interpreter.insisting.stepThreads 12 .unlimited = some (.ok _, _) := rfl
  exact ⟨_, _, hstep, rfl, rfl, rfl, rfl, frame_leaves_parked hstep rfl (.inr rfl)⟩

end Blockwork
