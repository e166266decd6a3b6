import Blockwork.Proofs.Moment

/-!
A frame, round by round and turn by turn.

A round gives a turn to each thread, those launched meanwhile included.  `Turns` is the log of a round
under way: what each turn began with, what its slice left if it ran one, and what it ended with.  From
the log one reads which threads were stepped, and which effects were carried out on what.  The turns of
every round have a log (`turns_log`), and every call that runs a frame comes to its end by one of the
rounds that it begins (`stepThreads_round`).
-/

namespace Blockwork

/-! ### Turns -/

/-- A turn as it went. -/
structure Turn where
  /-- Where its thread stands. -/
  position : Nat
  before : Interpreter
  /-- How the slice ended, if one was run, and what it left, its effects not carried out yet. -/
  slice : Option (Except ExecError Status × Interpreter)
  after : Interpreter

namespace Interpreter

/-- The effects, each with what it is carried out on. -/
def effectsFrom : List Effect → Interpreter → List (Interpreter × Effect)
  | [], _ => []
  | e :: rest, s => (s, e) :: effectsFrom rest (s.applyEffect e)

/-- What a thread's turn makes of it before any slice: if it is parked, it is polled. -/
def polled (s : Interpreter) (t : Thread) : Thread :=
  if t.status = .parked then (t.poll s.world.signals).2 else t

end Interpreter

namespace Turn

/-- The number of the thread, if it was stepped. -/
def stepped? (u : Turn) : Option Nat :=
  u.slice.bind fun _ => u.before.threads[u.position]?.map Thread.id

/-- The effects that were carried out, in order, each with what it was carried out on. -/
def effects (u : Turn) : List (Interpreter × Effect) :=
  match u.slice with
  | none => []
  | some (_, s) => Interpreter.effectsFrom (Moment.taking s).queue (Moment.taking s).state

/-- The error by which the turn ended the frame. -/
def failure? (u : Turn) : Option ExecError :=
  match u.slice with
  | some (.error e, _) => if u.after.isFatal e then some e else none
  | _ => none

/-- No effect of the turn stopped all threads. -/
def SparesAll (u : Turn) : Prop := ∀ x ∈ u.effects, x.2 ≠ .stopAll

end Turn

namespace Interpreter

/-- The turn of the thread at a position. -/
inductive Takes (fuel : Nat) (s : Interpreter) (i : Nat) : Turn → Prop
  /-- It does not run, even after a poll. -/
  | rests {t : Thread} : s.threads[i]? = some t → (s.polled t).status ≠ .running →
      Takes fuel s i ⟨i, s, none, { s with threads := s.threads.set i (s.polled t) }⟩
  | runs {t t' : Thread} {w : World} {outcome : Except ExecError Status} :
      s.threads[i]? = some t → (s.polled t).status = .running →
      (s.polled t).step fuel s.world = some (outcome, t', w) →
      Takes fuel s i
        ⟨i, s, some (outcome, { s with threads := s.threads.set i t', world := w }),
          applyEffects { s with threads := s.threads.set i t', world := w }⟩

theorem Takes.before_eq {fuel i : Nat} {s : Interpreter} {u : Turn} (h : s.Takes fuel i u) :
    u.before = s ∧ u.position = i := by
  cases h <;> exact ⟨rfl, rfl⟩

theorem Takes.lt {fuel i : Nat} {s : Interpreter} {u : Turn} (h : s.Takes fuel i u) :
    i < s.threads.length := by
  cases h with
  | rests ht _ => exact (List.getElem?_eq_some_iff.mp ht).1
  | runs ht _ _ => exact (List.getElem?_eq_some_iff.mp ht).1

/-- A turn that ends the frame runs a slice that fails fatally. -/
theorem Takes.fails {fuel i : Nat} {s : Interpreter} {u : Turn} {e : ExecError} (h : s.Takes fuel i u)
    (he : u.failure? = some e) :
    ∃ t t' w, s.threads[i]? = some t ∧ (s.polled t).status = .running ∧
      (s.polled t).step fuel s.world = some (.error e, t', w) ∧ u.after.isFatal e = true ∧
      u.after = applyEffects { s with threads := s.threads.set i t', world := w } := by
  cases h with
  | rests => cases he
  | @runs t t' w outcome ht hrun hstep =>
    cases outcome with
    | ok status => cases he
    | error e' =>
      simp only [Turn.failure?] at he
      split at he
      · rename_i hfatal
        cases he
        exact ⟨t, t', w, ht, hrun, hstep, hfatal, rfl⟩
      · cases he

/-- A turn goes in one way only. -/
theorem Takes.unique {fuel i : Nat} {s : Interpreter} {u v : Turn} (hu : s.Takes fuel i u)
    (hv : s.Takes fuel i v) : u = v := by
  cases hu with
  | rests ht hrest =>
    cases hv with
    | rests ht' _ =>
      cases ht.symm.trans ht'
      rfl
    | runs ht' hrun _ =>
      cases ht.symm.trans ht'
      exact absurd hrun hrest
  | runs ht hrun hstep =>
    cases hv with
    | rests ht' hrest =>
      cases ht.symm.trans ht'
      exact absurd hrun hrest
    | runs ht' _ hstep' =>
      cases ht.symm.trans ht'
      cases hstep.symm.trans hstep'
      rfl

theorem turn_takes {fuel i : Nat} {s s' : Interpreter} {o : Option (Except ExecError Status)}
    (hi : i < s.threads.length) (h : s.turn fuel i = some (o, s')) :
    ∃ u, s.Takes fuel i u ∧ u.slice.map Prod.fst = o ∧ u.after = s' := by
  have ht : s.threads[i]? = some s.threads[i] := List.getElem?_eq_getElem hi
  rw [turn, ht] at h
  simp only at h
  generalize hp : (if s.threads[i].status = .parked then (s.threads[i].poll s.world.signals).2
    else s.threads[i]) = polled at h
  have hpolled : s.polled s.threads[i] = polled := hp
  split at h
  · rename_i hrun
    obtain ⟨⟨outcome, t', w⟩, hstep, heq⟩ := Option.map_eq_some_iff.mp h
    cases heq
    rw [← hpolled] at hrun hstep
    exact ⟨_, .runs ht hrun hstep, rfl, rfl⟩
  · rename_i hrest
    cases h
    rw [← hpolled] at hrest ⊢
    exact ⟨_, .rests ht hrest, rfl, rfl⟩

/-! ### Rounds -/

/-- The turns that a round takes from a position on, and what they lead to.  A turn that ends the frame
is the last one. -/
inductive Turns (fuel : Nat) : Nat → Interpreter → List Turn → Interpreter → Prop
  | nil (i : Nat) (s : Interpreter) : Turns fuel i s [] s
  | cons {i : Nat} {s s' : Interpreter} {u : Turn} {log : List Turn} :
      s.Takes fuel i u → u.failure? = none ∨ log = [] → Turns fuel (i + 1) u.after log s' →
      Turns fuel i s (u :: log) s'

/-- What came before a turn of a round. -/
theorem Turns.split {fuel : Nat} {log more : List Turn} {u : Turn} :
    ∀ {i : Nat} {s s' : Interpreter}, s.Turns fuel i (log ++ u :: more) s' →
      s.Turns fuel i log u.before ∧ u.before.Takes fuel (i + log.length) u ∧
        u.after.Turns fuel (i + log.length + 1) more s' := by
  induction log with
  | nil =>
    intro i s s' h
    cases h with
    | cons htakes _ hmore =>
      obtain ⟨rfl, -⟩ := htakes.before_eq
      exact ⟨.nil i _, htakes, hmore⟩
  | cons v log ih =>
    intro i s s' h
    cases h with
    | cons htakes hlast hrest =>
      obtain ⟨hlog, hturn, hmore⟩ := ih hrest
      rw [List.length_cons, ← Nat.add_assoc, Nat.add_right_comm]
      refine ⟨.cons htakes (.inl (hlast.resolve_right ?_)) hlog, hturn, hmore⟩
      exact List.append_ne_nil_of_right_ne_nil _ (List.cons_ne_nil u more)

/-- Every log of a round is the beginning of the log of the whole round. -/
theorem Turns.isPrefix {fuel i : Nat} {s s' : Interpreter} {log : List Turn}
    (h : s.Turns fuel i log s') (hover : s'.threads.length ≤ i + log.length) :
    ∀ {log' : List Turn} {s'' : Interpreter}, s.Turns fuel i log' s'' → log' <+: log := by
  induction h with
  | nil i s =>
    intro log' s'' h'
    cases h' with
    | nil => exact List.prefix_refl _
    | cons htakes _ _ => exact absurd htakes.lt (Nat.not_lt_of_le hover)
  | cons htakes _ _ ih =>
    intro log' s'' h'
    cases h' with
    | nil => exact List.nil_prefix
    | cons htakes' _ hrest =>
      cases htakes.unique htakes'
      rw [List.length_cons, ← Nat.add_assoc, Nat.add_right_comm] at hover
      exact List.cons_prefix_cons.mpr ⟨rfl, ih hover hrest⟩

/-- The turns of a round have a log.  It ends with the error that ends the frame, or when every thread
has had its turn. -/
theorem turns_log {fuel : Nat} :
    ∀ {gas i stepped n : Nat} {failure : Option ExecError} {s s' : Interpreter},
      turns fuel gas i stepped s = some (n, failure, s') →
      ∃ log, s.Turns fuel i log s' ∧ log.getLast?.bind Turn.failure? = failure ∧
        (failure = none → s'.threads.length ≤ i + log.length)
  | 0, _, _, _, _, _, _, h => by cases h
  | gas + 1, i, stepped, n, failure, s, s', h => by
    -- a turn that does not end the frame is followed by the others
    have hnext : ∀ {o s₁ stepped'}, i < s.threads.length → s.turn fuel i = some (o, s₁) →
        (∀ e, o = some (.error e) → s₁.isFatal e = false) →
        turns fuel gas (i + 1) stepped' s₁ = some (n, failure, s') →
        ∃ log, s.Turns fuel i log s' ∧ log.getLast?.bind Turn.failure? = failure ∧
          (failure = none → s'.threads.length ≤ i + log.length) := by
      intro o s₁ stepped' hi hturn hfatal hrest
      obtain ⟨u, htakes, ho, rfl⟩ := turn_takes hi hturn
      have hgoes : u.failure? = none := by
        rw [Turn.failure?]
        split
        · rename_i e s₂ hslice
          rw [hslice] at ho
          rw [hfatal e ho.symm]
          rfl
        · rfl
      obtain ⟨log, hlog, hlast, hover⟩ := turns_log hrest
      refine ⟨u :: log, .cons htakes (.inl hgoes) hlog, ?_, fun hnone => ?_⟩
      · cases log with
        | nil => exact hgoes.trans hlast
        | cons v log => exact hlast
      · rw [List.length_cons, ← Nat.add_assoc, Nat.add_right_comm]
        exact hover hnone
    rw [turns] at h
    split at h
    · rename_i hi
      split at h
      · cases h
      · rename_i hturn
        exact hnext hi hturn (fun e he => by cases he) h
      · rename_i hturn
        exact hnext hi hturn (fun e he => by cases he) h
      · rename_i e s₁ hturn
        split at h
        · rename_i hfatal
          cases h
          obtain ⟨u, htakes, ho, rfl⟩ := turn_takes hi hturn
          obtain ⟨⟨outcome, s₂⟩, hslice, rfl⟩ := Option.map_eq_some_iff.mp ho
          refine ⟨[u], .cons htakes (.inr rfl) (.nil ..), ?_, fun hnone => by cases hnone⟩
          simp only [List.getLast?_singleton, Option.bind_some, Turn.failure?, hslice, hfatal, if_true]
        · rename_i hfatal
          refine hnext hi hturn (fun e' he => ?_) h
          cases he
          exact Bool.eq_false_iff.mpr hfatal
    · rename_i hi
      cases h
      exact ⟨[], .nil i s, rfl, fun _ => Nat.le_of_not_lt hi⟩

theorem round_cases {fuel active finished : Nat} {failure : Option ExecError} {s s' : Interpreter}
    (h : s.round fuel = some (active, finished, failure, s')) :
    ∃ s₁, turns fuel fuel 0 0 s = some (active, failure, s₁) ∧ s₁.compact.1 = finished ∧
      (if failure.isSome then s₁.compact.2 else s₁.compact.2.settleWatchers) = s' := by
  obtain ⟨⟨n, f, s₁⟩, hturns, heq⟩ := Option.map_eq_some_iff.mp h
  cases heq
  exact ⟨s₁, hturns, rfl, rfl⟩

/-! ### Frames -/

/-- A report with another round added. -/
def Report.add (active finished : Nat) (r : Report) : Report :=
  { r with
    rounds := r.rounds + 1
    stepped := r.stepped + active
    finished := r.finished + finished }

/-- Whether a frame goes on after a round: threads are left and were active, the budget is not spent,
and no redraw is waited for. -/
def goesOn (budget : Budget) (active : Nat) (report : Report) (s : Interpreter) : Bool :=
  !(s.threads.isEmpty || active = 0) && !budget.isSpent report.rounds &&
    !(!s.settings.turbo && s.world.services.redraw)

/-- The states in which a frame begins a round, each with the report so far. -/
inductive BeginsRound (fuel : Nat) (budget : Budget) (s : Interpreter) : Report → Interpreter → Prop
  | first : BeginsRound fuel budget s {} s.beginFrame
  | next {report : Report} {s₁ s₂ : Interpreter} {active finished : Nat} :
      BeginsRound fuel budget s report s₁ → s₁.round fuel = some (active, finished, none, s₂) →
      s₂.goesOn budget active (report.add active finished) = true →
      BeginsRound fuel budget s (report.add active finished) s₂

/-- What a frame comes to by its last round. -/
def Report.outcome (report : Report) (timedOut : Bool) : Option ExecError → Except ExecError Report
  | some e => .error e
  | none => .ok { report with timedOut }

theorem rounds_round {fuel : Nat} {budget : Budget} {s : Interpreter} :
    ∀ {gas : Nat} {report : Report} {r : Except ExecError Report} {s₁ s' : Interpreter},
      s.BeginsRound fuel budget report s₁ → rounds fuel budget gas report s₁ = some (r, s') →
      ∃ report' s₂ active finished failure timedOut, s.BeginsRound fuel budget report' s₂ ∧
        s₂.round fuel = some (active, finished, failure, s') ∧
        (report'.add active finished).outcome timedOut failure = r
  | 0, _, _, _, _, _, h => by cases h
  | gas + 1, report, r, s₁, s', hbegins, h => by
    rw [rounds] at h
    split at h
    · cases h
    · rename_i active finished e s₂ hround
      cases h
      exact ⟨report, s₁, active, finished, some e, false, hbegins, hround, rfl⟩
    · rename_i active finished s₂ hround
      simp only at h
      split at h
      · cases h
        exact ⟨report, s₁, active, finished, none, report.timedOut, hbegins, hround, rfl⟩
      · rename_i hleft
        split at h
        · cases h
          exact ⟨report, s₁, active, finished, none, true, hbegins, hround, rfl⟩
        · rename_i hbudget
          split at h
          · cases h
            exact ⟨report, s₁, active, finished, none, report.timedOut, hbegins, hround, rfl⟩
          · rename_i hredraw
            refine rounds_round (hbegins.next hround ?_) h
            simp only [goesOn, Bool.and_eq_true, Bool.not_eq_true']
            exact ⟨⟨Bool.eq_false_iff.mpr hleft, Bool.eq_false_iff.mpr hbudget⟩,
              Bool.eq_false_iff.mpr hredraw⟩

/-- A frame comes to its end by one of the rounds that it begins. -/
theorem stepThreads_round {fuel : Nat} {budget : Budget} {r : Except ExecError Report}
    {s s' : Interpreter} (h : s.stepThreads fuel budget = some (r, s')) :
    ∃ report s₁ active finished failure timedOut, s.BeginsRound fuel budget report s₁ ∧
      s₁.round fuel = some (active, finished, failure, s') ∧
      (report.add active finished).outcome timedOut failure = r :=
  rounds_round .first h

/-- A frame that fails does so by the last turn of a round. -/
theorem stepThreads_fails {fuel : Nat} {budget : Budget} {e : ExecError} {s s' : Interpreter}
    (h : s.stepThreads fuel budget = some (.error e, s')) :
    ∃ report s₁ active finished log u s₂, s.BeginsRound fuel budget report s₁ ∧
      s₁.round fuel = some (active, finished, some e, s') ∧ s₁.Turns fuel 0 (log ++ [u]) s₂ ∧
      u.failure? = some e ∧ s₂.compact.2 = s' := by
  obtain ⟨report, s₁, active, finished, failure, timedOut, hbegins, hround, houtcome⟩ :=
    stepThreads_round h
  obtain ⟨s₂, hturns, -, hcompact⟩ := round_cases hround
  obtain ⟨log, hlog, hlast, -⟩ := turns_log hturns
  cases failure with
  | none => cases houtcome
  | some e' =>
    cases houtcome
    obtain ⟨u, hu, hfails⟩ := Option.bind_eq_some_iff.mp hlast
    obtain ⟨before, rfl⟩ := List.getLast?_eq_some_iff.mp hu
    exact ⟨report, s₁, active, finished, before, u, s₂, hbegins, hround, hlog, hfails, hcompact⟩

end Interpreter

end Blockwork
