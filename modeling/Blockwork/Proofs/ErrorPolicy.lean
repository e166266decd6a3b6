import Blockwork.Proofs.Effects
import Blockwork.Proofs.RoundOrder

/-!
What the scheduler does when a block fails.

A frame fails with the error of one slice, in the middle of a round.  The thread of that slice is gone
afterwards; its effects have been carried out, and the threads after it are as they were at the start of
the round, but for what effects have done to them (`ChangedBy`).

If failing threads are only retired, a frame fails by violations alone.  All that the scheduler makes of
any other failure is that the thread is done and that a slice has been run, which is what it makes of a
script that ends itself.  This is shown by comparing the scheduler with one in which such scripts do end
themselves (`Thread.stepExiting`).
-/

namespace Blockwork

open Relation

/-! ### Failing slices -/

namespace Thread

/-- A slice that fails ends its thread. -/
theorem done_of_step_error {t t' : Thread} {fuel : Nat} {w w' : World} {e : ExecError}
    (h : t.step fuel w = some (.error e, t', w')) : t'.status = .done := by
  rw [step] at h
  split at h
  · cases h
  · split at h
    · cases h
      rfl
    · obtain ⟨⟨result, m⟩, -, heq⟩ := Option.map_eq_some_iff.mp h
      simp only [Prod.mk.injEq] at heq
      obtain ⟨hresult, rfl, -⟩ := heq
      cases result with
      | error e => rfl
      | ok slice => cases hresult

end Thread

/-! ### What becomes of one thread -/

/-- What an effect can do to the thread with a number: start it, start it over, retire it, or take it
out. -/
inductive Touches (id : Nat) : Option Thread → Option Thread → Prop
  | launch (script : Script) (target : Nat) (payload : Option Value) :
      Touches id none (some (.launch id script target payload))
  | restart (t : Thread) (payload : Option Value) : Touches id (some t) (some (t.restart payload))
  | retire (t : Thread) : Touches id (some t) (some t.retire)
  | stop (t : Thread) : Touches id (some t) none

/-- Effects in order, each carried out on what it is given with, account for all that happens to the
thread with the number. -/
inductive ChangedBy (id : Nat) :
    List (Interpreter × Effect) → Option Thread → Option Thread → Prop
  | nil (o : Option Thread) : ChangedBy id [] o o
  | cons {s : Interpreter} {e : Effect} {rest : List (Interpreter × Effect)} {o : Option Thread} :
      ReflTransGen (Touches id) (s.thread? id) ((s.applyEffect e).thread? id) →
      ChangedBy id rest ((s.applyEffect e).thread? id) o →
      ChangedBy id ((s, e) :: rest) (s.thread? id) o

theorem ChangedBy.append {id : Nat} {xs ys : List (Interpreter × Effect)} {o o' o'' : Option Thread}
    (h : ChangedBy id xs o o') (h' : ChangedBy id ys o' o'') : ChangedBy id (xs ++ ys) o o'' := by
  induction h with
  | nil => exact h'
  | cons htouches _ ih => exact .cons htouches (ih h')

namespace Interpreter

theorem thread?_map {s : Interpreter} {f : Thread → Thread} (hf : ∀ t, (f t).id = t.id) (id : Nat) :
    ({ s with threads := s.threads.map f } : Interpreter).thread? id = (s.thread? id).map f := by
  rw [thread?, List.find?_map, thread?]
  congr 2
  funext t
  exact congrArg (fun n => decide (n = id)) (hf t)

theorem thread?_append (s : Interpreter) (t : Thread) (n id : Nat) :
    ({ s with threads := s.threads ++ [t], nextId := n } : Interpreter).thread? id =
      (s.thread? id).or (if t.id = id then some t else none) := by
  rw [thread?, List.find?_append, thread?]
  congr 1
  by_cases h : t.id = id <;> simp [h]

theorem launch_touches (id : Nat) (script : Script) (target : Nat) (payload : Option Value)
    (restart : Bool) (s : Interpreter) :
    ReflTransGen (Touches id) (s.thread? id)
      ((s.launch script target payload restart).2.thread? id) := by
  rcases s.launch_cases script target payload restart with ⟨-, t, -, -, heq⟩ | ⟨-, heq⟩
  · rw [heq, modifyThread, thread?_map]
    · cases s.thread? id with
      | none => exact .refl
      | some t' =>
        rw [Option.map_some]
        split
        · exact .single (.restart t' payload)
        · exact .refl
    · intro t'
      split <;> rfl
  · rw [heq, thread?_append]
    cases hid : s.thread? id with
    | some t => exact .refl
    | none =>
      rw [Option.none_or]
      split
      · rename_i hnew
        have hnew : s.nextId = id := hnew
        rw [hnew]
        exact .single (.launch script target payload)
      · exact .refl

theorem launchAll_touches (id : Nat) (payload : Option Value) (xs : List (Nat × Script × Bool))
    (s : Interpreter) :
    ReflTransGen (Touches id) (s.thread? id) ((launchAll payload xs s).2.thread? id) := by
  induction xs generalizing s with
  | nil => exact .refl
  | cons x xs ih => exact (launch_touches id x.2.1 x.1 payload x.2.2 s).trans (ih _)

theorem applyEffect_touches (id : Nat) (s : Interpreter) (e : Effect) :
    ReflTransGen (Touches id) (s.thread? id) ((s.applyEffect e).thread? id) := by
  cases e with
  | broadcast t completion =>
    have htrigger : ReflTransGen (Touches id) (s.thread? id) ((s.trigger t).2.thread? id) :=
      launchAll_touches id t.payload _ s
    simp only [applyEffect]
    split
    · exact htrigger
    · split <;> exact htrigger
  | stopAll =>
    cases h : s.thread? id with
    | none => exact .refl
    | some t => exact .single (.stop t)
  | stopOthers target except =>
    simp only [applyEffect]
    rw [thread?_map]
    · cases s.thread? id with
      | none => exact .refl
      | some t =>
        rw [Option.map_some]
        split
        · exact .single (.retire t)
        · exact .refl
    · intro t
      split <;> rfl

theorem effects_changedBy (id : Nat) (effects : List Effect) (s : Interpreter) :
    ChangedBy id (effectsFrom effects s) (s.thread? id)
      ((effects.foldl applyEffect s).thread? id) := by
  induction effects generalizing s with
  | nil => exact .nil _
  | cons e effects ih => exact .cons (applyEffect_touches id s e) (ih _)

/-- Putting a thread in the place of one with the same number leaves the others alone. -/
theorem thread?_set {s : Interpreter} {i id : Nat} {t : Thread} (ht : s.threads[i]? = some t)
    (hne : t.id ≠ id) {t' : Thread} (hid : t'.id = t.id) (w : World) :
    ({ s with threads := s.threads.set i t', world := w } : Interpreter).thread? id =
      s.thread? id := by
  obtain ⟨hi, rfl⟩ := List.getElem?_eq_some_iff.mp ht
  have hsplit : s.threads = s.threads.take i ++ s.threads[i] :: s.threads.drop (i + 1) := by
    simp
  rw [thread?, thread?, List.set_eq_take_append_cons_drop, if_pos hi]
  conv_rhs => rw [hsplit]
  rw [List.find?_append, List.find?_append, List.find?_cons_of_neg, List.find?_cons_of_neg]
  · simpa using hne
  · simpa [hid] using hne

/-- A turn of another thread. -/
theorem Takes.changedBy {fuel i id : Nat} {s : Interpreter} {u : Turn} (h : s.Takes fuel i u)
    (hne : u.thread? ≠ some id) : ChangedBy id u.effects (s.thread? id) (u.after.thread? id) := by
  cases h with
  | @rests t ht _ =>
    have hid : t.id ≠ id := fun hid => hne (by rw [Turn.thread?, ht, Option.map_some, hid])
    have hset := thread?_set ht hid (s.same_polled t).id s.world
    exact hset ▸ .nil _
  | @runs t t' w outcome ht _ hstep =>
    have hid : t.id ≠ id := fun hid => hne (by rw [Turn.thread?, ht, Option.map_some, hid])
    have hsame : t.Same t' := (s.same_polled t).trans (Thread.same_step hstep)
    let slice : Interpreter := { s with threads := s.threads.set i t', world := w }
    have hset : (Moment.taking slice).state.thread? id = s.thread? id :=
      thread?_set ht hid hsame.id _
    have heffects := effects_changedBy id (Moment.taking slice).queue (Moment.taking slice).state
    rw [hset] at heffects
    exact heffects

theorem Turns.changedBy {fuel i id : Nat} {s s' : Interpreter} {log : List Turn}
    (h : s.Turns fuel i log s') (hne : ∀ u ∈ log, u.thread? ≠ some id) :
    ChangedBy id (log.flatMap Turn.effects) (s.thread? id) (s'.thread? id) := by
  induction h with
  | nil => exact .nil _
  | cons htakes _ _ ih =>
    rw [List.flatMap_cons]
    exact (htakes.changedBy (hne _ (List.mem_cons_self ..))).append
      (ih fun u hu => hne u (List.mem_cons_of_mem _ hu))

theorem Ordered.thread?_eq_some_iff {s : Interpreter} (hs : s.Ordered) {id : Nat} {t : Thread} :
    s.thread? id = some t ↔ t ∈ s.threads ∧ t.id = id := by
  have hmem : ∀ {t'}, s.thread? id = some t' → t' ∈ s.threads ∧ t'.id = id := by
    intro t' h
    rw [thread?] at h
    exact ⟨List.mem_of_find?_eq_some h, by simpa using List.find?_some h⟩
  refine ⟨hmem, fun ⟨ht, hid⟩ => ?_⟩
  cases h : s.thread? id with
  | none => exact absurd hid (by simpa using List.find?_eq_none.mp h t ht)
  | some t' =>
    obtain ⟨ht', hid'⟩ := hmem h
    rw [hs.eq_of_id ht ht' (hid'.trans hid.symm)]

/-- Taking out the finished threads takes out a thread if it is finished. -/
theorem thread?_compact {s : Interpreter} (hs : s.Ordered) (id : Nat) :
    s.compact.2.thread? id = (s.thread? id).filter fun t => !t.isDone := by
  have hcompact : s.compact.2.Ordered :=
    hs.follows (follows_of_sublist rfl (List.filter_sublist.map _))
  have hmem : ∀ t, t ∈ s.compact.2.threads ↔ t ∈ s.threads ∧ (!t.isDone) = true :=
    fun t => List.mem_filter
  refine Option.ext fun t => ?_
  rw [Option.filter_eq_some_iff, hcompact.thread?_eq_some_iff, hs.thread?_eq_some_iff, hmem,
    and_right_comm]

/-! ### Frames that fail -/

/-- How a frame fails with an error: in a round, by the slice of a thread. -/
structure EndsBy (fuel : Nat) (s₁ : Interpreter) (log : List Turn) (u : Turn) (t : Thread)
    (e : ExecError) (s' : Interpreter) : Prop where
  /-- The round has come to the turn. -/
  turns : s₁.Turns fuel 0 (log ++ [u]) u.after
  /-- It is the turn of the thread. -/
  thread : u.before.threads[u.position]? = some t
  /-- Its slice fails with the error. -/
  raises : ∃ t' w, (u.before.polled t).status = .running ∧
    (u.before.polled t).step fuel u.before.world = some (.error e, t', w)
  /-- The error ends the frame. -/
  fatal : s'.isFatal e = true
  /-- The thread is gone. -/
  gone : t.id ∉ s'.ids
  /-- No thread is done. -/
  live : ∀ x ∈ s'.threads, x.isDone = false
  /-- No effect is left. -/
  clear : s'.Clear
  /-- No thread with a larger number has been stepped in the round. -/
  last : ∀ id ∈ (log ++ [u]).filterMap Turn.stepped?, id ≤ t.id
  /-- All that has happened to those in the round is due to effects; then the finished ones have been
  taken out. -/
  others : ∀ id, t.id < id → ∃ o,
    ChangedBy id ((log ++ [u]).flatMap Turn.effects) (s₁.thread? id) o ∧
      s'.thread? id = o.filter fun x => !x.isDone

/-- No live thread has the number of one whose slice has failed, whatever its effects were. -/
theorem not_live_of_error {fuel i : Nat} {s : Interpreter} {t t' : Thread} {w : World}
    {e : ExecError} (hs : s.Sound) (ht : s.threads[i]? = some t)
    (hrun : (s.polled t).status = .running)
    (hstep : (s.polled t).step fuel s.world = some (.error e, t', w)) :
    ¬ (applyEffects { s with threads := s.threads.set i t', world := w }).Live t.id := by
  let slice : Interpreter := { s with threads := s.threads.set i t', world := w }
  have hslice : Acts .handsOff s slice := (slice_careful ht hrun hstep).acts
  have heffects : Acts .handsOff slice slice.applyEffects := (applyEffects_careful slice).acts
  have hsound := hs.acts hslice
  have hbelow := hs.ordered.below _ (List.mem_map_of_mem (List.mem_of_getElem? ht))
  refine hsound.not_live heffects hbelow ?_
  -- it is done right after the slice
  rintro ⟨x, hx, hid, hlive⟩
  have hsame : t.Same t' := (s.same_polled t).trans (Thread.same_step hstep)
  have ht' : t' ∈ slice.threads := List.mem_set (List.getElem?_eq_some_iff.mp ht).1 t'
  rw [hsound.ordered.eq_of_id ht' hx (hid.trans hsame.id.symm)] at hlive
  exact hlive (Thread.done_of_step_error hstep)

/-- A round that is ended by a turn is ended by its thread. -/
theorem endsBy_of_turns {fuel : Nat} {s₁ s₂ : Interpreter} {log : List Turn} {u : Turn}
    {e : ExecError} (hs₁ : s₁.Sound) (h : s₁.Turns fuel 0 (log ++ [u]) s₂)
    (he : u.failure? = some e) : ∃ t, EndsBy fuel s₁ log u t e s₂.compact.2 := by
  obtain ⟨hlog, htakes, hnil⟩ := h.split
  have hincreasing := h.turned_increasing hs₁.ordered
  have hordered := (hs₁.turns h).ordered
  have hafter : u.after = s₂ := by
    cases hnil
    rfl
  subst hafter
  obtain ⟨t, t', w, ht, hrun, hstep, hfatal, hend⟩ := htakes.fails he
  have hposition := htakes.before_eq.2
  rw [← hposition] at ht hend
  have hturn : u.thread? = some t.id := by rw [Turn.thread?, ht, Option.map_some]
  -- no turn before this one was that of a thread with a larger number
  have hle : ∀ id ∈ (log ++ [u]).filterMap Turn.thread?, id ≤ t.id := by
    rw [List.filterMap_append, List.filterMap_cons_some hturn, List.filterMap_nil] at hincreasing ⊢
    intro id hid
    rcases List.mem_append.mp hid with hid | hid
    · exact Nat.le_of_lt
        ((List.pairwise_append.mp hincreasing).2.2 id hid t.id (List.mem_singleton_self _))
    · exact Nat.le_of_eq (List.mem_singleton.mp hid)
  have hlive : ∀ x ∈ u.after.compact.2.threads, x ∈ u.after.threads ∧ x.isDone = false := by
    intro x hx
    obtain ⟨hmem, hdone⟩ := List.mem_filter.mp hx
    exact ⟨hmem, by simpa using hdone⟩
  refine ⟨t, ⟨h, ht, ⟨t', w, hrun, hstep⟩, hfatal, fun hid => ?_, fun x hx => (hlive x hx).2, ?_,
    fun id hid => hle id ((Turn.stepped_sublist _).subset hid), fun id hid => ?_⟩⟩
  · obtain ⟨x, hx, hid⟩ := List.mem_map.mp hid
    obtain ⟨hmem, hdone⟩ := hlive x hx
    have hgone := not_live_of_error (hs₁.turns hlog) ht hrun hstep
    rw [← hend] at hgone
    exact hgone ⟨x, hmem, hid, by simpa [Thread.isDone] using hdone⟩
  · have hclear := clear_applyEffects
      { u.before with threads := u.before.threads.set u.position t', world := w }
    rw [← hend] at hclear
    exact hclear
  · refine ⟨_, h.changedBy fun v hv hvid => ?_, thread?_compact hordered id⟩
    exact absurd (hle id (List.mem_filterMap.mpr ⟨v, hv, hvid⟩)) (Nat.not_le_of_gt hid)

/-! ### The scheduler with another way of stepping threads -/

end Interpreter

/-- A way of stepping threads. -/
abbrev Stepper := Nat → Thread → World → Option (Except ExecError Status × Thread × World)

namespace Interpreter

def turnWith (step : Stepper) (fuel : Nat) (i : Nat) (s : Interpreter) :
    Option (Option (Except ExecError Status) × Interpreter) :=
  match s.threads[i]? with
  | none => some (none, s)
  | some t =>
    if (s.polled t).status = .running then
      (step fuel (s.polled t) s.world).map fun (outcome, t, world) =>
        (some outcome, applyEffects { s with threads := s.threads.set i t, world })
    else some (none, { s with threads := s.threads.set i (s.polled t) })

def turnsWith (step : Stepper) (fuel : Nat) : Nat → Nat → Nat → Interpreter →
    Option (Nat × Option ExecError × Interpreter)
  | 0, _, _, _ => none
  | gas + 1, i, stepped, s =>
    if i < s.threads.length then
      match s.turnWith step fuel i with
      | none => none
      | some (none, s) => turnsWith step fuel gas (i + 1) stepped s
      | some (some (.ok _), s) => turnsWith step fuel gas (i + 1) (stepped + 1) s
      | some (some (.error e), s) =>
        if s.isFatal e then some (stepped + 1, some e, s)
        else turnsWith step fuel gas (i + 1) (stepped + 1) s
    else some (stepped, none, s)

def roundWith (step : Stepper) (fuel : Nat) (s : Interpreter) :
    Option (Nat × Nat × Option ExecError × Interpreter) :=
  (turnsWith step fuel fuel 0 0 s).map fun (active, failure, s) =>
    let (finished, s) := s.compact
    (active, finished, failure, if failure.isSome then s else s.settleWatchers)

def roundsWith (step : Stepper) (fuel : Nat) (budget : Budget) : Nat → Report → Interpreter →
    Option (Except ExecError Report × Interpreter)
  | 0, _, _ => none
  | gas + 1, report, s =>
    match s.roundWith step fuel with
    | none => none
    | some (_, _, some e, s) => some (.error e, s)
    | some (active, finished, none, s) =>
      let report := { report with
        rounds := report.rounds + 1
        stepped := report.stepped + active
        finished := report.finished + finished }
      if s.threads.isEmpty || active = 0 then some (.ok report, s)
      else if budget.isSpent report.rounds then some (.ok { report with timedOut := true }, s)
      else if !s.settings.turbo && s.world.services.redraw then some (.ok report, s)
      else roundsWith step fuel budget gas report s

/-- A frame in which threads are stepped in the given way. -/
def stepThreadsWith (step : Stepper) (fuel : Nat) (budget : Budget) (s : Interpreter) :
    Option (Except ExecError Report × Interpreter) :=
  roundsWith step fuel budget fuel {} s.beginFrame

theorem turnsWith_step (fuel gas i stepped : Nat) (s : Interpreter) :
    turnsWith Thread.step fuel gas i stepped s = turns fuel gas i stepped s := by
  have hturn : ∀ i s, turnWith Thread.step fuel i s = s.turn fuel i := fun _ _ => rfl
  induction gas generalizing i stepped s with
  | zero => rfl
  | succ gas ih =>
    simp only [turnsWith, hturn, ih]
    rfl

theorem roundWith_step (fuel : Nat) (s : Interpreter) :
    s.roundWith Thread.step fuel = s.round fuel := by
  rw [roundWith, round, turnsWith_step]

/-- The scheduler itself steps threads by their slices. -/
theorem stepThreadsWith_step (fuel : Nat) (budget : Budget) (s : Interpreter) :
    s.stepThreadsWith Thread.step fuel budget = s.stepThreads fuel budget := by
  have hrounds : ∀ gas report s,
      roundsWith Thread.step fuel budget gas report s = rounds fuel budget gas report s := by
    intro gas
    induction gas with
    | zero => exact fun _ _ => rfl
    | succ gas ih =>
      intro report s
      simp only [roundsWith, roundWith_step, ih]
      rfl
  exact hrounds ..

/-! ### The settings -/

theorem launch_settings (script : Script) (target : Nat) (payload : Option Value) (restart : Bool)
    (s : Interpreter) : (s.launch script target payload restart).2.settings = s.settings := by
  simp only [launch]
  split <;> rfl

theorem launchAll_settings (payload : Option Value) (xs : List (Nat × Script × Bool))
    (s : Interpreter) : (launchAll payload xs s).2.settings = s.settings := by
  induction xs generalizing s with
  | nil => rfl
  | cons x xs ih => exact (ih _).trans (launch_settings ..)

theorem applyEffect_settings (s : Interpreter) (e : Effect) :
    (s.applyEffect e).settings = s.settings := by
  cases e with
  | broadcast t completion =>
    have htrigger : (s.trigger t).2.settings = s.settings := launchAll_settings ..
    simp only [applyEffect]
    split
    · exact htrigger
    · split <;> exact htrigger
  | stopAll => rfl
  | stopOthers target except => rfl

theorem applyEffects_settings (s : Interpreter) : s.applyEffects.settings = s.settings :=
  applyEffects_induction (P := fun s₁ => s₁.settings = s.settings) rfl
    fun s₁ e hs => (applyEffect_settings s₁ e).trans hs

theorem turnWith_settings {step : Stepper} {fuel i : Nat} {s s' : Interpreter}
    {o : Option (Except ExecError Status)} (h : s.turnWith step fuel i = some (o, s')) :
    s'.settings = s.settings := by
  rw [turnWith] at h
  split at h
  · cases h
    rfl
  · split at h
    · obtain ⟨x, -, heq⟩ := Option.map_eq_some_iff.mp h
      cases heq
      exact applyEffects_settings _
    · cases h
      rfl

theorem turnsWith_settings {step : Stepper} {fuel : Nat} :
    ∀ {gas i stepped n : Nat} {failure : Option ExecError} {s s' : Interpreter},
      turnsWith step fuel gas i stepped s = some (n, failure, s') → s'.settings = s.settings
  | 0, _, _, _, _, _, _, h => by cases h
  | gas + 1, i, stepped, n, failure, s, s', h => by
    rw [turnsWith] at h
    split at h
    · split at h
      · cases h
      · rename_i hturn
        exact (turnsWith_settings h).trans (turnWith_settings hturn)
      · rename_i hturn
        exact (turnsWith_settings h).trans (turnWith_settings hturn)
      · rename_i hturn
        split at h
        · cases h
          exact turnWith_settings hturn
        · exact (turnsWith_settings h).trans (turnWith_settings hturn)
    · cases h
      rfl

theorem roundWith_settings {step : Stepper} {fuel active finished : Nat}
    {failure : Option ExecError} {s s' : Interpreter}
    (h : s.roundWith step fuel = some (active, finished, failure, s')) :
    s'.settings = s.settings := by
  obtain ⟨⟨n, f, s₁⟩, hturns, heq⟩ := Option.map_eq_some_iff.mp h
  cases heq
  have hsettings : s₁.settings = s.settings := turnsWith_settings hturns
  split
  · exact hsettings
  · rw [settleWatchers_eq]
    exact hsettings

theorem BeginsRound.settings {fuel : Nat} {budget : Budget} {report : Report} {s s₁ : Interpreter}
    (h : s.BeginsRound fuel budget report s₁) : s₁.settings = s.settings := by
  induction h with
  | first => rfl
  | next _ hround _ ih =>
    rw [← roundWith_step] at hround
    exact (roundWith_settings hround).trans ih

/-! ### Retiring failing threads -/

/-- What counts of the outcome of a slice if failing threads are only retired. -/
def violation? : Except ExecError Status → Option ExecError
  | .error e => if e.isProtocolViolation then some e else none
  | .ok _ => none

/-- The two ways of stepping threads differ at most in the failures that only retire the thread. -/
def SameButRetired (step step' : Stepper) : Prop :=
  ∀ fuel t w, (step fuel t w).map (fun x => (violation? x.1, x.2)) =
    (step' fuel t w).map fun x => (violation? x.1, x.2)

theorem turnsWith_succ (step : Stepper) {fuel i : Nat} (gas stepped : Nat) {s : Interpreter}
    (hs : s.settings.errorPolicy = .retireThread) (hi : i < s.threads.length) :
    turnsWith step fuel (gas + 1) i stepped s =
      ((s.turnWith step fuel i).map fun x => (x.1.map violation?, x.2)).bind fun
        | (none, s') => turnsWith step fuel gas (i + 1) stepped s'
        | (some none, s') => turnsWith step fuel gas (i + 1) (stepped + 1) s'
        | (some (some e), s') => some (stepped + 1, some e, s') := by
  rw [turnsWith, if_pos hi]
  cases hturn : s.turnWith step fuel i with
  | none => rfl
  | some x =>
    obtain ⟨o, s'⟩ := x
    have hfatal : ∀ e, s'.isFatal e = e.isProtocolViolation := by
      intro e
      rw [isFatal, turnWith_settings hturn, hs]
      simp
    rcases o with _ | _ | status
    · rfl
    · rename_i e
      simp only [hfatal, Option.map_some, Option.bind_some, violation?]
      split <;> rfl
    · rfl

theorem turnWith_congr {step step' : Stepper} (h : SameButRetired step step') (fuel i : Nat)
    (s : Interpreter) :
    (s.turnWith step fuel i).map (fun x => (x.1.map violation?, x.2)) =
      (s.turnWith step' fuel i).map fun x => (x.1.map violation?, x.2) := by
  rw [turnWith, turnWith]
  cases s.threads[i]? with
  | none => rfl
  | some t =>
    simp only
    split
    · have hstep := congrArg (Option.map fun x : Option ExecError × Thread × World =>
        (some x.1, applyEffects { s with threads := s.threads.set i x.2.1, world := x.2.2 }))
        (h fuel (s.polled t) s.world)
      rw [Option.map_map, Option.map_map] at hstep ⊢
      exact hstep
    · rfl

theorem turnsWith_congr {step step' : Stepper} (h : SameButRetired step step') (fuel : Nat) :
    ∀ (gas i stepped : Nat) {s : Interpreter}, s.settings.errorPolicy = .retireThread →
      turnsWith step fuel gas i stepped s = turnsWith step' fuel gas i stepped s
  | 0, _, _, _, _ => rfl
  | gas + 1, i, stepped, s, hs => by
    by_cases hi : i < s.threads.length
    · rw [turnsWith_succ step gas stepped hs hi, turnsWith_succ step' gas stepped hs hi,
        turnWith_congr h]
      refine Option.bind_congr fun x hx => ?_
      obtain ⟨⟨o, s'⟩, hturn, rfl⟩ := Option.map_eq_some_iff.mp hx
      have hs' : s'.settings.errorPolicy = .retireThread := by rw [turnWith_settings hturn, hs]
      rcases o.map violation? with _ | _ | e
      · exact turnsWith_congr h fuel gas (i + 1) stepped hs'
      · exact turnsWith_congr h fuel gas (i + 1) (stepped + 1) hs'
      · rfl
    · rw [turnsWith, turnsWith, if_neg hi, if_neg hi]

theorem roundsWith_congr {step step' : Stepper} (h : SameButRetired step step') (fuel : Nat)
    (budget : Budget) :
    ∀ (gas : Nat) (report : Report) {s : Interpreter}, s.settings.errorPolicy = .retireThread →
      roundsWith step fuel budget gas report s = roundsWith step' fuel budget gas report s
  | 0, _, _, _ => rfl
  | gas + 1, report, s, hs => by
    have hround : s.roundWith step fuel = s.roundWith step' fuel := by
      rw [roundWith, roundWith, turnsWith_congr h fuel fuel 0 0 hs]
    rw [roundsWith, roundsWith, hround]
    split
    · rfl
    · rfl
    · rename_i hnext
      have hs' := (congrArg SchedulerSettings.errorPolicy (roundWith_settings hnext)).trans hs
      simp only
      rw [roundsWith_congr h fuel budget gas _ hs']

end Interpreter

/-! ### Scripts that end themselves in place of failing -/

/-- The end of a slice, unless it fails; then it ends its script instead, except for violations. -/
def exiting : Except ExecError Slice → Except ExecError Slice
  | .error e => if e.isProtocolViolation then .error e else .ok .exited
  | .ok slice => .ok slice

namespace Thread

/-- The slice of a running thread. -/
def slice (fuel : Nat) (t : Thread) (w : World) : Option (Except ExecError Slice × Machine) :=
  if (w.scene.target? t.target).isNone then some (.error (.unknownTarget t.target), t.machine w)
  else Machine.drive fuel (t.machine w)

theorem step_eq_slice {t : Thread} (hr : t.status = .running) (fuel : Nat) (w : World) :
    t.step fuel w = (t.slice fuel w).map fun x =>
      (x.1.map fun _ => (t.absorb x.1 x.2).status, t.absorb x.1 x.2, x.2.cx.world) := by
  rw [slice]
  split
  · rename_i hunknown
    rw [step_of_unknown hr hunknown]
    rfl
  · rename_i hknown
    rw [step_of_running hr (Bool.eq_false_iff.mpr hknown)]

/-- Steps a thread, except that the chosen ones end their scripts where their slices would fail. -/
def stepExiting (exits : Thread → World → Bool) : Stepper := fun fuel t w =>
  if t.status = .running ∧ exits t w then
    (t.slice fuel w).map fun (result, m) =>
      let t := t.absorb (exiting result) m
      ((exiting result).map fun _ => t.status, t, m.cx.world)
  else t.step fuel w

theorem sameButRetired_stepExiting (exits : Thread → World → Bool) :
    Interpreter.SameButRetired (stepExiting exits) step := by
  intro fuel t w
  rw [stepExiting]
  split
  · rename_i hexits
    rw [step_eq_slice hexits.1, Option.map_map, Option.map_map]
    refine congrArg (Option.map · (t.slice fuel w)) (funext fun x => ?_)
    obtain ⟨result, m⟩ := x
    cases result with
    | ok slice => rfl
    | error e =>
      -- a thread that has failed is left as one that has ended its script
      cases hviolation : e.isProtocolViolation with
      | true => simp only [Function.comp, exiting, hviolation, if_true]
      | false =>
        simp only [Function.comp, exiting, hviolation, Bool.false_eq_true, if_false, Except.map,
          Interpreter.violation?]
        rfl
  · rfl

end Thread

open Interpreter in
/-- What becomes of failures, in every session.  A frame that fails does so by the slice of one thread,
which is gone afterwards; no thread is left done and no effect is left over, and the threads with larger
numbers have not been stepped in that round, and have only been changed by effects.  If failing threads
are only retired, then only violations end a frame; any other failure, of whichever slices, is as good as
the end of the script at the same point: the frame comes to the same. -/
theorem failures_end_frame_or_thread {scene : Scene} {s : Interpreter}
    (hs : s.Session .unbound scene) (fuel : Nat) (budget : Budget) :
    (∀ e s', s.stepThreads fuel budget = some (.error e, s') →
      ∃ report s₁ log u t, s.BeginsRound fuel budget report s₁ ∧ EndsBy fuel s₁ log u t e s') ∧
    (s.settings.errorPolicy = .retireThread →
      (∀ e s', s.stepThreads fuel budget = some (.error e, s') → e.isProtocolViolation = true) ∧
      ∀ exits, s.stepThreadsWith (Thread.stepExiting exits) fuel budget =
        s.stepThreads fuel budget) := by
  have hends : ∀ e s', s.stepThreads fuel budget = some (.error e, s') →
      s'.settings = s.settings ∧
      ∃ report s₁ log u t, s.BeginsRound fuel budget report s₁ ∧ EndsBy fuel s₁ log u t e s' := by
    intro e s' h
    obtain ⟨report, s₁, active, finished, log, u, s₂, hbegins, hround, hlog, hfails, hcompact⟩ :=
      stepThreads_fails h
    obtain ⟨t, hend⟩ := endsBy_of_turns (hs.sound.beginsRound hbegins) hlog hfails
    rw [← roundWith_step] at hround
    refine ⟨(roundWith_settings hround).trans hbegins.settings, report, s₁, log, u, t, hbegins, ?_⟩
    rw [← hcompact]
    exact hend
  refine ⟨fun e s' h => (hends e s' h).2, fun hpolicy => ⟨fun e s' h => ?_, fun exits => ?_⟩⟩
  · obtain ⟨hsettings, report, s₁, log, u, t, -, hend⟩ := hends e s' h
    have hfatal := hend.fatal
    rw [isFatal, hsettings, hpolicy] at hfatal
    simpa using hfatal
  · rw [← stepThreadsWith_step]
    exact roundsWith_congr (Thread.sameButRetired_stepExiting exits) fuel budget fuel {} hpolicy

/-- Sets a variable that nobody has. -/
def Script.failing : Script :=
  ⟨.mk (Library.command "data_setvariableto" [("VARIABLE", .field), ("VALUE", .any)] .setVariable)
    "lost" 0 [("VARIABLE", .literal (.str "lost")), ("VALUE", .literal (.bool true))], []⟩

def Script.showing : Script := ⟨.mk (Library.command "looks_show" [] .reveal) "show" 1 [], []⟩

/-- Two threads, of which the first is about to fail. -/
def Interpreter.failing (policy : ErrorPolicy) : Interpreter :=
  (((fresh { targets := [.stage], stage := some 0 } {} { errorPolicy := policy }).launch .failing 0
    none false).2.launch .showing 0 none false).2

theorem Interpreter.failing_session (policy : ErrorPolicy) :
    (failing policy).Session .unbound { targets := [.stage], stage := some 0 } :=
  @Session.perform _ _ 8 (.launch .showing 0 none false) _ _
    (@Session.perform _ _ 8 (.launch .failing 0 none false) _ _ (.fresh {} _) trivial rfl) trivial rfl

/-- If failures end the frame, the second thread has not been touched.  If they only retire the thread,
it has run to its end, and the frame comes to what it would come to if the first script had ended
itself. -/
theorem failures_end_frame_or_thread_failing :
    (∃ s' s₁ log u t, (Interpreter.failing .abortFrame).stepThreads 8 .unlimited =
        some (.error (.unknownVariable "lost"), s') ∧
      Interpreter.EndsBy 8 s₁ log u t (.unknownVariable "lost") s' ∧ s'.ids = [1] ∧
      s'.thread? 1 = (Interpreter.failing .abortFrame).thread? 1) ∧
    ∃ report s', (Interpreter.failing .retireThread).stepThreads 8 .unlimited =
        some (.ok report, s') ∧ report.finished = 2 ∧
      (Interpreter.failing .retireThread).stepThreadsWith (Thread.stepExiting fun t _ => t.id = 0) 8
        .unlimited = some (.ok report, s') := by
  have hfails : (Interpreter.failing .abortFrame).stepThreads 8 .unlimited =
    some (.error (.unknownVariable "lost"), _) := rfl
  have hretires : (Interpreter.failing .retireThread).stepThreads 8 .unlimited =
    some (.ok _, _) := rfl
  obtain ⟨hends, -⟩ :=
    failures_end_frame_or_thread (Interpreter.failing_session .abortFrame) 8 .unlimited
  obtain ⟨-, hisolated⟩ :=
    failures_end_frame_or_thread (Interpreter.failing_session .retireThread) 8 .unlimited
  obtain ⟨report, s₁, log, u, t, -, hend⟩ := hends _ _ hfails
  exact ⟨⟨_, s₁, log, u, t, hfails, hend, rfl, rfl⟩, _, _, hretires, rfl, (hisolated rfl).2 _⟩

end Blockwork
