import Blockwork.Proofs.Acts
import Blockwork.Proofs.BroadcastWait

/-!
Threads stay in the order in which they were registered, and none is lost.

Numbers are given out in order and never again, and nothing that happens to the threads moves one past
another: whatever comes after a state has the threads of that state, some of them perhaps missing,
followed by some with the numbers given out since (`Follows`).  An effect that does not stop all threads
takes none out (`Adds`), so within a frame a thread goes missing in two ways only: it was done when the
finished threads were taken out, or it was there when an effect stopped all of them.
-/

namespace Blockwork

/-! ### What becomes of a thread -/

/-- The thread has the same number, and runs the same script on the same target. -/
structure Thread.Same (t t' : Thread) : Prop where
  id : t'.id = t.id
  script : t'.script = t.script
  target : t'.target = t.target

/-- The thread is the same one, and has not been restarted. -/
structure Thread.Continues (t t' : Thread) : Prop extends t.Same t' where
  generation : t'.generation = t.generation

namespace Thread

theorem Same.refl (t : Thread) : t.Same t := ⟨rfl, rfl, rfl⟩

theorem Same.trans {t t' t'' : Thread} (h : t.Same t') (h' : t'.Same t'') : t.Same t'' :=
  ⟨h'.id.trans h.id, h'.script.trans h.script, h'.target.trans h.target⟩

theorem same_resolve (generation : Nat) (v : Value) (t : Thread) :
    t.Same (t.resolve generation v).2 := by
  rw [resolve]
  split <;> exact ⟨rfl, rfl, rfl⟩

theorem same_poll (s : Signals) (t : Thread) : t.Same (t.poll s).2 := by
  rw [poll]
  split
  · exact .refl t
  · split
    · rename_i p _ _ v _ _
      have h := same_resolve p.generation v { t with pending := none }
      exact ⟨h.id, h.script, h.target⟩
    · exact ⟨rfl, rfl, rfl⟩

theorem same_absorb (t : Thread) (result : Except ExecError Slice) (m : Machine) :
    t.Same (t.absorb result m) := by
  rcases result with e | slice
  · exact ⟨rfl, rfl, rfl⟩
  · cases slice with
    | awaiting a =>
      have h := same_poll m.cx.world.signals
        ({ t with stack := m.stack, calls := m.cx.calls, status := .parked,
                  pending := some ⟨t.generation, a⟩ } : Thread)
      exact ⟨h.id, h.script, h.target⟩
    | finished v => exact ⟨rfl, rfl, rfl⟩
    | yielded => exact ⟨rfl, rfl, rfl⟩
    | exited => exact ⟨rfl, rfl, rfl⟩

theorem same_step {t t' : Thread} {fuel : Nat} {w w' : World} {outcome : Except ExecError Status}
    (h : t.step fuel w = some (outcome, t', w')) : t.Same t' := by
  rw [step] at h
  split at h
  · cases h
    exact .refl t
  · split at h
    · cases h
      exact ⟨rfl, rfl, rfl⟩
    · obtain ⟨⟨result, m⟩, -, heq⟩ := Option.map_eq_some_iff.mp h
      cases heq
      exact t.same_absorb result m

theorem Handled.same {t t' : Thread} (h : t.Handled t') : t.Same t' := by
  cases h with
  | poll signals => exact same_poll signals t
  | resolve generation v => exact same_resolve generation v t
  | restart payload => exact ⟨rfl, rfl, rfl⟩
  | retire => exact ⟨rfl, rfl, rfl⟩
  | step hstep => exact same_step hstep

theorem Continues.refl (t : Thread) : t.Continues t := ⟨.refl t, rfl⟩

theorem Continues.trans {t t' t'' : Thread} (h : t.Continues t') (h' : t'.Continues t'') :
    t.Continues t'' :=
  ⟨h.toSame.trans h'.toSame, h'.generation.trans h.generation⟩

theorem generation_resolve (generation : Nat) (v : Value) (t : Thread) :
    (t.resolve generation v).2.generation = t.generation := by
  rw [resolve]
  split <;> rfl

theorem continues_poll (s : Signals) (t : Thread) : t.Continues (t.poll s).2 := by
  refine ⟨same_poll s t, ?_⟩
  rw [poll]
  split
  · rfl
  · split
    · exact generation_resolve _ _ _
    · rfl

theorem generation_absorb (t : Thread) (result : Except ExecError Slice) (m : Machine) :
    (t.absorb result m).generation = t.generation := by
  rcases result with e | slice
  · rfl
  · cases slice with
    | awaiting a => exact (continues_poll _ _).generation
    | finished v => rfl
    | yielded => rfl
    | exited => rfl

theorem continues_step {t t' : Thread} {fuel : Nat} {w w' : World}
    {outcome : Except ExecError Status} (h : t.step fuel w = some (outcome, t', w')) :
    t.Continues t' := by
  refine ⟨same_step h, ?_⟩
  rw [step] at h
  split at h
  · cases h
    rfl
  · split at h
    · cases h
      rfl
    · obtain ⟨⟨result, m⟩, -, heq⟩ := Option.map_eq_some_iff.mp h
      cases heq
      exact t.generation_absorb result m

end Thread

namespace Interpreter

/-! ### Numbers -/

/-- The numbers of the threads, in order. -/
def ids (s : Interpreter) : List Nat := s.threads.map Thread.id

/-- The numbers given out between two states. -/
def numbers (s s' : Interpreter) : List Nat := List.range' s.nextId (s'.nextId - s.nextId)

theorem numbers_of_eq {s s' : Interpreter} (h : s'.nextId = s.nextId) : numbers s s' = [] := by
  rw [numbers, h, Nat.sub_self, List.range'_zero]

theorem numbers_append {s s' s'' : Interpreter} (h : s.nextId ≤ s'.nextId)
    (h' : s'.nextId ≤ s''.nextId) : numbers s s' ++ numbers s' s'' = numbers s s'' := by
  have hlength : s''.nextId - s.nextId = s'.nextId - s.nextId + (s''.nextId - s'.nextId) := by omega
  rw [numbers, numbers, numbers, hlength, ← List.range'_append_1, Nat.add_sub_cancel' h]

/-- The threads are those of before in the same order, some perhaps missing, and then some that have
been given numbers since. -/
structure Follows (s s' : Interpreter) : Prop where
  le : s.nextId ≤ s'.nextId
  sublist : s'.ids.Sublist (s.ids ++ numbers s s')

/-- Moreover, none is missing. -/
structure Adds (s s' : Interpreter) : Prop where
  le : s.nextId ≤ s'.nextId
  eq : s'.ids = s.ids ++ numbers s s'

theorem follows_of_sublist {s s' : Interpreter} (hnext : s'.nextId = s.nextId)
    (h : s'.ids.Sublist s.ids) : s.Follows s' := by
  refine ⟨Nat.le_of_eq hnext.symm, ?_⟩
  rw [numbers_of_eq hnext, List.append_nil]
  exact h

theorem adds_of_eq {s s' : Interpreter} (hnext : s'.nextId = s.nextId) (h : s'.ids = s.ids) :
    s.Adds s' := by
  refine ⟨Nat.le_of_eq hnext.symm, ?_⟩
  rw [numbers_of_eq hnext, List.append_nil]
  exact h

theorem Adds.refl (s : Interpreter) : s.Adds s := adds_of_eq rfl rfl

theorem Adds.follows {s s' : Interpreter} (h : s.Adds s') : s.Follows s' :=
  ⟨h.le, h.eq ▸ List.Sublist.refl _⟩

theorem Follows.refl (s : Interpreter) : s.Follows s := (Adds.refl s).follows

theorem Follows.trans {s s' s'' : Interpreter} (h : s.Follows s') (h' : s'.Follows s'') :
    s.Follows s'' := by
  refine ⟨Nat.le_trans h.le h'.le, h'.sublist.trans ?_⟩
  rw [← numbers_append h.le h'.le, ← List.append_assoc]
  exact h.sublist.append (List.Sublist.refl _)

theorem Adds.trans {s s' s'' : Interpreter} (h : s.Adds s') (h' : s'.Adds s'') : s.Adds s'' := by
  refine ⟨Nat.le_trans h.le h'.le, ?_⟩
  rw [h'.eq, h.eq, List.append_assoc, numbers_append h.le h'.le]

theorem ids_set {s : Interpreter} {i : Nat} {t t' : Thread} (ht : s.threads[i]? = some t)
    (hid : t'.id = t.id) : (s.threads.set i t').map Thread.id = s.ids := by
  apply List.ext_getElem?
  intro j
  rw [ids, List.getElem?_map, List.getElem?_map]
  by_cases hij : i = j
  · subst hij
    rw [List.getElem?_set_self (List.getElem?_eq_some_iff.mp ht).1, ht, Option.map_some,
      Option.map_some, hid]
  · rw [List.getElem?_set_ne hij]

/-- Changing threads one by one does not touch the numbers. -/
theorem ids_map {s : Interpreter} {f : Thread → Thread} (hf : ∀ t ∈ s.threads, (f t).id = t.id) :
    (s.threads.map f).map Thread.id = s.ids := by
  rw [ids, List.map_map]
  exact List.map_congr_left hf

theorem ids_modifyThread {s : Interpreter} {id : Nat} {f : Thread → Thread}
    (hf : ∀ t ∈ s.threads, t.id = id → (f t).id = t.id) : (s.modifyThread id f).ids = s.ids := by
  refine ids_map fun t ht => ?_
  split
  · rename_i hid
    exact hf t ht hid
  · rfl

theorem adds_modifyThread {s : Interpreter} {id : Nat} {f : Thread → Thread}
    (hf : ∀ t ∈ s.threads, t.id = id → t.Same (f t)) : s.Adds (s.modifyThread id f) :=
  adds_of_eq rfl (ids_modifyThread fun t ht hid => (hf t ht hid).id)

theorem adds_restart (id : Nat) (payload : Option Value) (s : Interpreter) :
    s.Adds (s.modifyThread id (Thread.restart payload)) :=
  adds_modifyThread fun _ _ _ => ⟨rfl, rfl, rfl⟩

theorem adds_append (s : Interpreter) (script : Script) (target : Nat) (payload : Option Value) :
    s.Adds { s with
      threads := s.threads ++ [.launch s.nextId script target payload]
      nextId := s.nextId + 1 } := by
  refine ⟨Nat.le_succ _, ?_⟩
  rw [numbers, Nat.add_sub_cancel_left, List.range'_one, ids, List.map_append]
  rfl

theorem adds_stopOthers (target : Nat) (except : Option Nat) (s : Interpreter) :
    s.Adds (s.applyEffect (.stopOthers target except)) := by
  refine adds_of_eq rfl (ids_map fun t _ => ?_)
  split <;> rfl

/-! ### Sessions -/

end Interpreter

/-- Only stopping all threads and taking out the finished ones removes threads. -/
theorem Act.follows {host : Host} {s s' : Interpreter} (h : Act host s s') : s.Follows s' := by
  cases h with
  | poll ht _ =>
    refine Interpreter.Adds.follows ?_
    exact Interpreter.adds_of_eq rfl (Interpreter.ids_set ht (Thread.same_poll _ _).id)
  | slice ht _ hstep =>
    refine Interpreter.Adds.follows ?_
    exact Interpreter.adds_of_eq rfl (Interpreter.ids_set ht (Thread.same_step hstep).id)
  | launch payload _ => exact (s.adds_append _ _ payload).follows
  | restart payload _ _ => exact (s.adds_restart _ payload).follows
  | stopOthers target except => exact (s.adds_stopOthers target except).follows
  | stopAll => exact Interpreter.follows_of_sublist rfl (List.nil_sublist _)
  | compact => exact Interpreter.follows_of_sublist rfl (List.filter_sublist.map _)
  | edge _ hcheck =>
    obtain ⟨result, m, -, rfl, -⟩ := Interpreter.checkEdge_cases hcheck
    exact Interpreter.follows_of_sublist rfl (List.Sublist.refl _)
  | other hthreads hnext _ =>
    exact (Interpreter.adds_of_eq hnext (congrArg (List.map Thread.id) hthreads)).follows
  | handle _ hf =>
    exact (Interpreter.adds_modifyThread fun t ht hid => (hf t ht hid).same).follows

theorem Acts.follows {host : Host} {s s' : Interpreter} (h : Acts host s s') : s.Follows s' := by
  induction h with
  | refl => exact .refl s
  | tail _ hact ih => exact ih.trans hact.follows

namespace Interpreter

/-- The numbers of the threads increase, and the next one is larger than all of them. -/
structure Ordered (s : Interpreter) : Prop where
  increasing : s.ids.Pairwise (· < ·)
  below : ∀ id ∈ s.ids, id < s.nextId

theorem Ordered.nodup {s : Interpreter} (h : s.Ordered) : s.ids.Nodup :=
  h.increasing.imp Nat.ne_of_lt

theorem Ordered.append {s : Interpreter} (h : s.Ordered) (s' : Interpreter) :
    (s.ids ++ numbers s s').Pairwise (· < ·) := by
  refine List.pairwise_append.mpr ⟨h.increasing, List.pairwise_lt_range', fun id hid n hn => ?_⟩
  exact Nat.lt_of_lt_of_le (h.below id hid) (List.mem_range'_1.mp hn).1

theorem Ordered.follows {s s' : Interpreter} (h : s.Ordered) (h' : s.Follows s') : s'.Ordered := by
  refine ⟨(h.append s').sublist h'.sublist, fun id hid => ?_⟩
  rcases List.mem_append.mp (h'.sublist.subset hid) with hold | hnew
  · exact Nat.lt_of_lt_of_le (h.below id hold) h'.le
  · have hlt := (List.mem_range'_1.mp hnew).2
    rwa [Nat.add_sub_cancel' h'.le] at hlt

theorem ordered_fresh (scene : Scene) (clock : Clock) (settings : SchedulerSettings) :
    (fresh scene clock settings).Ordered :=
  ⟨List.Pairwise.nil, fun _ hid => absurd hid List.not_mem_nil⟩

theorem Session.ordered {host : Host} {scene : Scene} {s : Interpreter}
    (h : s.Session host scene) : s.Ordered := by
  obtain ⟨clock, settings, hacts⟩ := h.acts
  exact (ordered_fresh scene clock settings).follows hacts.follows

/-! ### Effects -/

theorem adds_launch (script : Script) (target : Nat) (payload : Option Value) (restart : Bool)
    (s : Interpreter) : s.Adds (s.launch script target payload restart).2 := by
  simp only [launch]
  split
  · exact s.adds_restart _ payload
  · exact s.adds_append script target payload

theorem adds_launchAll (payload : Option Value) (xs : List (Nat × Script × Bool))
    (s : Interpreter) : s.Adds (launchAll payload xs s).2 := by
  induction xs generalizing s with
  | nil => exact .refl s
  | cons x xs ih => exact (adds_launch x.2.1 x.1 payload x.2.2 s).trans (ih _)

/-- Only an effect that stops all threads takes threads out. -/
theorem adds_applyEffect {e : Effect} (he : e ≠ .stopAll) (s : Interpreter) :
    s.Adds (s.applyEffect e) := by
  cases e with
  | broadcast t completion =>
    have htrigger : s.Adds (s.trigger t).2 := adds_launchAll ..
    simp only [applyEffect]
    split
    · exact htrigger
    · split
      · exact htrigger.trans (adds_of_eq rfl rfl)
      · exact htrigger.trans (adds_of_eq rfl rfl)
  | stopAll => exact absurd rfl he
  | stopOthers target except => exact s.adds_stopOthers target except

theorem follows_applyEffect (e : Effect) (s : Interpreter) : s.Follows (s.applyEffect e) := by
  by_cases he : e = .stopAll
  · subst he
    exact follows_of_sublist rfl (List.nil_sublist _)
  · exact (adds_applyEffect he s).follows

/-- The thread was there, or was launched between the two states, and is gone. -/
def Misses (s s' : Interpreter) (id : Nat) : Prop := id ∈ s.ids ++ numbers s s' ∧ id ∉ s'.ids

theorem Adds.not_misses {s s' : Interpreter} (h : s.Adds s') (id : Nat) : ¬ s.Misses s' id :=
  fun hm => hm.2 (h.eq ▸ hm.1)

/-- What is gone at the end of a run went in one part of it. -/
theorem Misses.split {s s' s'' : Interpreter} {id : Nat} (h : s.Misses s'' id)
    (h₁ : s.Follows s') (h₂ : s'.Follows s'') : s.Misses s' id ∨ s'.Misses s'' id := by
  obtain ⟨hmem, hgone⟩ := h
  rw [← numbers_append h₁.le h₂.le, ← List.append_assoc] at hmem
  rcases List.mem_append.mp hmem with hmem | hnew
  · by_cases hid : id ∈ s'.ids
    · exact .inr ⟨List.mem_append_left _ hid, hgone⟩
    · exact .inl ⟨hmem, hid⟩
  · exact .inr ⟨List.mem_append_right _ hnew, hgone⟩

theorem adds_effects {effects : List Effect} :
    ∀ {s : Interpreter}, (∀ x ∈ effectsFrom effects s, x.2 ≠ .stopAll) →
      s.Adds (effects.foldl applyEffect s) := by
  induction effects with
  | nil => exact fun _ => .refl _
  | cons e effects ih =>
    intro s h
    exact (adds_applyEffect (h _ (List.mem_cons_self ..)) s).trans
      (ih fun x hx => h x (List.mem_cons_of_mem _ hx))

theorem follows_effects (effects : List Effect) (s : Interpreter) :
    s.Follows (effects.foldl applyEffect s) := by
  induction effects generalizing s with
  | nil => exact .refl s
  | cons e effects ih => exact (follows_applyEffect e s).trans (ih _)

theorem stopped_of_misses_effects {effects : List Effect} {id : Nat} :
    ∀ {s : Interpreter}, s.Misses (effects.foldl applyEffect s) id →
      ∃ x ∈ effectsFrom effects s, x.2 = .stopAll ∧ id ∈ x.1.ids := by
  induction effects with
  | nil => exact fun h => absurd h ((Adds.refl _).not_misses id)
  | cons e effects ih =>
    intro s h
    rcases h.split (follows_applyEffect e s) (follows_effects effects _) with hfirst | hlater
    · by_cases he : e = .stopAll
      · subst he
        refine ⟨(s, .stopAll), List.mem_cons_self .., rfl, ?_⟩
        obtain ⟨hmem, -⟩ := hfirst
        have hnone : numbers s (s.applyEffect .stopAll) = [] := numbers_of_eq rfl
        rwa [hnone, List.append_nil] at hmem
      · exact absurd hfirst ((adds_applyEffect he s).not_misses id)
    · obtain ⟨x, hx, hstop⟩ := ih hlater
      exact ⟨x, List.mem_cons_of_mem _ hx, hstop⟩

/-! ### Turns -/

theorem same_polled (s : Interpreter) (t : Thread) : t.Same (s.polled t) := by
  rw [polled]
  split
  · exact Thread.same_poll _ t
  · exact .refl t

/-- A turn takes no thread out before its effects are carried out. -/
theorem Takes.adds_before_effects {fuel i : Nat} {s : Interpreter} {u : Turn}
    (h : s.Takes fuel i u) :
    ∃ effects s₁, s.Adds s₁ ∧ u.effects = effectsFrom effects s₁ ∧
      u.after = effects.foldl applyEffect s₁ := by
  cases h with
  | @rests t ht _ =>
    refine ⟨[], { s with threads := s.threads.set i (s.polled t) }, ?_, rfl, rfl⟩
    exact adds_of_eq rfl (ids_set ht (s.same_polled t).id)
  | @runs t t' w outcome ht _ hstep =>
    have hsame : t.Same t' := (s.same_polled t).trans (Thread.same_step hstep)
    let slice : Interpreter := { s with threads := s.threads.set i t', world := w }
    refine ⟨_, (Moment.taking slice).state, ?_, rfl, rfl⟩
    exact adds_of_eq rfl (ids_set ht hsame.id)

theorem Takes.adds {fuel i : Nat} {s : Interpreter} {u : Turn} (h : s.Takes fuel i u)
    (hspares : u.SparesAll) : s.Adds u.after := by
  obtain ⟨effects, s₁, hadds, heffects, hafter⟩ := h.adds_before_effects
  rw [hafter]
  refine hadds.trans (adds_effects fun x hx => hspares x ?_)
  rwa [heffects]

theorem Takes.stopped {fuel i : Nat} {s : Interpreter} {u : Turn} {id : Nat}
    (h : s.Takes fuel i u) (hm : s.Misses u.after id) :
    ∃ x ∈ u.effects, x.2 = .stopAll ∧ id ∈ x.1.ids := by
  obtain ⟨effects, s₁, hadds, heffects, hafter⟩ := h.adds_before_effects
  rw [hafter] at hm
  rw [heffects]
  rcases hm.split hadds.follows (follows_effects effects s₁) with hm | hm
  · exact absurd hm (hadds.not_misses id)
  · exact stopped_of_misses_effects hm

theorem Turns.adds {fuel i : Nat} {s s' : Interpreter} {log : List Turn}
    (h : s.Turns fuel i log s') (hspares : ∀ u ∈ log, u.SparesAll) : s.Adds s' := by
  induction h with
  | nil => exact .refl _
  | cons htakes _ _ ih =>
    exact (htakes.adds (hspares _ (List.mem_cons_self ..))).trans
      (ih fun u hu => hspares u (List.mem_cons_of_mem _ hu))

theorem Takes.follows {fuel i : Nat} {s : Interpreter} {u : Turn} (h : s.Takes fuel i u) :
    s.Follows u.after := by
  have hacts : Acts .unbound s u.after := h.careful.acts
  exact hacts.follows

theorem Turns.follows {fuel i : Nat} {s s' : Interpreter} {log : List Turn}
    (h : s.Turns fuel i log s') : s.Follows s' := by
  have hacts : Acts .unbound s s' := h.careful.acts
  exact hacts.follows

theorem Turns.stopped {fuel i : Nat} {s s' : Interpreter} {log : List Turn} {id : Nat}
    (h : s.Turns fuel i log s') (hm : s.Misses s' id) :
    ∃ u ∈ log, ∃ x ∈ u.effects, x.2 = .stopAll ∧ id ∈ x.1.ids := by
  induction h with
  | nil => exact absurd hm ((Adds.refl _).not_misses id)
  | cons htakes _ hrest ih =>
    rcases hm.split htakes.follows hrest.follows with hm | hm
    · exact ⟨_, List.mem_cons_self .., htakes.stopped hm⟩
    · obtain ⟨u, hu, hstop⟩ := ih hm
      exact ⟨u, List.mem_cons_of_mem _ hu, hstop⟩

/-! ### Frames -/

/-- How a thread leaves while a frame is run. -/
inductive Loses (fuel : Nat) (budget : Budget) (s : Interpreter) (id : Nat) : Prop
  /-- It was done when a round took the finished threads out. -/
  | finished {report : Report} {s₁ s₂ : Interpreter} {active : Nat} {failure : Option ExecError}
      {t : Thread} : s.BeginsRound fuel budget report s₁ →
      turns fuel fuel 0 0 s₁ = some (active, failure, s₂) → t ∈ s₂.threads → t.id = id →
      t.isDone = true → Loses fuel budget s id
  /-- It was there when an effect stopped all threads. -/
  | stopped {report : Report} {s₁ s₂ : Interpreter} {log : List Turn} {u : Turn}
      {x : Interpreter × Effect} : s.BeginsRound fuel budget report s₁ →
      s₁.Turns fuel 0 log s₂ → u ∈ log → x ∈ u.effects → x.2 = .stopAll → id ∈ x.1.ids →
      Loses fuel budget s id

/-- No effect that is carried out in the frame stops all threads. -/
def SparesAll (fuel : Nat) (budget : Budget) (s : Interpreter) : Prop :=
  ∀ report s₁ log s₂, s.BeginsRound fuel budget report s₁ → s₁.Turns fuel 0 log s₂ →
    ∀ u ∈ log, u.SparesAll

/-- The threads that a round leaves are those after its turns that are not done. -/
theorem round_threads {fuel active finished : Nat} {failure : Option ExecError}
    {s s' : Interpreter} (h : s.round fuel = some (active, finished, failure, s')) :
    ∃ s₁, turns fuel fuel 0 0 s = some (active, failure, s₁) ∧
      s'.threads = s₁.threads.filter (fun t => !t.isDone) ∧ s'.nextId = s₁.nextId ∧
      s₁.threads.length = s'.threads.length + finished := by
  obtain ⟨s₁, hturns, rfl, rfl⟩ := round_cases h
  refine ⟨s₁, hturns, ?_⟩
  have hle : (s₁.threads.filter fun t => !t.isDone).length ≤ s₁.threads.length :=
    List.length_filter_le ..
  split
  · exact ⟨rfl, rfl, (Nat.add_sub_cancel' hle).symm⟩
  · rw [settleWatchers_eq]
    exact ⟨rfl, rfl, (Nat.add_sub_cancel' hle).symm⟩

theorem round_loses {fuel : Nat} {budget : Budget} {report : Report} {s s₁ s₂ : Interpreter}
    {active finished id : Nat} {failure : Option ExecError}
    (hbegins : s.BeginsRound fuel budget report s₁)
    (hround : s₁.round fuel = some (active, finished, failure, s₂)) (hm : s₁.Misses s₂ id) :
    s.Loses fuel budget id := by
  obtain ⟨s₃, hturns, hthreads, hnext, -⟩ := round_threads hround
  obtain ⟨log, hlog, -⟩ := turns_log hturns
  have hsublist : s₂.ids.Sublist s₃.ids := by
    rw [ids, hthreads]
    exact List.filter_sublist.map _
  rcases hm.split hlog.follows (follows_of_sublist hnext hsublist) with hm | ⟨hmem, hgone⟩
  · obtain ⟨u, hu, x, hx, hstop, hid⟩ := hlog.stopped hm
    exact .stopped hbegins hlog hu hx hstop hid
  · rw [numbers_of_eq hnext, List.append_nil] at hmem
    obtain ⟨t, ht, hid⟩ := List.mem_map.mp hmem
    refine .finished hbegins hturns ht hid ?_
    by_contra hlive
    refine hgone (List.mem_map.mpr ⟨t, ?_, hid⟩)
    rw [hthreads]
    exact List.mem_filter.mpr ⟨ht, by rw [Bool.eq_false_iff.mpr hlive]; rfl⟩

theorem BeginsRound.follows {fuel : Nat} {budget : Budget} {report : Report} {s s₁ : Interpreter}
    (h : s.BeginsRound fuel budget report s₁) : s.Follows s₁ := by
  have hacts : Acts .unbound s s₁ := h.careful.acts
  exact hacts.follows

theorem round_follows {fuel active finished : Nat} {failure : Option ExecError}
    {s s' : Interpreter} (h : s.round fuel = some (active, finished, failure, s')) :
    s.Follows s' := by
  have hacts : Acts .unbound s s' := (round_careful h).acts
  exact hacts.follows

theorem BeginsRound.loses {fuel : Nat} {budget : Budget} {report : Report} {s s₁ : Interpreter}
    {id : Nat} (h : s.BeginsRound fuel budget report s₁) (hm : s.Misses s₁ id) :
    s.Loses fuel budget id := by
  induction h with
  | first =>
    have hadds : s.Adds s.beginFrame := adds_of_eq rfl rfl
    exact absurd hm (hadds.not_misses id)
  | next hbegins hround _ ih =>
    rcases hm.split hbegins.follows (round_follows hround) with hm | hm
    · exact ih hm
    · exact round_loses hbegins hround hm

theorem Adds.length_eq {s s' : Interpreter} (h : s.Adds s') :
    s'.threads.length = s.threads.length + (s'.nextId - s.nextId) := by
  have hlength := congrArg List.length h.eq
  rwa [List.length_append, ids, ids, numbers, List.length_map, List.length_map,
    List.length_range'] at hlength

/-- The threads before a round and those launched in it are those after it and the finished ones,
unless all threads are stopped. -/
theorem round_count {fuel active finished : Nat} {failure : Option ExecError} {s s' : Interpreter}
    (h : s.round fuel = some (active, finished, failure, s'))
    (hspares : ∀ log s₁, s.Turns fuel 0 log s₁ → ∀ u ∈ log, u.SparesAll) :
    s.threads.length + (s'.nextId - s.nextId) = s'.threads.length + finished := by
  obtain ⟨s₁, hturns, -, hnext, hlength⟩ := round_threads h
  obtain ⟨log, hlog, -⟩ := turns_log hturns
  rw [← hlength, hnext, (hlog.adds (hspares log s₁ hlog)).length_eq]

theorem BeginsRound.count {fuel : Nat} {budget : Budget} {report : Report} {s s₁ : Interpreter}
    (hspares : s.SparesAll fuel budget) (h : s.BeginsRound fuel budget report s₁) :
    s.threads.length + (s₁.nextId - s.nextId) = s₁.threads.length + report.finished := by
  induction h with
  | first => exact congrArg (s.threads.length + ·) (Nat.sub_self _)
  | @next report s₁ s₂ active finished hbegins hround _ ih =>
    have hcount := round_count hround fun log s₃ hlog => hspares report s₁ log s₃ hbegins hlog
    have hle := hbegins.follows.le
    have hle' := (round_follows hround).le
    simp only [Report.add]
    omega

end Interpreter

open Interpreter in
/-- Threads stay in the order of their registration, and none is lost.  At every state of every session
their numbers increase and are below the next one.  What a frame leaves, whether it fails or not, is a
part of the threads before it and of those launched in it, in order; a thread that is missing was done
when it was taken out, or was there when an effect stopped all threads.  After a frame that does not
fail no thread is done, and unless all threads were stopped, those before it and those launched are as
many as those after it and those reported as finished. -/
theorem threads_ordered_and_conserved {scene : Scene} {s : Interpreter}
    (hs : s.Session .unbound scene) :
    s.Ordered ∧
    ∀ fuel budget r s', s.stepThreads fuel budget = some (r, s') →
      s.nextId ≤ s'.nextId ∧
      s'.ids.Sublist (s.ids ++ List.range' s.nextId (s'.nextId - s.nextId)) ∧
      (∀ id ∈ s.ids ++ List.range' s.nextId (s'.nextId - s.nextId), id ∉ s'.ids →
        s.Loses fuel budget id) ∧
      ∀ report, r = .ok report →
        (∀ t ∈ s'.threads, t.isDone = false) ∧
        (s.SparesAll fuel budget →
          s.threads.length + (s'.nextId - s.nextId) = s'.threads.length + report.finished) := by
  refine ⟨hs.ordered, fun fuel budget r s' h => ?_⟩
  obtain ⟨report, s₁, active, finished, failure, timedOut, hbegins, hround, hr⟩ :=
    stepThreads_round h
  have hfollows := hbegins.follows.trans (round_follows hround)
  refine ⟨hfollows.le, hfollows.sublist, fun id hid hgone => ?_, ?_⟩
  · have hm : s.Misses s' id := ⟨hid, hgone⟩
    rcases hm.split hbegins.follows (round_follows hround) with hm | hm
    · exact hbegins.loses hm
    · exact round_loses hbegins hround hm
  · rintro report' rfl
    refine ⟨fun t ht => ?_, fun hspares => ?_⟩
    · obtain ⟨s₂, -, hthreads, -⟩ := round_threads hround
      rw [hthreads] at ht
      simpa using (List.mem_filter.mp ht).2
    · have hbefore := hbegins.count hspares
      have hlast := round_count hround fun log s₃ hlog => hspares report s₁ log s₃ hbegins hlog
      have hle := hbegins.follows.le
      have hle' := (round_follows hround).le
      have hfinished : report'.finished = report.finished + finished := by
        cases failure with
        | some e => cases hr
        | none =>
          cases hr
          rfl
      omega

/-- A frame with a budget of one round begins no other. -/
theorem Interpreter.BeginsRound.eq_beginFrame {fuel : Nat} {report : Report} {s s₁ : Interpreter}
    (h : s.BeginsRound fuel (.rounds 1) report s₁) : s₁ = s.beginFrame := by
  cases h with
  | first => rfl
  | next _ _ hgoes =>
    simp [goesOn, Budget.isSpent, Report.add] at hgoes

/-- A session in which the script that sends the broadcast has been launched. -/
def Interpreter.asked : Interpreter := (Interpreter.asking.launch .asking 0 none false).2

theorem Interpreter.asked_session {host : Host} (h : host.arranges) :
    asked.Session host asking.world.scene :=
  @Session.perform _ _ 8 (.launch .asking 0 none false) _ _ (.fresh {} {}) h rfl

/-- Both threads have a turn in the round. -/
theorem Interpreter.asked_turns : ∃ u v s', asked.beginFrame.Turns 8 0 [u, v] s' ∧
    s'.threads.length = 2 ∧ [u, v].filterMap Turn.stepped? = [0, 1] ∧
    (∀ x ∈ u.effects, x.1.nextId = 1 ∧ (x.1.applyEffect x.2).nextId = 2) ∧ u.effects ≠ [] ∧
    u.SparesAll ∧ v.SparesAll := by
  refine ⟨_, _, _, .cons (.runs rfl rfl rfl) (.inl rfl) (.cons (.runs rfl rfl rfl) (.inl rfl)
    (.nil _ _)), rfl, rfl, List.forall_mem_singleton.mpr ⟨rfl, rfl⟩, List.cons_ne_nil _ _, ?_, ?_⟩
  · exact List.forall_mem_singleton.mpr Effect.noConfusion
  · exact fun x hx => absurd hx List.not_mem_nil

theorem Interpreter.asked_sparesAll : asked.SparesAll 8 (.rounds 1) := by
  obtain ⟨u, v, s', hlog, hlength, -, -, -, hu, hv⟩ := asked_turns
  intro report s₁ log s₂ hbegins hturns x hx
  rw [hbegins.eq_beginFrame] at hturns
  have hmem := (hlog.isPrefix (Nat.le_of_eq hlength) hturns).subset hx
  rcases List.mem_cons.mp hmem with rfl | hmem
  · exact hu
  · rw [List.mem_singleton.mp hmem]
    exact hv

/-- The broadcast of thread 0 starts thread 1, which finishes in the same round and is taken out. -/
theorem threads_ordered_and_conserved_asked :
    ∃ report s', Interpreter.asked.stepThreads 8 (.rounds 1) = some (.ok report, s') ∧
      Interpreter.asked.ids = [0] ∧ s'.ids = [0] ∧ s'.nextId = 2 ∧
      Interpreter.asked.Loses 8 (.rounds 1) 1 ∧
      Interpreter.asked.threads.length + (s'.nextId - Interpreter.asked.nextId) =
        s'.threads.length + report.finished := by
  have hstep : Interpreter.asked.stepThreads 8 (.rounds 1) = some (.ok _, _) := rfl
  obtain ⟨-, -, hlost, hok⟩ :=
    (threads_ordered_and_conserved (Interpreter.asked_session trivial)).2 8 (.rounds 1) _ _ hstep
  exact ⟨_, _, hstep, rfl, rfl, rfl, hlost 1 (by decide) (by decide),
    (hok _ rfl).2 Interpreter.asked_sparesAll⟩

end Blockwork
