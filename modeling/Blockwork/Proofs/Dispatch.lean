import Blockwork.Proofs.SingleInstance

/-!
Triggers start what they fire, and nothing else.

A trigger launches the scripts that it fires one after another, so each launch finds the threads as the
ones before have left them.  If the scripts have different top blocks that makes no difference: a
launch starts over the first live thread of its script, in its place, or adds a thread at the end
(`launch_position`), and for the other scripts it changes neither which of their threads is the first
live one nor where that stands (`findIdx?_launch`).  So what launches come to can be said of the threads
before all of them (`Dispatches`).
-/

namespace Blockwork

/-- The thread is running, with nothing of its script done yet. -/
structure Thread.AtTop (payload : Option Value) (t : Thread) : Prop where
  status : t.status = .running
  stack : t.stack = .ofBlocks t.script.body
  calls : t.calls = {}
  pending : t.pending = none
  result : t.result = none
  payload : t.payload = payload

namespace Thread

theorem atTop_launch (id : Nat) (script : Script) (target : Nat) (payload : Option Value) :
    (Thread.launch id script target payload).AtTop payload := ⟨rfl, rfl, rfl, rfl, rfl, rfl⟩

theorem atTop_restart (payload : Option Value) (t : Thread) :
    (t.restart payload).AtTop payload := ⟨rfl, rfl, rfl, rfl, rfl, rfl⟩

end Thread

/-- Whether the trigger fires the hat of the script. -/
def Script.isFiredBy (t : Trigger) (script : Script) : Bool :=
  script.hat.any fun h => h.isFiredBy script.top t

/-- Whether the hat of the script starts over a live thread when it is fired. -/
def Script.startsOver (script : Script) : Bool := script.hat.any Hat.restart

namespace Interpreter

variable {s s₁ s' : Interpreter} {payload : Option Value} {x y : Nat × Script × Bool}
  {script : Script} {target id : Nat} {restart : Bool}

/-- A trigger fires the scripts that it fires in scene order. -/
theorem fired_eq (scene : Scene) (t : Trigger) :
    fired scene t = (scene.scripts.filter fun x => x.2.isFiredBy t).map
      fun x => (x.1, x.2, x.2.startsOver) := by
  rw [fired, ← List.filterMap_eq_map, List.filterMap_filter]
  refine List.filterMap_congr fun x _ => ?_
  obtain ⟨target, script⟩ := x
  cases hhat : script.hat with
  | none => simp [Script.isFiredBy, hhat]
  | some h => simp [Script.isFiredBy, Script.startsOver, hhat]

/-! ### One launch -/

/-- What it comes to when a script is launched, perhaps to start over a live thread, under the number:
that is the number of the first live thread of the script, which starts over where it stands, or of a
new thread, which stands as far behind the old ones as its number says. -/
inductive Starts (payload : Option Value) (s s' : Interpreter) : Nat × Script × Bool → Nat → Prop
  | again {i target : Nat} {script : Script} {t t' : Thread} :
      s.threads.findIdx? (isLive script.topId) = some i → s.threads[i]? = some t →
      s'.threads[i]? = some t' → t.Same t' → t'.generation = t.generation + 1 → t'.AtTop payload →
      Starts payload s s' (target, script, true) t.id
  | anew {k target : Nat} {script : Script} {restart : Bool} {t' : Thread} :
      (restart && s.isRunning script) = false →
      s'.threads[s.threads.length + k]? = some t' → t'.id = s.nextId + k → t'.script = script →
      t'.target = target → t'.generation = 0 → t'.AtTop payload →
      Starts payload s s' (target, script, restart) (s.nextId + k)

/-- Changing the thread with a number changes it where it stands. -/
theorem modifyThread_eq_set (hs : s.Ordered) {i : Nat} {t : Thread} (ht : s.threads[i]? = some t)
    (f : Thread → Thread) :
    s.modifyThread t.id f = { s with threads := s.threads.set i (f t) } := by
  obtain ⟨hi, rfl⟩ := List.getElem?_eq_some_iff.mp ht
  simp only [modifyThread]
  congr 1
  apply List.ext_getElem?
  intro j
  rw [List.getElem?_map]
  by_cases hij : i = j
  · subst hij
    rw [List.getElem?_set_self hi, ht, Option.map_some, if_pos rfl]
  · rw [List.getElem?_set_ne hij]
    cases hj : s.threads[j]? with
    | none => rfl
    | some u =>
      obtain ⟨hj', rfl⟩ := List.getElem?_eq_some_iff.mp hj
      have hne : s.threads[j].id ≠ s.threads[i].id := fun hid => hij <|
        hs.nodup.of_map.getElem_inj_iff.mp
          (hs.eq_of_id (List.getElem_mem hj') (List.getElem_mem hi) hid.symm)
      rw [Option.map_some, if_neg hne]

/-- A launch changes the thread at one position, or adds one. -/
theorem launch_position (hs : s.Ordered) (script : Script) (target : Nat) (payload : Option Value)
    (restart : Bool) :
    (∃ i t, restart = true ∧ s.threads.findIdx? (isLive script.topId) = some i ∧
      s.threads[i]? = some t ∧ isLive script.topId t = true ∧
      s.launch script target payload restart =
        (t.id, { s with threads := s.threads.set i (t.restart payload) })) ∨
    ((restart && s.isRunning script) = false ∧
      s.launch script target payload restart = (s.nextId, { s with
        threads := s.threads ++ [.launch s.nextId script target payload]
        nextId := s.nextId + 1 })) := by
  cases restart with
  | false => exact .inr ⟨rfl, rfl⟩
  | true =>
    cases hfind : s.threads.findIdx? (isLive script.topId) with
    | none =>
      have hdead := List.findIdx?_eq_none_iff.mp hfind
      have hnone : s.threads.find? (isLive script.topId) = none :=
        List.find?_eq_none.mpr fun t ht => by simpa using hdead t ht
      refine .inr ⟨?_, by simp only [launch, hnone, if_true]⟩
      rw [isRunning, Bool.true_and, List.any_eq_false]
      exact fun t ht => by simpa using hdead t ht
    | some i =>
      obtain ⟨hi, hlive, hbefore⟩ := List.findIdx?_eq_some_iff_getElem.mp hfind
      have hget : s.threads[i]? = some s.threads[i] := List.getElem?_eq_getElem hi
      have hfirst : s.threads.find? (isLive script.topId) = some s.threads[i] :=
        List.find?_eq_some_iff_getElem.mpr
          ⟨hlive, i, hi, rfl, fun j hj => by simpa using hbefore j hj⟩
      refine .inl ⟨i, s.threads[i], rfl, rfl, hget, hlive, ?_⟩
      simp only [launch, hfirst, if_true, modifyThread_eq_set hs hget]

/-- What is launched stands at its position, and the other threads are left alone. -/
theorem starts_launch (hs : s.Ordered) (payload : Option Value) (x : Nat × Script × Bool) :
    Starts payload s (s.launch x.2.1 x.1 payload x.2.2).2 x
      (s.launch x.2.1 x.1 payload x.2.2).1 ∧
    ∀ (i : Nat) (t : Thread), s.threads[i]? = some t → t.id ≠ (s.launch x.2.1 x.1 payload x.2.2).1 →
      (s.launch x.2.1 x.1 payload x.2.2).2.threads[i]? = some t := by
  obtain ⟨target, script, restart⟩ := x
  rcases launch_position hs script target payload restart with
    ⟨i, t, rfl, hfind, hget, -, heq⟩ | ⟨hnone, heq⟩
  · have hi : i < s.threads.length := (List.getElem?_eq_some_iff.mp hget).1
    rw [heq]
    refine ⟨.again hfind hget (List.getElem?_set_self hi) ⟨rfl, rfl, rfl⟩ rfl
      (Thread.atTop_restart payload t), fun j u hu hne => ?_⟩
    rw [List.getElem?_set_ne]
    · exact hu
    · rintro rfl
      exact hne (congrArg Thread.id (Option.some.inj (hu.symm.trans hget)))
  · rw [heq]
    refine ⟨.anew (k := 0) hnone ?_ rfl rfl rfl rfl (Thread.atTop_launch ..), fun j u hu _ => ?_⟩
    · exact List.getElem?_concat_length
    · rw [List.getElem?_append_left (List.getElem?_eq_some_iff.mp hu).1]
      exact hu

/-! ### Launches of other scripts -/

/-- A launch makes no difference for which thread of another script is the first live one. -/
theorem findIdx?_launch (hs : s.Ordered) {other : Script} (hother : script.topId ≠ other.topId)
    (target : Nat) (payload : Option Value) (restart : Bool) :
    (s.launch script target payload restart).2.threads.findIdx? (isLive other.topId) =
      s.threads.findIdx? (isLive other.topId) := by
  rcases launch_position hs script target payload restart with
    ⟨i, t, -, -, hget, hlive, heq⟩ | ⟨-, heq⟩
  · obtain ⟨hi, rfl⟩ := List.getElem?_eq_some_iff.mp hget
    have hsame : (s.threads.set i (s.threads[i].restart payload)).map (isLive other.topId) =
        s.threads.map (isLive other.topId) := by
      rw [List.map_set, isLive_restart payload (isLive_iff.mp hlive).1,
        ← List.getElem_map (isLive _) (h := by rwa [List.length_map]), List.set_getElem_self]
    have hfind := congrArg (List.findIdx? id) hsame
    rw [List.findIdx?_map, List.findIdx?_map] at hfind
    rw [heq]
    exact hfind
  · have hnew : isLive other.topId (.launch s.nextId script target payload) = false := by
      simp [isLive, Thread.launch, hother]
    rw [heq]
    simp [List.findIdx?_append, List.findIdx?_cons, hnew]

/-- What a launch after a launch of another script comes to can be said of the threads before both. -/
theorem Starts.after_launch (hs : s.Ordered) (hother : x.2.1.topId ≠ y.2.1.topId)
    (h : Starts payload (s.launch x.2.1 x.1 payload x.2.2).2 s' y id) :
    Starts payload s s' y id := by
  obtain ⟨target, script, restart⟩ := x
  have hposition := launch_position hs script target payload restart
  cases h with
  | @again i target' other t t' hfind hget hget' hsame hgeneration htop =>
    rw [findIdx?_launch hs hother] at hfind
    refine .again hfind ?_ hget' hsame hgeneration htop
    obtain ⟨hi, hlive, -⟩ := List.findIdx?_eq_some_iff_getElem.mp hfind
    rcases hposition with ⟨j, u, -, -, hu, hulive, heq⟩ | ⟨-, heq⟩
    · rw [heq] at hget
      rwa [List.getElem?_set_ne] at hget
      rintro rfl
      -- the thread at the position runs both scripts
      obtain ⟨hj, rfl⟩ := List.getElem?_eq_some_iff.mp hu
      exact hother ((isLive_iff.mp hulive).2.symm.trans (isLive_iff.mp hlive).2)
    · rw [heq, List.getElem?_append_left hi] at hget
      exact hget
  | @anew k target' other restart' t' hnone hget hid hscript htarget hgeneration htop =>
    rw [isRunning_launch hs hother] at hnone
    rcases hposition with ⟨j, u, -, -, -, -, heq⟩ | ⟨-, heq⟩
    · rw [heq] at hget hid ⊢
      rw [List.length_set] at hget
      exact .anew hnone hget hid hscript htarget hgeneration htop
    · rw [heq] at hget hid ⊢
      rw [List.length_append, List.length_singleton, Nat.add_assoc, Nat.add_comm 1 k] at hget
      simp only [Nat.add_assoc, Nat.add_comm 1 k] at hid ⊢
      exact .anew hnone hget hid hscript htarget hgeneration htop

/-- The thread that a launch makes run is not one of another script. -/
theorem Starts.ne_of_topId (hs : s.Ordered) (h : Starts payload s s' x id) {t : Thread}
    (ht : t ∈ s.threads) (hother : t.script.topId ≠ x.2.1.topId) : id ≠ t.id := by
  cases h with
  | again hfind hget _ _ _ _ =>
    intro hid
    obtain ⟨hi, hlive, -⟩ := List.findIdx?_eq_some_iff_getElem.mp hfind
    obtain ⟨hi, rfl⟩ := List.getElem?_eq_some_iff.mp hget
    rw [← hs.eq_of_id ht (List.getElem_mem hi) hid] at hother
    exact hother (isLive_iff.mp hlive).2
  | anew _ _ _ _ _ _ _ =>
    have hlt := hs.below t.id (List.mem_map_of_mem ht)
    omega

/-- A launch stays what it was while its thread is left alone. -/
theorem Starts.keep (h : Starts payload s s₁ x id)
    (hkeep : ∀ (i : Nat) (t : Thread), s₁.threads[i]? = some t → t.id = id →
      s'.threads[i]? = some t) :
    Starts payload s s' x id := by
  cases h with
  | again hfind hget hget' hsame hgeneration htop =>
    exact .again hfind hget (hkeep _ _ hget' hsame.id) hsame hgeneration htop
  | anew hnone hget hid hscript htarget hgeneration htop =>
    exact .anew hnone (hkeep _ _ hget hid) hid hscript htarget hgeneration htop

/-- What a launch comes to is a matter of the threads. -/
theorem Starts.of_threads (h : Starts payload s₁ s' x id) (hthreads : s₁.threads = s.threads)
    (hnext : s₁.nextId = s.nextId) : Starts payload s s' x id := by
  cases h with
  | again hfind hget hget' hsame hgeneration htop =>
    rw [hthreads] at hfind hget
    exact .again hfind hget hget' hsame hgeneration htop
  | anew hnone hget hid hscript htarget hgeneration htop =>
    rw [isRunning, hthreads] at hnone
    rw [hthreads] at hget
    rw [hnext] at hid ⊢
    exact .anew hnone hget hid hscript htarget hgeneration htop

/-! ### Launches one after another -/

/-- What launches one after another come to, under the numbers. -/
structure Dispatches (payload : Option Value) (s : Interpreter) (xs : List (Nat × Script × Bool))
    (ids : List Nat) (s' : Interpreter) : Prop where
  starts : List.Forall₂ (Starts payload s s') xs ids
  nodup : ids.Nodup
  /-- The new threads are numbered in the order of the launches. -/
  numbered : ids.filter (s.nextId ≤ ·) = numbers s s'
  /-- The old threads stay in their places, and the new ones are added in the order of their numbers. -/
  adds : s.Adds s'
  others : ∀ (i : Nat) (t : Thread), s.threads[i]? = some t → t.id ∉ ids → s'.threads[i]? = some t
  rest : s' = { s with threads := s'.threads, nextId := s'.nextId }

theorem launchAll_rest (payload : Option Value) (xs : List (Nat × Script × Bool))
    (s : Interpreter) : (launchAll payload xs s).2 =
      { s with
        threads := (launchAll payload xs s).2.threads
        nextId := (launchAll payload xs s).2.nextId } := by
  induction xs generalizing s with
  | nil => rfl
  | cons x xs ih =>
    rw [launchAll, ih]
    rcases s.launch_cases x.2.1 x.1 payload x.2.2 with ⟨-, t, -, -, heq⟩ | ⟨-, heq⟩
    · rw [heq]
      rfl
    · rw [heq]

/-- The number under which a script is launched is a new one, or that of a thread. -/
theorem numbers_launch (hs : s.Ordered) (payload : Option Value) (x : Nat × Script × Bool) :
    numbers s (s.launch x.2.1 x.1 payload x.2.2).2 =
      [(s.launch x.2.1 x.1 payload x.2.2).1].filter (s.nextId ≤ ·) := by
  rcases launch_position hs x.2.1 x.1 payload x.2.2 with ⟨i, t, -, -, hget, -, heq⟩ | ⟨-, heq⟩
  · have hlt := hs.below t.id (List.mem_map_of_mem (List.mem_of_getElem? hget))
    have hold : numbers s { s with threads := s.threads.set i (t.restart payload) } = [] :=
      numbers_of_eq rfl
    simp [heq, hold, hlt]
  · simp [heq, numbers]

/-- The number under which a script has been launched is that of a thread that runs it. -/
theorem exists_launched (hs : s.Ordered) (payload : Option Value) (x : Nat × Script × Bool) :
    ∃ t ∈ (s.launch x.2.1 x.1 payload x.2.2).2.threads,
      t.id = (s.launch x.2.1 x.1 payload x.2.2).1 ∧ t.script.topId = x.2.1.topId := by
  rcases launch_position hs x.2.1 x.1 payload x.2.2 with ⟨i, t, -, -, hget, hlive, heq⟩ | ⟨-, heq⟩
  · have hi := (List.getElem?_eq_some_iff.mp hget).1
    rw [heq]
    exact ⟨t.restart payload, List.mem_set hi _, rfl, (isLive_iff.mp hlive).2⟩
  · rw [heq]
    exact ⟨_, List.mem_concat_self, rfl, rfl⟩

/-- A launch before launches of other scripts. -/
theorem Dispatches.cons {xs : List (Nat × Script × Bool)} {ids : List Nat} (hs : s.Ordered)
    (hx : ∀ y ∈ xs, x.2.1.topId ≠ y.2.1.topId)
    (hrest : s' = { s with threads := s'.threads, nextId := s'.nextId })
    (h : Dispatches payload (s.launch x.2.1 x.1 payload x.2.2).2 xs ids s') :
    Dispatches payload s (x :: xs) ((s.launch x.2.1 x.1 payload x.2.2).1 :: ids) s' := by
  obtain ⟨hstarts, hothers⟩ := starts_launch hs payload x
  have hadds := adds_launch x.2.1 x.1 payload x.2.2 s
  have hlaunched := hs.follows hadds.follows
  obtain ⟨t, ht, hid, htop⟩ := exists_launched hs payload x
  have hboth : List.Forall₂ (fun id y => id ≠ (s.launch x.2.1 x.1 payload x.2.2).1 ∧
      Starts payload s s' y id) ids xs := by
    refine .flip (((List.forall₂_and_left _ _).mpr ⟨hx, h.starts⟩).imp fun y id hy => ⟨?_, ?_⟩)
    · rw [← hid]
      exact hy.2.ne_of_topId hlaunched ht (htop ▸ hy.1)
    · exact hy.2.after_launch hs hy.1
  obtain ⟨hne, hlater⟩ := (List.forall₂_and_left _ _).mp hboth
  have hnew : (s.launch x.2.1 x.1 payload x.2.2).1 ∉ ids := fun hmem => hne _ hmem rfl
  constructor
  · exact .cons (hstarts.keep fun i u hu hid' => h.others i u hu (hid' ▸ hnew)) (.flip hlater)
  · exact List.nodup_cons.mpr ⟨hnew, h.nodup⟩
  · have hsame : ids.filter (s.nextId ≤ ·) =
        ids.filter ((s.launch x.2.1 x.1 payload x.2.2).2.nextId ≤ ·) := by
      refine List.filter_congr fun id hmem => decide_eq_decide.mpr
        ⟨fun hle => ?_, Nat.le_trans hadds.le⟩
      by_contra hlt
      -- the number would have been given out by the launch
      have hgiven : id ∈ numbers s (s.launch x.2.1 x.1 payload x.2.2).2 :=
        List.mem_range'_1.mpr ⟨hle, by omega⟩
      rw [numbers_launch hs] at hgiven
      exact hne id hmem (List.mem_singleton.mp (List.mem_filter.mp hgiven).1)
    rw [← List.singleton_append, List.filter_append, hsame, h.numbered, ← numbers_launch hs,
      numbers_append hadds.le h.adds.le]
  · exact hadds.trans h.adds
  · intro i u hu hnot
    rw [List.mem_cons, not_or] at hnot
    exact h.others i u (hothers i u hu hnot.1) hnot.2
  · exact hrest

theorem dispatches_launchAll (payload : Option Value) {xs : List (Nat × Script × Bool)}
    (hs : s.Ordered) (hxs : xs.Pairwise fun x y => x.2.1.topId ≠ y.2.1.topId) :
    Dispatches payload s xs (launchAll payload xs s).1 (launchAll payload xs s).2 := by
  induction xs generalizing s with
  | nil => exact ⟨.nil, .nil, (numbers_of_eq rfl).symm, .refl s, fun _ _ ht _ => ht, rfl⟩
  | cons x xs ih =>
    obtain ⟨hx, hxs⟩ := List.pairwise_cons.mp hxs
    have hadds := adds_launch x.2.1 x.1 payload x.2.2 s
    exact (ih (hs.follows hadds.follows) hxs).cons hs hx (launchAll_rest payload (x :: xs) s)

theorem dispatches_trigger (hs : s.Ordered)
    (hdistinct : (s.world.scene.scripts.map fun x => x.2.topId).Nodup) (g : Trigger) :
    Dispatches g.payload s (fired s.world.scene g) (s.trigger g).1 (s.trigger g).2 :=
  dispatches_launchAll g.payload hs (pairwise_fired hdistinct g)

/-- What is launched runs the script, if threads with its top block do. -/
theorem Starts.runs (h : Starts payload s s' (target, script, restart) id)
    (howns : ∀ t ∈ s.threads, t.script.topId = script.topId → t.script = script) :
    ∃ t ∈ s'.threads, t.id = id ∧ t.script = script := by
  cases h with
  | @again i _ _ t t' hfind hget hget' hsame _ _ =>
    obtain ⟨hi, hlive, -⟩ := List.findIdx?_eq_some_iff_getElem.mp hfind
    obtain ⟨_, rfl⟩ := List.getElem?_eq_some_iff.mp hget
    refine ⟨t', List.mem_of_getElem? hget', hsame.id, hsame.script.trans ?_⟩
    exact howns _ (List.getElem_mem hi) (isLive_iff.mp hlive).2
  | anew _ hget hid hscript _ _ _ => exact ⟨_, List.mem_of_getElem? hget, hid, hscript⟩

end Interpreter

open Interpreter in
/-- A trigger starts what it fires, and nothing else.  Each command is a run of acts, and so is each
frame as far as it has come.  Take any state of any session, in the middle of commands too, in which
the scripts of the scene have different top blocks and the threads run scripts of the scene.  A trigger
gives one number for each script whose hat it fires, in scene order, no two the same.  Each is the
number of a thread at the top of that script: of the first live thread of the script, in its place and
one generation on, if the hat restarts and there is one, else of a new thread on the target of the
script.  The new threads stand behind the old ones in the order of the scripts.  All other threads, and
all else in the state, stay as they are. -/
theorem trigger_starts_fired_scripts {scene : Scene} {s : Interpreter}
    (hs : s.Session .unbound scene) :
    (∀ fuel c s', c.Allowed .unbound → s.perform fuel c = some s' → Acts .unbound s s') ∧
    (∀ fuel budget report s₁ log s₂, s.BeginsRound fuel budget report s₁ → s₁.Turns fuel 0 log s₂ →
      Acts .unbound s s₂) ∧
    ∀ s₁, Acts .unbound s s₁ → (s₁.world.scene.scripts.map fun x => x.2.topId).Nodup →
      (∀ t ∈ s₁.threads, t.script ∈ s₁.world.scene.scripts.map Prod.snd) →
      ∀ g, ∃ ids s', s₁.trigger g = (ids, s') ∧
        List.Forall₂ (fun x id => Starts g.payload s₁ s' (x.1, x.2, x.2.startsOver) id ∧
            ∃ t ∈ s'.threads, t.id = id ∧ t.script = x.2)
          (s₁.world.scene.scripts.filter fun x => x.2.isFiredBy g) ids ∧
        ids.Nodup ∧ ids.filter (s₁.nextId ≤ ·) = numbers s₁ s' ∧
        s'.ids = s₁.ids ++ numbers s₁ s' ∧
        (∀ (i : Nat) (t : Thread), s₁.threads[i]? = some t → t.id ∉ ids →
          s'.threads[i]? = some t) ∧
        s' = { s₁ with threads := s'.threads, nextId := s'.nextId } := by
  refine ⟨fun _ _ _ hc h => perform_acts hc h, fun _ _ _ _ _ _ hbegins hturns =>
    CarefulActs.acts (hbegins.careful.trans hturns.careful), fun s₁ hacts hdistinct hruns g => ?_⟩
  have hdispatches := dispatches_trigger (hs.ordered.follows hacts.follows) hdistinct g
  refine ⟨_, _, rfl, ?_, hdispatches.nodup, hdispatches.numbered, hdispatches.adds.eq,
    hdispatches.others, hdispatches.rest⟩
  have hstarts := hdispatches.starts
  rw [fired_eq, List.forall₂_map_left_iff] at hstarts
  have hmem : ∀ x ∈ s₁.world.scene.scripts.filter fun x => x.2.isFiredBy g,
      x ∈ s₁.world.scene.scripts := fun x hx => (List.mem_filter.mp hx).1
  refine ((List.forall₂_and_left _ _).mpr ⟨hmem, hstarts⟩).imp fun x id hx => ⟨hx.2, ?_⟩
  refine hx.2.runs fun t ht htop => ?_
  obtain ⟨y, hy, heq⟩ := List.mem_map.mp (hruns t ht)
  rw [← heq] at htop ⊢
  rw [List.inj_on_of_nodup_map hdistinct hy hx.1 htop]

/-- A script that the same broadcast starts, spelled in capitals. -/
def Script.echoing : Script :=
  ⟨.mk (Library.eventHat "event_whenbroadcastreceived" [("BROADCAST_OPTION", .field)]
    (((Hat.event Trigger.broadcastEvent).restarting true).keyedBy "BROADCAST_OPTION")) "echo" 3
    [("BROADCAST_OPTION", .literal (.str "GO"))], []⟩

/-- A scene in which a broadcast starts two scripts, and a key another one between them. -/
def Scene.calling : Scene :=
  { targets := [{ Target.stage with scripts := [.answering, .typing, .echoing] }] }

/-- A session of the scene in which the second of the two has been launched. -/
def Interpreter.calling : Interpreter :=
  ((Interpreter.fresh .calling {} {}).launch .echoing 0 none false).2

theorem Interpreter.calling_session : calling.Session .unbound .calling :=
  @Session.perform _ _ 8 (.launch .echoing 0 none false) _ _ (.fresh {} {}) trivial rfl

/-- The broadcast adds a thread for the first script, and starts over that of the second. -/
theorem trigger_starts_fired_scripts_calling :
    ∃ s', Interpreter.calling.trigger (.broadcast "go") = ([1, 0], s') ∧
      (∃ t, Interpreter.calling.threads = [t] ∧ t.generation = 0 ∧ t.script.topId = "echo") ∧
      s'.ids = [0, 1] ∧ s'.threads.map Thread.generation = [1, 0] ∧
      List.Forall₂ (fun x id => Interpreter.Starts none Interpreter.calling s'
          (x.1, x.2, x.2.startsOver) id ∧ ∃ t ∈ s'.threads, t.id = id ∧ t.script = x.2)
        [(0, Script.answering), (0, Script.echoing)] [1, 0] := by
  obtain ⟨-, -, hstarts⟩ := trigger_starts_fired_scripts Interpreter.calling_session
  have hdistinct : (Scene.calling.scripts.map fun x => x.2.topId).Nodup := by decide
  have hruns : ∀ t ∈ Interpreter.calling.threads, t.script ∈ Scene.calling.scripts.map Prod.snd := by
    intro t ht
    rw [List.mem_singleton.mp ht]
    exact List.mem_of_getElem? (i := 2) rfl
  obtain ⟨ids, s', htrigger, hall, -, -, hids, -, -⟩ :=
    hstarts _ .refl hdistinct hruns (.broadcast "go")
  cases htrigger
  exact ⟨_, rfl, ⟨_, rfl, rfl, rfl⟩, hids, rfl, hall⟩

end Blockwork
