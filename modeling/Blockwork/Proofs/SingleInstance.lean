import Blockwork.Proofs.Faults

/-!
One instance of a restarting script.

Firing a hat that restarts starts the script over in the live thread that already runs it.  Take a
scene whose scripts are told apart by their top blocks, and a host that leaves all launches to the hats.
Then no two live threads ever run the same restarting script (`Single`): a careful act that launches
nothing makes live only what was live before, and one that launches has found no live thread of the
script.  What a trigger adds to the threads can be counted beforehand (`nextId_launchAll`), since no
launch makes a difference for another script.
-/

namespace Blockwork

namespace Interpreter

variable {scene : Scene} {s s' : Interpreter} {top : String} {t t' : Thread} {script : Script}
  {target : Nat} {restart : Bool}

theorem isLive_iff : isLive top t = true ↔ t.status ≠ .done ∧ t.script.topId = top := by
  simp [isLive, Thread.isDone]

theorem isLive_restart (payload : Option Value) (hlive : t.status ≠ .done) (top : String) :
    isLive top (t.restart payload) = isLive top t := by
  rw [Bool.eq_iff_iff, isLive_iff, isLive_iff]
  exact ⟨fun h => ⟨hlive, h.2⟩, fun h => ⟨Status.noConfusion, h.2⟩⟩

/-- What the interpreter makes of a thread is not live unless the thread was. -/
theorem isLive_of_does {w : World} (ht : t.WellFormed) (h : t.Does w t')
    (hlive : isLive top t' = true) : isLive top t = true := by
  rw [isLive_iff] at hlive ⊢
  exact ⟨ht.live_of_does h hlive.1, h.same.script ▸ hlive.2⟩

theorem isRunning_iff : s.isRunning script = true ↔
    ∃ t ∈ s.threads, isLive script.topId t = true := List.any_eq_true

/-! ### The invariant -/

/-- The threads run scripts of the scene, and no two live ones run the same restarting script. -/
structure Single (scene : Scene) (s : Interpreter) : Prop where
  scripts : s.world.scene.scripts = scene.scripts
  sound : s.Sound
  threads : ∀ t ∈ s.threads, (t.target, t.script) ∈ scene.scripts
  once : ∀ t ∈ s.threads, t.script.restarts = true → ∀ t' ∈ s.threads,
    isLive t.script.topId t = true → isLive t.script.topId t' = true → t' = t

theorem single_fresh (scene : Scene) (clock : Clock) (settings : SchedulerSettings) :
    (fresh scene clock settings).Single scene :=
  ⟨rfl, sound_fresh scene clock settings, fun _ ht => absurd ht List.not_mem_nil,
    fun _ ht => absurd ht List.not_mem_nil⟩

namespace Single

theorem scripts_act (hs : s.Single scene) (h : Act .onlooker s s') :
    s'.world.scene.scripts = scene.scripts := by
  rw [← hs.scripts, Scene.scripts_eq, Scene.scripts_eq, h.onlooker_outline]

/-- An act that launches nothing makes live only what was live before. -/
theorem act (hs : s.Single scene) (h : Act .onlooker s s') (hnext : s'.nextId = s.nextId) :
    s'.Single scene := by
  have hsound := hs.sound.act h
  have hold : ∀ t' ∈ s'.threads, ∃ t ∈ s.threads, t.Does s.world t' := by
    intro t' ht'
    cases h.begets hs.sound.ordered ht' with
    | does ht hdoes => exact ⟨_, ht, hdoes⟩
    | handled _ hhandles _ => exact hhandles.elim
    | launched payload _ =>
      -- a new thread would have used up a number
      have hlt := hsound.ordered.below s.nextId (List.mem_map_of_mem ht')
      omega
  refine ⟨hs.scripts_act h, hsound, fun t' ht' => ?_, ?_⟩
  · obtain ⟨t, ht, hdoes⟩ := hold t' ht'
    rw [hdoes.same.target, hdoes.same.script]
    exact hs.threads t ht
  · intro t₁' ht₁' hrestarts t₂' ht₂' hlive₁ hlive₂
    obtain ⟨t₁, ht₁, hdoes₁⟩ := hold t₁' ht₁'
    obtain ⟨t₂, ht₂, hdoes₂⟩ := hold t₂' ht₂'
    rw [hdoes₁.same.script] at hrestarts hlive₁ hlive₂
    obtain rfl := hs.once t₁ ht₁ hrestarts t₂ ht₂
      (isLive_of_does (hs.sound.threads t₁ ht₁) hdoes₁ hlive₁)
      (isLive_of_does (hs.sound.threads t₂ ht₂) hdoes₂ hlive₂)
    exact hsound.ordered.eq_of_id ht₁' ht₂' (hdoes₂.same.id.trans hdoes₁.same.id.symm)

variable (hdistinct : (scene.scripts.map fun x => x.2.topId).Nodup)

include hdistinct

/-- The top block tells which script it is, and on which target. -/
theorem eq_of_topId (hs : s.Single scene) (ht : t ∈ s.threads)
    (hmem : (target, script) ∈ scene.scripts) (htop : t.script.topId = script.topId) :
    t.target = target ∧ t.script = script :=
  Prod.mk.inj (List.inj_on_of_nodup_map hdistinct (hs.threads t ht) hmem htop)

/-- A script is launched on behalf of its hat. -/
theorem launch (hs : s.Single scene) (hmem : (target, script) ∈ scene.scripts)
    (hrestarts : script.restarts = true → restart = true) (payload : Option Value) :
    (s.launch script target payload restart).2.Single scene := by
  rcases s.launch_cases script target payload restart with ⟨-, t, ht, hlive, heq⟩ | ⟨hnone, heq⟩
  · rw [heq]
    have hdone : t.isDone = false := by simpa [Thread.isDone] using (isLive_iff.mp hlive).1
    exact hs.act (.restart payload ht hdone) rfl
  · have hfree : script.restarts = true → ∀ t ∈ s.threads, ¬ isLive script.topId t = true := by
      intro hrs t ht hlive
      rw [hrestarts hrs, Bool.true_and] at hnone
      exact Bool.false_ne_true (hnone.symm.trans (isRunning_iff.mpr ⟨t, ht, hlive⟩))
    have hact : Act .onlooker s (s.launch script target payload restart).2 :=
      launch_act (.inl (hs.scripts ▸ hmem)) payload restart
    refine ⟨hs.scripts_act hact, hs.sound.act hact, ?_, ?_⟩ <;> rw [heq]
    · intro t ht
      rcases List.mem_append.mp ht with ht | ht
      · exact hs.threads t ht
      · rw [List.mem_singleton.mp ht]
        exact hmem
    · intro t ht hrs t' ht' hlive hlive'
      rcases List.mem_append.mp ht with ht | ht <;> rcases List.mem_append.mp ht' with ht' | ht'
      · exact hs.once t ht hrs t' ht' hlive hlive'
      · -- the new thread and one that was there would run the same script
        rw [List.mem_singleton.mp ht'] at hlive'
        have htop := (isLive_iff.mp hlive').2.symm
        obtain ⟨-, hscript⟩ := hs.eq_of_topId hdistinct ht hmem htop
        rw [hscript] at hrs hlive
        exact absurd hlive (hfree hrs t ht)
      · rw [List.mem_singleton.mp ht] at hrs hlive'
        exact absurd hlive' (hfree hrs t' ht')
      · rw [List.mem_singleton.mp ht, List.mem_singleton.mp ht']

theorem carefulAct (hs : s.Single scene) (h : CarefulAct .onlooker s s') : s'.Single scene := by
  cases h with
  | act hact hnext => exact hs.act hact hnext
  | launch payload hallowed =>
    obtain ⟨hmem, hrestarts⟩ := hallowed.resolve_right id
    rw [hs.scripts] at hmem
    exact hs.launch hdistinct hmem hrestarts payload

theorem carefulActs (hs : s.Single scene) (h : CarefulActs .onlooker s s') : s'.Single scene := by
  induction h with
  | refl => exact hs
  | tail _ hact ih => exact ih.carefulAct hdistinct hact

theorem countP_isLive_le_one (hs : s.Single scene) (hmem : (target, script) ∈ scene.scripts)
    (hrestarts : script.restarts = true) : s.threads.countP (isLive script.topId) ≤ 1 := by
  have hnodup : (s.threads.filter (isLive script.topId)).Nodup :=
    hs.sound.ordered.nodup.of_map.filter _
  have hsame : ∀ t ∈ s.threads.filter (isLive script.topId),
      ∀ t' ∈ s.threads.filter (isLive script.topId), t' = t := by
    simp only [List.mem_filter]
    rintro t ⟨ht, hlive⟩ t' ⟨ht', hlive'⟩
    obtain ⟨-, rfl⟩ := hs.eq_of_topId hdistinct ht hmem (isLive_iff.mp hlive).2
    exact hs.once t ht hrestarts t' ht' hlive hlive'
  rw [List.countP_eq_length_filter]
  match hfilter : s.threads.filter (isLive script.topId) with
  | [] => exact Nat.zero_le 1
  | [_] => exact Nat.le_refl 1
  | t :: t' :: rest =>
    rw [hfilter] at hnodup hsame
    have heq : t' = t := hsame t (List.mem_cons_self ..) t' (by simp)
    simp [heq] at hnodup

end Single

theorem Session.single (hdistinct : (scene.scripts.map fun x => x.2.topId).Nodup)
    (h : s.Session .onlooker scene) : s.Single scene := by
  obtain ⟨clock, settings, hacts⟩ := h.careful
  exact (single_fresh scene clock settings).carefulActs hdistinct hacts

/-! ### What firing adds -/

/-- Whether launching the script, restarting or not, adds a thread. -/
def registers (s : Interpreter) (x : Nat × Script × Bool) : Bool := !(x.2.2 && s.isRunning x.2.1)

theorem nextId_launch (script : Script) (target : Nat) (payload : Option Value) (restart : Bool)
    (s : Interpreter) : (s.launch script target payload restart).2.nextId =
      s.nextId + if s.registers (target, script, restart) then 1 else 0 := by
  rcases s.launch_cases script target payload restart with ⟨hrunning, _, -, -, heq⟩ | ⟨hnone, heq⟩
  · rw [heq, registers, hrunning]
    rfl
  · rw [heq, registers, hnone]
    rfl

/-- A thread that is not added leaves the numbers as they are. -/
theorem ids_launch (script : Script) (target : Nat) (payload : Option Value)
    (h : s.isRunning script = true) : (s.launch script target payload true).2.ids = s.ids := by
  have hadds := adds_launch script target payload true s
  have hnext := nextId_launch script target payload true s
  have hnone : s.registers (target, script, true) = false := by simp [registers, h]
  rw [hnone] at hnext
  rw [hadds.eq, numbers_of_eq hnext, List.append_nil]

theorem ids_noteEdge (target : Nat) (value : Bool) (h : s.isRunning script = true) :
    (s.noteEdge target script value).2.ids = s.ids := by
  simp only [noteEdge]
  split
  · exact ids_launch script target none (s := { s with edges := _ }) h
  · rfl

/-- A launch makes no difference for other scripts. -/
theorem isRunning_launch (hs : s.Ordered) {other : Script} (hother : script.topId ≠ other.topId)
    (target : Nat) (payload : Option Value) (restart : Bool) :
    (s.launch script target payload restart).2.isRunning other = s.isRunning other := by
  rw [Bool.eq_iff_iff, isRunning_iff, isRunning_iff]
  rcases s.launch_cases script target payload restart with ⟨-, t, ht, hlive, heq⟩ | ⟨-, heq⟩
  · rw [heq]
    simp only [modifyThread, List.mem_map, exists_exists_and_eq_and]
    refine exists_congr fun t' => and_congr_right fun ht' => ?_
    split
    · rename_i hid
      rw [hs.eq_of_id ht ht' hid, isLive_restart payload (isLive_iff.mp hlive).1]
    · rfl
  · rw [heq]
    simp [isLive_iff, Thread.launch, hother, or_and_right, exists_or]

/-- What launches of scripts with different top blocks add can be counted beforehand. -/
theorem nextId_launchAll (payload : Option Value) {xs : List (Nat × Script × Bool)}
    (hs : s.Ordered) (hxs : xs.Pairwise fun x y => x.2.1.topId ≠ y.2.1.topId) :
    (launchAll payload xs s).2.nextId = s.nextId + xs.countP s.registers := by
  induction xs generalizing s with
  | nil => rfl
  | cons x xs ih =>
    obtain ⟨target, script, restart⟩ := x
    obtain ⟨hx, hxs⟩ := List.pairwise_cons.mp hxs
    have hlaunched := hs.follows (adds_launch script target payload restart s).follows
    have hsame : xs.countP (s.launch script target payload restart).2.registers =
        xs.countP s.registers := by
      refine List.countP_congr fun y hy => ?_
      rw [registers, registers, isRunning_launch hs (hx y hy)]
    rw [launchAll, ih hlaunched hxs, hsame, nextId_launch, List.countP_cons]
    omega

/-- The scripts that a trigger fires have different top blocks if those of the scene have. -/
theorem pairwise_fired {scene : Scene} (hdistinct : (scene.scripts.map fun x => x.2.topId).Nodup)
    (g : Trigger) : (fired scene g).Pairwise fun x y => x.2.1.topId ≠ y.2.1.topId := by
  have htops := hdistinct.sublist ((fired_sublist scene g).map fun x => x.2.topId)
  rw [List.map_map] at htops
  exact List.pairwise_map.mp htops

theorem ids_trigger (hdistinct : (scene.scripts.map fun x => x.2.topId).Nodup) (hs : s.Single scene)
    (t : Trigger) :
    (s.trigger t).2.ids = s.ids ++ List.range' s.nextId ((fired scene t).countP s.registers) := by
  have hsame : fired s.world.scene t = fired scene t := by rw [fired, fired, hs.scripts]
  have hnext := nextId_launchAll t.payload hs.sound.ordered (pairwise_fired hdistinct t)
  rw [trigger, hsame, (adds_launchAll t.payload _ s).eq, numbers, hnext, Nat.add_sub_cancel_left]

end Interpreter

/-- A restarting script has one instance at a time.  Take a scene whose scripts all have different top
blocks, and a session whose host keeps to that scene and leaves all launches to the hats.  Each command,
and each frame as far as it has come, is a run of careful acts.  At every state, in the middle of
commands too, at most one live thread runs a script whose hat is an edge hat or restarts.  Firing such a
hat while that thread is live leaves the numbers of the threads as they are; so a trigger adds one
thread for each hat that it fires, apart from those. -/
theorem restarting_scripts_run_once {scene : Scene} {s : Interpreter}
    (hdistinct : (scene.scripts.map fun x => x.2.topId).Nodup) (hs : s.Session .onlooker scene) :
    (∀ fuel c s', c.Allowed .onlooker → s.perform fuel c = some s' → CarefulActs .onlooker s s') ∧
    (∀ fuel budget report s₁ log s₂, s.BeginsRound fuel budget report s₁ → s₁.Turns fuel 0 log s₂ →
      CarefulActs .onlooker s s₂) ∧
    ∀ s₁, CarefulActs .onlooker s s₁ →
      (∀ target script, (target, script) ∈ scene.scripts → script.restarts = true →
        s₁.threads.countP (Interpreter.isLive script.topId) ≤ 1 ∧
        (s₁.isRunning script = true →
          (∀ payload, (s₁.launch script target payload true).2.ids = s₁.ids) ∧
          ∀ value, (s₁.noteEdge target script value).2.ids = s₁.ids)) ∧
      ∀ t, (s₁.trigger t).2.ids =
          s₁.ids ++ List.range' s₁.nextId ((Interpreter.fired scene t).countP s₁.registers) ∧
        ∀ x ∈ Interpreter.fired scene t, x.2.1.restarts = true → s₁.isRunning x.2.1 = true →
          s₁.registers x = false := by
  refine ⟨fun _ _ _ hc h => Interpreter.perform_careful hc h, fun _ _ _ _ _ _ hbegins hturns =>
    hbegins.careful.trans hturns.careful, fun s₁ hacts => ?_⟩
  have hs₁ := (hs.single hdistinct).carefulActs hdistinct hacts
  refine ⟨fun target script hmem hrestarts => ⟨?_, fun hrunning => ⟨?_, ?_⟩⟩, fun t => ⟨?_, ?_⟩⟩
  · exact hs₁.countP_isLive_le_one hdistinct hmem hrestarts
  · exact fun payload => Interpreter.ids_launch script target payload hrunning
  · exact fun value => Interpreter.ids_noteEdge target value hrunning
  · exact Interpreter.ids_trigger hdistinct hs₁ t
  · intro x hx hrestarts hrunning
    rw [Interpreter.registers, Interpreter.restarts_of_fired hx hrestarts, hrunning]
    rfl

/-- A script that a key starts, once more each time it is pressed. -/
def Script.typing : Script :=
  ⟨.mk (Library.eventHat "event_whenkeypressed" [("KEY_OPTION", .field)]
    ((Hat.event Trigger.keyEvent).keyedBy "KEY_OPTION")) "type" 0
    [("KEY_OPTION", .literal (.str "a"))], []⟩

/-- A scene with that script, and one that a broadcast starts. -/
def Scene.typing : Scene := { targets := [{ Target.stage with scripts := [.answering, .typing] }] }

/-- A session of the scene, after a broadcast and a key. -/
def Interpreter.typing : Interpreter :=
  ((Interpreter.fresh .typing {} {}).trigger (.broadcast "go")).2.trigger (.keyPressed "a") |>.2

theorem Interpreter.typing_session : typing.Session .onlooker .typing := by
  have hbroadcast : Session .onlooker .typing
      ((Interpreter.fresh .typing {} {}).trigger (.broadcast "go")).2 :=
    @Session.perform _ _ 8 (.trigger (.broadcast "go")) _ _ (.fresh {} {}) trivial rfl
  exact @Session.perform _ _ 8 (.trigger (.keyPressed "a")) _ _ hbroadcast trivial rfl

/-- The broadcast restarts its script, and the key adds one more thread. -/
theorem restarting_scripts_run_once_typing :
    (Scene.typing.scripts.map fun x => x.2.topId).Nodup ∧
      Interpreter.typing.ids = [0, 1] ∧
      (Interpreter.typing.trigger (.broadcast "go")).2.ids = [0, 1] ∧
      (Interpreter.typing.trigger (.keyPressed "a")).2.ids = [0, 1, 2] ∧
      ∀ s, CarefulActs .onlooker Interpreter.typing s →
        s.threads.countP (Interpreter.isLive "answer") ≤ 1 := by
  have hdistinct : (Scene.typing.scripts.map fun x => x.2.topId).Nodup := by decide
  obtain ⟨-, -, hruns⟩ := restarting_scripts_run_once hdistinct Interpreter.typing_session
  obtain ⟨-, htrigger⟩ := hruns _ .refl
  refine ⟨hdistinct, rfl, ?_, ?_, fun s hacts => ?_⟩
  · exact (htrigger (.broadcast "go")).1
  · exact (htrigger (.keyPressed "a")).1
  · exact ((hruns s hacts).1 0 .answering (List.mem_cons_self ..) rfl).1

end Blockwork
