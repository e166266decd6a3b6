import Blockwork.Proofs.Dispatch

/-!
Who hears a broadcast.

Of the hats of the standard library only one is for broadcasts (`Library.blocks_broadcastHat`), and
custom blocks have no hats.  So the scripts that a broadcast starts can be read off their top blocks:
they are headed by that hat, with the message in its option (`Script.Over.isFiredBy_broadcast`).  Hats
for keys share the match on the option, and with it the word `any`, which is meant for every key: in
the option of a hat for broadcasts it fits every message.
-/

namespace Blockwork

variable {ds : List Declaration}

/-! ### The hat for broadcasts -/

/-- Whether broadcasts can fire the hat. -/
def Hat.isForBroadcasts (h : Hat) : Bool :=
  match h.kind with
  | .event name _ => name = Trigger.broadcastEvent
  | .edge => false

theorem Hat.isForBroadcasts_of_isFiredBy {h : Hat} {b : Block} {message : String}
    (hfires : h.isFiredBy b (.broadcast message) = true) : h.isForBroadcasts = true := by
  rw [isFiredBy] at hfires
  rw [isForBroadcasts]
  split at hfires
  · cases hfires
  · rename_i hkind
    rw [hkind]
    exact (Bool.and_eq_true_iff.mp hfires).1

namespace Library

/-- The hat that broadcasts fire. -/
def broadcastHat : Hat :=
  ((Hat.event Trigger.broadcastEvent).restarting true).keyedBy "BROADCAST_OPTION"

/-- Only one block of the library has a hat that broadcasts can fire. -/
theorem blocks_broadcastHat : (blocks.all fun p =>
    if p.opcode = "event_whenbroadcastreceived" then decide (p.hat = some broadcastHat)
    else !p.hat.any Hat.isForBroadcasts) = true := by decide

/-- The bodies that send broadcasts. -/
def isSender : Operation → Bool
  | .eager .broadcast | .eager .broadcastAndWait => true
  | _ => false

/-- Two blocks of the library send broadcasts. -/
theorem blocks_isSender : (blocks.all fun p => isSender p.operation ==
    decide (p.opcode ∈ ["event_broadcast", "event_broadcastandwait"])) = true := by decide

end Library

/-- No custom block takes the opcode of a block of the library. -/
def Declaration.AreNew (ds : List Declaration) : Prop :=
  ∀ d ∈ ds, d.signature ∉ Library.blocks.map Prototype.opcode

theorem Declaration.callDefinition_parts {d : Declaration} {p : Prototype}
    (h : d.callDefinition.build = .ok p) : p.opcode = d.signature ∧ p.hat = none := by
  rw [Definition.build] at h
  split at h
  · cases h
  · cases h
    exact ⟨rfl, rfl⟩

/-- A block with the opcode of a block of the library is that block. -/
theorem Prototype.IsKnown.library {p : Prototype} (h : p.IsKnown ds) (hnew : Declaration.AreNew ds)
    (hop : p.opcode ∈ Library.blocks.map Prototype.opcode) : p ∈ Library.blocks := by
  rcases h with h | ⟨d, hd, hbuild⟩
  · exact h
  · rw [(Declaration.callDefinition_parts hbuild).1] at hop
    exact absurd hop (hnew d hd)

/-! ### Scripts that listen -/

/-- The script is headed by the hat for broadcasts, and the option of the hat fits the message: it is
the same text, or the word `any`. -/
def Script.listensFor (message : String) (script : Script) : Bool :=
  script.top.opcode = "event_whenbroadcastreceived" &&
    match Table.get? "BROADCAST_OPTION" script.top.inputs with
    | some (.literal option) =>
      Text.eqIgnoringCase option.text "any" || Text.eqIgnoringCase message option.text
    | _ => false

theorem Script.listensFor_iff {script : Script} {message : String} :
    script.listensFor message = true ↔ script.top.opcode = "event_whenbroadcastreceived" ∧
      ∃ option, Table.get? "BROADCAST_OPTION" script.top.inputs = some (.literal option) ∧
        (Text.eqIgnoringCase option.text "any" = true ∨
          Text.eqIgnoringCase message option.text = true) := by
  rw [listensFor, Bool.and_eq_true, decide_eq_true_eq]
  refine and_congr_right fun _ => ?_
  cases Table.get? "BROADCAST_OPTION" script.top.inputs with
  | none => simp
  | some input => cases input <;> simp

namespace Script.Over

variable {script : Script}

/-- A script is headed by the hat for broadcasts, or by a block that no broadcast fires. -/
theorem hat_cases (h : script.Over ds) (hnew : Declaration.AreNew ds) :
    script.top.opcode = "event_whenbroadcastreceived" ∧ script.hat = some Library.broadcastHat ∨
    script.top.opcode ≠ "event_whenbroadcastreceived" ∧ script.hat.any Hat.isForBroadcasts = false := by
  obtain ⟨hknown, -⟩ := h script.top (List.mem_cons_self ..)
  by_cases hop : script.top.opcode = "event_whenbroadcastreceived"
  · have hlibrary := hknown.library hnew (by rw [← Block.opcode, hop]; decide)
    have hcheck := List.all_eq_true.mp Library.blocks_broadcastHat _ hlibrary
    rw [← Block.opcode, if_pos hop] at hcheck
    exact .inl ⟨hop, of_decide_eq_true hcheck⟩
  · refine .inr ⟨hop, ?_⟩
    rcases hknown with hlibrary | ⟨d, -, hbuild⟩
    · have hcheck := List.all_eq_true.mp Library.blocks_broadcastHat _ hlibrary
      rw [← Block.opcode, if_neg hop, Bool.not_eq_true'] at hcheck
      exact hcheck
    · rw [Script.hat, Block.hat, (Declaration.callDefinition_parts hbuild).2]
      rfl

/-- A broadcast fires the scripts that listen for its message, and starts them over. -/
theorem isFiredBy_broadcast (h : script.Over ds) (hnew : Declaration.AreNew ds) (message : String) :
    script.isFiredBy (.broadcast message) = script.listensFor message ∧
      (script.listensFor message = true → script.startsOver = true) := by
  rcases h.hat_cases hnew with ⟨hop, hhat⟩ | ⟨hne, hnone⟩
  · refine ⟨?_, fun _ => by rw [startsOver, hhat]; rfl⟩
    rw [isFiredBy, hhat, listensFor, hop]
    rfl
  · have hdeaf : script.listensFor message = false := by
      rw [listensFor, decide_eq_false hne, Bool.false_and]
    rw [hdeaf]
    refine ⟨?_, fun h => absurd h Bool.false_ne_true⟩
    rw [isFiredBy, Option.any_eq_false]
    intro hat hhat
    rw [hhat] at hnone
    exact Bool.eq_false_iff.mpr fun hfires =>
      Bool.eq_false_iff.mp hnone (Hat.isForBroadcasts_of_isFiredBy hfires)

end Script.Over

/-! ### Blocks that send -/

/-- A block with the opcode of a sender posts the broadcast of its message. -/
theorem Block.Over.posts {b : Block} (h : b.Over ds) (hnew : Declaration.AreNew ds)
    (hop : b.opcode ∈ ["event_broadcast", "event_broadcastandwait"]) :
    ∃ body, b.operation = .eager body ∧ ∀ args cx, ∃ completion,
      (body.run b.opcode args cx).2.services.outbox = cx.services.outbox ++
        [.broadcast (.broadcast (Args.text args "BROADCAST_INPUT")) completion] := by
  obtain ⟨hknown, -⟩ := h
  have hmem : b.opcode ∈ Library.blocks.map Prototype.opcode := by
    rcases List.mem_cons.mp hop with hop | hop
    · rw [hop]; decide
    · rw [List.mem_singleton.mp hop]; decide
  have hcheck := List.all_eq_true.mp Library.blocks_isSender _ (hknown.library hnew hmem)
  rw [beq_iff_eq, ← Block.opcode, decide_eq_true hop, ← Block.operation] at hcheck
  cases hoperation : b.operation with
  | eager body =>
    rw [hoperation] at hcheck
    refine ⟨body, rfl, fun args cx => ?_⟩
    cases body with
    | broadcast => exact ⟨none, rfl⟩
    | broadcastAndWait => exact ⟨some cx.freshSignal.1, rfl⟩
    | _ => cases hcheck
  | _ =>
    rw [hoperation] at hcheck
    cases hcheck

namespace Interpreter

/-- A broadcast launches the scripts of the scene that listen for its message, in scene order. -/
theorem fired_broadcast {scene : Scene} (h : scene.Over ds) (hnew : Declaration.AreNew ds)
    (message : String) : fired scene (.broadcast message) =
      (scene.scripts.filter fun x => x.2.listensFor message).map fun x => (x.1, x.2, true) := by
  have hsame : (scene.scripts.filter fun x => x.2.isFiredBy (.broadcast message)) =
      scene.scripts.filter fun x => x.2.listensFor message :=
    List.filter_congr fun x hx => ((h.scripts x hx).isFiredBy_broadcast hnew message).1
  rw [fired_eq, hsame]
  refine List.map_congr_left fun x hx => ?_
  obtain ⟨hmem, hlistens⟩ := List.mem_filter.mp hx
  rw [((h.scripts x hmem).isFiredBy_broadcast hnew message).2 hlistens]

/-- Carrying out a broadcast, whether its sender waits for it or not, does to the threads what the
trigger does. -/
theorem applyEffect_broadcast_threads (g : Trigger) (completion : Option Token) (s : Interpreter) :
    (s.applyEffect (.broadcast g completion)).threads = (s.trigger g).2.threads := by
  simp only [applyEffect]
  split
  · rfl
  · split <;> rfl

end Interpreter

/-- Who hears a broadcast.  In a scene over the standard library and custom blocks of other names, a
broadcast launches the scripts, in scene order, that are headed by the hat for broadcasts with the
message in its option, up to the case of ASCII letters, or with the word `any`; it launches no others.
The two blocks that send broadcasts post one with the text of their input, and carrying that out does
the same to the threads. -/
theorem broadcast_launches_listeners {s : Interpreter} (hscene : s.world.scene.Over ds)
    (hnew : Declaration.AreNew ds) (message : String) :
    s.trigger (.broadcast message) = Interpreter.launchAll none
      ((s.world.scene.scripts.filter fun x => x.2.listensFor message).map fun x => (x.1, x.2, true)) s ∧
    (∀ x ∈ s.world.scene.scripts, x.2.listensFor message = true ↔
      x.2.top.opcode = "event_whenbroadcastreceived" ∧
        ∃ option, Table.get? "BROADCAST_OPTION" x.2.top.inputs = some (.literal option) ∧
          (Text.eqIgnoringCase option.text "any" = true ∨
            Text.eqIgnoringCase message option.text = true)) ∧
    (∀ b : Block, b.Over ds → b.opcode ∈ ["event_broadcast", "event_broadcastandwait"] →
      ∃ body, b.operation = .eager body ∧ ∀ args cx, Args.text args "BROADCAST_INPUT" = message →
        ∃ completion, (body.run b.opcode args cx).2.services.outbox =
          cx.services.outbox ++ [.broadcast (.broadcast message) completion]) ∧
    ∀ completion, (s.applyEffect (.broadcast (.broadcast message) completion)).threads =
      (s.trigger (.broadcast message)).2.threads := by
  refine ⟨?_, fun x _ => Script.listensFor_iff, fun b hb hop => ?_, fun completion =>
    Interpreter.applyEffect_broadcast_threads _ completion s⟩
  · rw [Interpreter.trigger, Interpreter.fired_broadcast hscene hnew]
    rfl
  · obtain ⟨body, hbody, hposts⟩ := hb.posts hnew hop
    refine ⟨body, hbody, fun args cx htext => ?_⟩
    rw [← htext]
    exact hposts args cx

theorem Scene.calling_over : Scene.calling.Over [] := by
  have htyping : Script.typing.Over [] := by
    refine List.forall_mem_singleton.mpr (.intro (.inl (List.mem_of_getElem? (i := 10) rfl)) ?_)
    exact List.forall_mem_singleton.mpr (.literal _)
  have hechoing : Script.echoing.Over [] := by
    refine List.forall_mem_singleton.mpr (.intro (.inl (List.mem_of_getElem? (i := 9) rfl)) ?_)
    exact List.forall_mem_singleton.mpr (.literal _)
  refine ⟨fun x hx => ?_, fun _ hp => absurd hp List.not_mem_nil⟩
  rcases List.mem_cons.mp hx with rfl | hx
  · exact Script.answering_over
  · rcases List.mem_cons.mp hx with rfl | hx
    · exact htyping
    · rw [List.mem_singleton.mp hx]
      exact hechoing

/-- Two scripts hear the message, whatever the case of its letters, and none hears another one. -/
theorem broadcast_launches_listeners_calling :
    (Interpreter.fresh .calling {} {}).trigger (.broadcast "Go") = Interpreter.launchAll none
        [(0, .answering, true), (0, .echoing, true)] (.fresh .calling {} {}) ∧
      (Interpreter.fresh .calling {} {}).trigger (.broadcast "stop") =
        ([], .fresh .calling {} {}) := by
  have hnew : Declaration.AreNew [] := fun d hd => absurd hd List.not_mem_nil
  have hscene : (Interpreter.fresh .calling {} {}).world.scene.Over [] := Scene.calling_over
  exact ⟨(broadcast_launches_listeners hscene hnew "Go").1,
    (broadcast_launches_listeners hscene hnew "stop").1⟩

/-- A script that listens for the message `any`. -/
def Script.listeningForAny : Script :=
  ⟨.mk (Library.eventHat "event_whenbroadcastreceived" [("BROADCAST_OPTION", .field)]
    Library.broadcastHat) "listen" 4 [("BROADCAST_OPTION", .literal (.str "any"))], []⟩

/-- Another message starts the script that listens for the message `any`. -/
theorem other_message_starts_listener_for_any :
    ∃ s : Interpreter, s.world.scene.Over [] ∧
      s.world.scene.scripts = [(0, Script.listeningForAny)] ∧
      Script.listeningForAny.top.opcode = "event_whenbroadcastreceived" ∧
      Table.get? "BROADCAST_OPTION" Script.listeningForAny.top.inputs =
        some (.literal (.str "any")) ∧
      Text.eqIgnoringCase "go" "any" = false ∧
      (s.trigger (.broadcast "go")).1 = [0] ∧
      (s.trigger (.broadcast "go")).2.threads = [.launch 0 .listeningForAny 0 none] := by
  refine ⟨.fresh { targets := [{ Target.stage with scripts := [.listeningForAny] }] } {} {},
    ⟨fun x hx => ?_, fun _ hp => absurd hp List.not_mem_nil⟩, rfl, rfl, rfl, by decide, rfl, rfl⟩
  rw [List.mem_singleton.mp hx]
  refine List.forall_mem_singleton.mpr (.intro (.inl (List.mem_of_getElem? (i := 9) rfl)) ?_)
  exact List.forall_mem_singleton.mpr (.literal _)

end Blockwork
