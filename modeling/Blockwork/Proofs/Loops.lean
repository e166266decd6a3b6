import Blockwork.Proofs.AtOnce
import Blockwork.Proofs.Dispatch

/-!
Loops, slice by slice.

What a loop does is what its frame asks for: the evaluations, and the pauses between them.  Those are
read off the drive at the depth of the frame (`Machine.asks?`).  An evaluation that completes on its own
completes above the frame as well, without coming back to it on the way, and leaves the calls alone
(`Context.Completes.goesAbove`, `Context.Completes.calls_eq`).  So from one resumption of the frame to the
next there is at most one evaluation, and a pause ends the slice outside of warp calls and nothing inside
of them.  The rest is arithmetic of phases: each loop is always at one of a few frames, and what these
are resumed with no longer matters once it has been used.
-/

namespace Blockwork

open Relation

/-! ### Evaluations of a frame -/

namespace Machine

/-- What the top frame asks to have evaluated, and in which context, if it is the frame at the depth. -/
def asks? (depth : Nat) (m : Machine) : Option (Input × Context) :=
  match m.stack.frames with
  | [] => none
  | top :: rest =>
    if rest.length + 1 = depth then
      match top.resume m.stack.resumed m.cx with
      | (.ok (.evaluate i, _), cx) => some (i, cx)
      | _ => none
    else none

/-- What the frame at the depth asks to have evaluated in the course of a drive. -/
def asked (depth : Nat) : Nat → Machine → List (Input × Context)
  | 0, _ => []
  | fuel + 1, m =>
    (m.asks? depth).toList ++
      match m.step with
      | .next m => asked depth fuel m
      | .halt .. => []

/-- The drive gets from one machine to the other without returning, and on the way the frame at the
depth asks for these evaluations. -/
inductive Asks (depth : Nat) : Machine → List (Input × Context) → Machine → Prop
  | refl (m : Machine) : Asks depth m [] m
  | next {m m' m'' : Machine} {log : List (Input × Context)} :
      m.step = .next m' → Asks depth m' log m'' →
      Asks depth m ((m.asks? depth).toList ++ log) m''

/-- The drive gets from one machine to the other above a number of frames. -/
def GoesAbove (depth : Nat) : Machine → Machine → Prop :=
  ReflTransGen fun m m' => depth < m.stack.depth ∧ m.step = .next m'

variable {depth : Nat} {m m' m'' : Machine} {log log' : List (Input × Context)}

theorem asks?_of_lt (h : depth < m.stack.depth) : m.asks? depth = none := by
  rw [asks?]
  split
  · rfl
  · rename_i top rest hframes
    rw [FrameStack.depth, hframes] at h
    exact if_neg (Nat.ne_of_gt h)

theorem Asks.trans (h : m.Asks depth log m') (h' : m'.Asks depth log' m'') :
    m.Asks depth (log ++ log') m'' := by
  induction h with
  | refl => exact h'
  | next hstep _ ih =>
    rw [List.append_assoc]
    exact .next hstep (ih h')

theorem Asks.silent (hasks : m.asks? depth = none) (hstep : m.step = .next m') :
    m.Asks depth [] m' := by
  have hone : m.Asks depth _ m' := .next hstep (.refl m')
  rwa [hasks] at hone

theorem Asks.asking {e : Input × Context} (hasks : m.asks? depth = some e)
    (hstep : m.step = .next m') : m.Asks depth [e] m' := by
  have hone : m.Asks depth _ m' := .next hstep (.refl m')
  rwa [hasks] at hone

theorem GoesAbove.asks (h : GoesAbove depth m m') : m.Asks depth [] m' := by
  induction h with
  | refl => exact .refl _
  | tail _ hstep ih => exact ih.trans (.silent (asks?_of_lt hstep.1) hstep.2)

theorem GoesAbove.runsAbove (h : GoesAbove depth m m') : RunsAbove depth m m' := by
  induction h with
  | refl => exact .refl
  | tail _ hstep ih => exact ih.tail ⟨hstep.1, .next hstep.2⟩

/-- A drive that gets to a machine goes on as a drive from there. -/
theorem Asks.drive (h : m.Asks depth log m') : ∃ n, ∀ fuel,
    Machine.drive (fuel + n) m = Machine.drive fuel m' ∧
      asked depth (fuel + n) m = log ++ asked depth fuel m' := by
  induction h with
  | refl m => exact ⟨0, fun fuel => ⟨rfl, rfl⟩⟩
  | @next m m₁ m' log hstep _ ih =>
    obtain ⟨n, hn⟩ := ih
    refine ⟨n + 1, fun fuel => ?_⟩
    obtain ⟨hdrive, hasked⟩ := hn fuel
    rw [← Nat.add_assoc, drive_of_next hstep, asked, hstep, List.append_assoc, ← hasked]
    exact ⟨hdrive, rfl⟩

/-- A computation that finishes on its own hands its value to the frames below. -/
theorem goesAbove_of_drive {below : List Routine} (hbelow : below ≠ []) {fuel : Nat} {v : Value}
    (hm : m.stack.frames ≠ []) (h : drive fuel m = some (.ok (.finished v), m')) :
    GoesAbove below.length (m.above below) ⟨⟨below, some v⟩, m'.cx⟩ := by
  induction fuel generalizing m with
  | zero => cases h
  | succ fuel ih =>
    have hdepth : below.length < (m.above below).stack.depth := by
      rw [FrameStack.depth, above, List.length_append]
      exact Nat.lt_add_of_pos_left (List.length_pos_iff.mpr hm)
    have habove := step_above hbelow hm
    cases hstep : m.step with
    | next m₁ =>
      rw [hstep] at habove
      rw [drive_of_next hstep] at h
      exact ReflTransGen.head ⟨hdepth, habove⟩ (ih (frames_of_next hstep) h)
    | halt r m₁ =>
      rw [drive_of_halt hstep] at h
      cases h
      rw [hstep] at habove
      exact ReflTransGen.single ⟨hdepth, habove⟩

end Machine

/-- What needs no frame is there at once. -/
theorem Machine.evaluate_nil {i : Input} {cx : Context} {m : Machine}
    (h : evaluate [] i cx = .next m) (hm : m.stack.frames = []) : ∃ v, m = ⟨⟨[], some v⟩, cx⟩ := by
  cases i with
  | literal v =>
    cases h
    exact ⟨v, rfl⟩
  | block b =>
    rw [evaluate] at h
    split at h <;> cases h
    cases hm
  | stack bs =>
    cases bs <;> cases h
    · exact ⟨.null, rfl⟩
    · cases hm

/-! ### Evaluations that complete -/

/-- Evaluated on its own, the input comes to the value and leaves the other context, in one go: it does
not suspend, end the script, or fail. -/
def Context.Completes (cx : Context) (i : Input) (v : Value) (cx' : Context) : Prop :=
  ∃ fuel m, Machine.driveFrom fuel (Machine.evaluate [] i cx) = some (.ok (.finished v), m) ∧
    m.cx = cx'

namespace Context.Completes

open Machine

variable {cx cx' : Context} {i : Input} {v : Value} {top : Routine} {rest : List Routine}

/-- It completes above any frames. -/
theorem goesAbove (h : cx.Completes i v cx') (top : Routine) (rest : List Routine) :
    ∃ m, evaluate (top :: rest) i cx = .next m ∧
      GoesAbove (rest.length + 1) m ⟨⟨top :: rest, some v⟩, cx'⟩ := by
  obtain ⟨fuel, m, hdrive, rfl⟩ := h
  have habove : evaluate (top :: rest) i cx = (evaluate [] i cx).above (top :: rest) :=
    evaluate_above [] i cx
  cases heval : evaluate [] i cx with
  | halt r m₁ =>
    rw [heval, driveFrom] at hdrive
    cases hdrive
    exact (not_ok_of_evaluate heval).elim
  | next m₁ =>
    rw [heval] at hdrive habove
    refine ⟨_, habove, ?_⟩
    by_cases hm : m₁.stack.frames = []
    · obtain ⟨u, rfl⟩ := evaluate_nil heval hm
      cases fuel <;> cases hdrive
      exact ReflTransGen.refl
    · exact goesAbove_of_drive (List.cons_ne_nil _ _) hm hdrive

/-- It leaves the calls as they were. -/
theorem calls_eq (h : cx.Completes i v cx') (hcalls : cx.calls.Mirrors (top :: rest)) :
    cx'.calls = cx.calls := by
  obtain ⟨m, heval, habove⟩ := h.goesAbove top rest
  exact (evaluation_keeps_calls hcalls heval habove.runsAbove rfl).2

theorem calls_empty (h : cx.Completes i v cx') (hcx : cx.calls = {}) : cx'.calls = {} := by
  have hcalls : cx.calls.Mirrors [.relay] :=
    hcx ▸ CallStack.mirrors_empty (List.forall_mem_singleton.mpr rfl)
  rw [h.calls_eq hcalls, hcx]

end Context.Completes

/-! ### What a frame asks for -/

namespace Machine

variable {depth : Nat} {m : Machine} {r r' top : Routine} {rest : List Routine} {resumed : Option Value}
  {cx cx' : Context} {i : Input} {v : Value}

theorem asks?_of_evaluate (hres : r.resume resumed cx = (.ok (.evaluate i, r'), cx')) :
    asks? (rest.length + 1) ⟨⟨r :: rest, resumed⟩, cx⟩ = some (i, cx') := by
  simp only [asks?, hres, if_true]

/-- A frame that asks for something else asks for no evaluation. -/
theorem asks?_of_flow {flow : Flow} (hflow : ∀ i, flow ≠ .evaluate i)
    (hres : r.resume resumed cx = (.ok (flow, r'), cx')) :
    asks? depth ⟨⟨r :: rest, resumed⟩, cx⟩ = none := by
  simp only [asks?, hres]
  split
  · cases flow with
    | evaluate i => exact absurd rfl (hflow i)
    | _ => rfl
  · rfl

/-- An evaluation that completes comes back to the frame that has asked for it. -/
theorem asks_evaluate (rest : List Routine) (hres : r.resume resumed cx = (.ok (.evaluate i, r'), cx))
    (h : cx.Completes i v cx') :
    Asks (rest.length + 1) ⟨⟨r :: rest, resumed⟩, cx⟩ [(i, cx)] ⟨⟨r' :: rest, some v⟩, cx'⟩ := by
  obtain ⟨m, heval, habove⟩ := h.goesAbove r' rest
  refine (Asks.asking (asks?_of_evaluate hres) ?_).trans habove.asks
  rw [step_of_ok rfl hres, follow, heval]

/-- In a warp call a pause is over at once. -/
theorem asks_pause (rest : List Routine) (hres : r.resume resumed cx = (.ok (.pause, r'), cx))
    (hwarp : 0 < cx.calls.warpDepth) :
    Asks depth ⟨⟨r :: rest, resumed⟩, cx⟩ [] ⟨⟨r' :: rest, none⟩, cx⟩ := by
  refine .silent (asks?_of_flow (fun _ => Flow.noConfusion) hres) ?_
  rw [step_of_ok rfl hres, follow, if_pos hwarp]

/-- A value is handed down. -/
theorem asks_done (hres : r.resume resumed cx = (.ok (.done v, r'), cx)) :
    Asks depth ⟨⟨r :: top :: rest, resumed⟩, cx⟩ [] ⟨⟨top :: rest, some v⟩, cx⟩ := by
  refine .silent (asks?_of_flow (fun _ => Flow.noConfusion) hres) ?_
  rw [step_of_ok rfl hres]
  rfl

end Machine

/-! ### Steps of a thread whose script is one block -/

namespace Thread

variable {t t' : Thread} {b : Block} {r r' : Routine} {w : World} {log : List (Input × Context)}
  {resumed : Option Value} {cx : Context} {v : Value}

/-- The context in which a step of the thread begins. -/
def context (t : Thread) (w : World) : Context := (t.machine w).cx

/-- The thread with the frame of its block, before the frame is resumed. -/
def atFrame (t : Thread) (r : Routine) : Thread := { t with stack := ⟨[r, .stack []], none⟩ }

/-- A step on the world leaves the thread as given, and on the way the frame of its block asks for these
evaluations. -/
def Performs (t : Thread) (w : World) (log : List (Input × Context)) (status : Status)
    (t' : Thread) : Prop :=
  ∃ fuel w', t.step fuel w = some (.ok status, t', w') ∧ (t.machine w).asked 2 fuel = log

/-- The thread runs outside of calls, and the frame of its block is the first to be resumed. -/
structure StandsAt (t : Thread) (r : Routine) : Prop where
  status : t.status = .running
  calls : t.calls = {}
  gets : ∀ w, (t.machine w).Asks 2 [] ⟨⟨[r, .stack []], none⟩, t.context w⟩

theorem StandsAt.atFrame (h : t.StandsAt r) (r' : Routine) : (t.atFrame r').StandsAt r' :=
  ⟨h.status, h.calls, fun _ => .refl _⟩

/-- A step from the top of the script starts with the block. -/
theorem AtTop.standsAt {payload : Option Value} (h : t.AtTop payload) (hbody : t.script.body = [b])
    (hstart : b.start = .ok r) : t.StandsAt r := by
  refine ⟨h.status, h.calls, fun w => ?_⟩
  have hmachine : t.machine w = ⟨⟨[.stack [b]], none⟩, t.context w⟩ := by
    rw [context, machine, h.stack, hbody]
    rfl
  rw [hmachine]
  refine .silent rfl ?_
  rw [Machine.step_of_ok rfl rfl, Machine.follow, Machine.evaluate, hstart]

theorem performs_of_halt {last m : Machine} {slice : Slice} (hr : t.status = .running)
    (hw : (w.scene.target? t.target).isSome) (hgets : (t.machine w).Asks 2 log last)
    (hasks : last.asks? 2 = none) (hlast : last.step = .halt (.ok slice) m) :
    t.Performs w log (t.absorb (.ok slice) m).status (t.absorb (.ok slice) m) := by
  obtain ⟨n, hn⟩ := hgets.drive
  obtain ⟨hdrive, hasked⟩ := hn 1
  refine ⟨1 + n, m.cx.world, ?_, ?_⟩
  · rw [step_of_running hr (Option.isNone_eq_false_iff.mpr hw), hdrive, Machine.drive_of_halt hlast]
    rfl
  · rw [hasked, Machine.asked, hasks, hlast]
    exact List.append_nil log

/-- A pause of the block ends the slice, and the next one resumes the block after it. -/
theorem StandsAt.pauses (h : t.StandsAt r) (hw : (w.scene.target? t.target).isSome) {f : Routine}
    (hgets : (t.machine w).Asks 2 log ⟨⟨[f, .stack []], resumed⟩, cx⟩)
    (hres : f.resume resumed cx = (.ok (.pause, r'), cx)) (hcx : cx.calls = {})
    (hfence : (FrameStack.mk [r', .stack []] none).fence? = none) :
    t.Performs w log .running (t.atFrame r') := by
  have hstep : Machine.step ⟨⟨[f, .stack []], resumed⟩, cx⟩ =
      .halt (.ok .yielded) ⟨⟨[r', .stack []], none⟩, cx⟩ := by
    rw [Machine.step_of_ok rfl hres, Machine.follow, hcx]
    simp only [Machine.suspend, hfence]
    rfl
  have habsorb : t.absorb (.ok .yielded) ⟨⟨[r', .stack []], none⟩, cx⟩ = t.atFrame r' := by
    rw [absorb, Thread.atFrame, hcx, ← h.calls]
  have hperforms := performs_of_halt h.status hw hgets
    (Machine.asks?_of_flow (fun _ => Flow.noConfusion) hres) hstep
  rw [habsorb] at hperforms
  exact h.status ▸ hperforms

/-- When the block is done, so is the thread. -/
theorem StandsAt.ends (h : t.StandsAt r) (hw : (w.scene.target? t.target).isSome) {f : Routine}
    (hgets : (t.machine w).Asks 2 log ⟨⟨[f, .stack []], resumed⟩, cx⟩)
    (hres : f.resume resumed cx = (.ok (.done v, r'), cx)) : ∃ t', t.Performs w log .done t' := by
  have hdown := hgets.trans (Machine.asks_done hres)
  rw [List.append_nil] at hdown
  exact ⟨_, performs_of_halt h.status hw hdown rfl rfl⟩

end Thread

/-! ### Turns of loops -/

/-- What a loop with a test does when the test has failed: its body, if it has one, completes. -/
def Block.Pass (b : Block) (hasBody : Bool) (cx cx' : Context) : Prop :=
  if hasBody then ∃ v, cx.Completes (b.input "SUBSTACK") v cx' else cx' = cx

namespace Block.Pass

variable {b : Block} {hasBody : Bool} {cx cx' : Context}

/-- A pass does nothing, or evaluates the body. -/
theorem cases (h : b.Pass hasBody cx cx') :
    cx' = cx ∨ ∃ v, cx.Completes (b.input "SUBSTACK") v cx' := by
  cases hasBody with
  | false => exact .inl h
  | true => exact .inr h

theorem calls_eq (h : b.Pass hasBody cx cx') {top : Routine} {rest : List Routine}
    (hcalls : cx.calls.Mirrors (top :: rest)) : cx'.calls = cx.calls := by
  rcases h.cases with rfl | ⟨v, hbody⟩
  · rfl
  · exact hbody.calls_eq hcalls

theorem calls_empty (h : b.Pass hasBody cx cx') (hcx : cx.calls = {}) : cx'.calls = {} := by
  rcases h.cases with rfl | ⟨v, hbody⟩
  · exact hcx
  · exact hbody.calls_empty hcx

end Block.Pass

/-- What it asks for then. -/
def Block.passLog (b : Block) (hasBody : Bool) (cx : Context) : List (Input × Context) :=
  if hasBody then [(b.input "SUBSTACK", cx)] else []

/-- The frame is about to begin a turn of a counted loop, if there is one left. -/
def Routine.Counts (r : Routine) (resumed : Option Value) (b : Block) (remaining : Int) : Prop :=
  ∀ cx, r.resume resumed cx = (.ok (Routine.repeatBody b remaining), cx)

/-- With no turn left it is done. -/
theorem Routine.Counts.done {r : Routine} {resumed : Option Value} {b : Block} {remaining : Int}
    (h : r.Counts resumed b remaining) (hremaining : remaining ≤ 0) (cx : Context) :
    r.resume resumed cx = (.ok (.done .null, .relay), cx) := by
  rw [h, repeatBody, if_pos hremaining]

namespace Machine

variable {b : Block} {hasBody : Bool} {r : Routine} {rest : List Routine} {resumed : Option Value}
  {cx cx' cx'' : Context} {v : Value} {remaining : Int}

theorem asks_turn (rest : List Routine) (hr : r.Counts resumed b remaining) (hremaining : 0 < remaining)
    (h : cx.Completes (b.input "SUBSTACK") v cx') :
    Asks (rest.length + 1) ⟨⟨r :: rest, resumed⟩, cx⟩ [(b.input "SUBSTACK", cx)]
      ⟨⟨.repeatTimes b (.pause (remaining - 1)) :: rest, some v⟩, cx'⟩ := by
  refine asks_evaluate rest ?_ h
  rw [hr, Routine.repeatBody, if_neg (Int.not_le.mpr hremaining)]

/-- A test that fails, and what follows it, end in a pause. -/
theorem asks_pass (rest : List Routine) (resumed : Option Value)
    (h : cx.Completes (b.input "CONDITION") v cx') (hv : v.toBool = false)
    (hpass : b.Pass hasBody cx' cx'') : ∃ r' resumed',
      Asks (rest.length + 1) ⟨⟨.repeatUntil b hasBody .test :: rest, resumed⟩, cx⟩
        ((b.input "CONDITION", cx) :: b.passLog hasBody cx') ⟨⟨r' :: rest, resumed'⟩, cx''⟩ ∧
      r'.resume resumed' cx'' = (.ok (.pause, .repeatUntil b hasBody .test), cx'') := by
  have htest : Asks (rest.length + 1) ⟨⟨.repeatUntil b hasBody .test :: rest, resumed⟩, cx⟩
      [(b.input "CONDITION", cx)] ⟨⟨.repeatUntil b hasBody .check :: rest, some v⟩, cx'⟩ :=
    asks_evaluate rest rfl h
  have hfails : Routine.holds (some v) = false := hv
  cases hasBody with
  | false =>
    obtain rfl : cx'' = cx' := hpass
    refine ⟨_, _, htest, ?_⟩
    simp only [Routine.resume, hfails]
    rfl
  | true =>
    obtain ⟨u, hbody⟩ : ∃ u, cx'.Completes (b.input "SUBSTACK") u cx'' := hpass
    refine ⟨.repeatUntil b true .body, some u, htest.trans (asks_evaluate rest ?_ hbody), rfl⟩
    simp only [Routine.resume, hfails]
    rfl

/-- A test that holds ends the loop. -/
theorem asks_hold (rest : List Routine) (resumed : Option Value)
    (h : cx.Completes (b.input "CONDITION") v cx') (hv : v.toBool = true) :
    ∃ r' resumed', Asks (rest.length + 1) ⟨⟨.repeatUntil b hasBody .test :: rest, resumed⟩, cx⟩
        [(b.input "CONDITION", cx)] ⟨⟨r' :: rest, resumed'⟩, cx'⟩ ∧
      r'.resume resumed' cx' = (.ok (.done .null, .relay), cx') := by
  refine ⟨_, _, asks_evaluate rest rfl h, ?_⟩
  have hholds : Routine.holds (some v) = true := hv
  simp only [Routine.resume, hholds]
  rfl

end Machine

/-! ### Loops in slices of their own -/

namespace Thread

variable {t : Thread} {b : Block} {hasBody : Bool} {w : World} {cx cx' : Context} {u v : Value}

theorem StandsAt.forever (h : t.StandsAt (.forever b false))
    (hw : (w.scene.target? t.target).isSome)
    (hbody : (t.context w).Completes (b.input "SUBSTACK") u cx') :
    t.Performs w [(b.input "SUBSTACK", t.context w)] .running (t.atFrame (.forever b false)) :=
  h.pauses hw ((h.gets w).trans (Machine.asks_evaluate [.stack []] rfl hbody)) rfl
    (hbody.calls_empty h.calls) rfl

/-- A step in which the test fails. -/
theorem StandsAt.fails (h : t.StandsAt (.repeatUntil b hasBody .test))
    (hw : (w.scene.target? t.target).isSome)
    (htest : (t.context w).Completes (b.input "CONDITION") v cx) (hv : v.toBool = false)
    (hpass : b.Pass hasBody cx cx') :
    t.Performs w ((b.input "CONDITION", t.context w) :: b.passLog hasBody cx) .running
      (t.atFrame (.repeatUntil b hasBody .test)) := by
  obtain ⟨r', resumed', hasks, hres⟩ := Machine.asks_pass [.stack []] none htest hv hpass
  exact h.pauses hw ((h.gets w).trans hasks) hres (hpass.calls_empty (htest.calls_empty h.calls)) rfl

/-- The step in which it holds. -/
theorem StandsAt.holds (h : t.StandsAt (.repeatUntil b hasBody .test))
    (hw : (w.scene.target? t.target).isSome)
    (htest : (t.context w).Completes (b.input "CONDITION") v cx) (hv : v.toBool = true) :
    ∃ t', t.Performs w [(b.input "CONDITION", t.context w)] .done t' := by
  obtain ⟨r', resumed', hasks, hres⟩ := Machine.asks_hold [.stack []] none htest hv
  exact h.ends hw ((h.gets w).trans hasks) hres

/-- The thread before a step of a loop that always pauses at the same frame. -/
def looping (t : Thread) (r : Routine) : Nat → Thread
  | 0 => t
  | _ + 1 => t.atFrame r

theorem StandsAt.looping {r : Routine} (h : t.StandsAt r) (k : Nat) :
    (t.looping r k).StandsAt r ∧ (t.looping r k).target = t.target ∧
      (∀ w, (t.looping r k).context w = t.context w) ∧
      (t.looping r k).atFrame r = t.looping r (k + 1) := by
  cases k with
  | zero => exact ⟨h, rfl, fun _ => rfl, rfl⟩
  | succ k => exact ⟨h.atFrame r, rfl, fun _ => rfl, rfl⟩

/-- What a counted loop asks for in a step before its body. -/
def countLog (t : Thread) (b : Block) (w : Nat → World) : Nat → List (Input × Context)
  | 0 => [(b.input "TIMES", t.context (w 0))]
  | _ + 1 => []

/-- The context of its body in a step: in the first one the count has been evaluated, and left `cx`. -/
def bodyContext (t : Thread) (w : Nat → World) (cx : Context) : Nat → Context
  | 0 => cx
  | k + 1 => t.context (w (k + 1))

/-- The thread before a step of a counted loop. -/
def counting (t : Thread) (b : Block) (times : Int) : Nat → Thread
  | 0 => t
  | k + 1 => t.atFrame (.repeatTimes b (.body (times - (k + 1))))

/-- Each step of a counted loop gets to a turn. -/
theorem StandsAt.counts {w : Nat → World} (h : t.StandsAt (.repeatTimes b .start))
    (htimes : (t.context (w 0)).Completes (b.input "TIMES") v cx) (k : Nat) :
    ∃ r r₀ resumed, (t.counting b (roundInt64 v.toNumber) k).StandsAt r₀ ∧
      ((t.counting b (roundInt64 v.toNumber) k).machine (w k)).Asks 2 (t.countLog b w k)
        ⟨⟨[r, .stack []], resumed⟩, t.bodyContext w cx k⟩ ∧
      r.Counts resumed b (roundInt64 v.toNumber - k) ∧ (t.bodyContext w cx k).calls = {} := by
  cases k with
  | zero =>
    refine ⟨.repeatTimes b .count, _, some v, h, ?_, fun cx => ?_, htimes.calls_empty h.calls⟩
    · exact (h.gets (w 0)).trans (Machine.asks_evaluate [.stack []] rfl htimes)
    · have hall : roundInt64 v.toNumber - ((0 : Nat) : Int) = roundInt64 v.toNumber := Int.sub_zero _
      rw [hall]
      rfl
  | succ k => exact ⟨_, _, none, h.atFrame _, .refl _, fun _ => rfl, h.calls⟩

/-- A step with a turn left. -/
theorem StandsAt.turns {w : Nat → World} (h : t.StandsAt (.repeatTimes b .start))
    (htimes : (t.context (w 0)).Completes (b.input "TIMES") v cx) {k : Nat}
    (hw : ((w k).scene.target? t.target).isSome) (hk : k < (roundInt64 v.toNumber).toNat)
    (hbody : (t.bodyContext w cx k).Completes (b.input "SUBSTACK") u cx') :
    (t.counting b (roundInt64 v.toNumber) k).Performs (w k)
      (t.countLog b w k ++ [(b.input "SUBSTACK", t.bodyContext w cx k)]) .running
      (t.counting b (roundInt64 v.toNumber) (k + 1)) := by
  obtain ⟨r, r₀, resumed, hstands, hasks, hcounts, hcalls⟩ := h.counts htimes k
  have hturn := hasks.trans (Machine.asks_turn [.stack []] hcounts (by omega) hbody)
  have hnext : (t.counting b (roundInt64 v.toNumber) k).atFrame
      (.repeatTimes b (.body (roundInt64 v.toNumber - k - 1))) =
      t.counting b (roundInt64 v.toNumber) (k + 1) := by
    rw [Int.sub_sub]
    cases k <;> rfl
  have htarget : (t.counting b (roundInt64 v.toNumber) k).target = t.target := by cases k <;> rfl
  rw [← hnext]
  exact hstands.pauses (htarget ▸ hw) hturn rfl (hbody.calls_empty hcalls) rfl

/-- The step with none left. -/
theorem StandsAt.runsOut {w : Nat → World} (h : t.StandsAt (.repeatTimes b .start))
    (htimes : (t.context (w 0)).Completes (b.input "TIMES") v cx)
    (hw : ∀ k, ((w k).scene.target? t.target).isSome) :
    ∃ t', (t.counting b (roundInt64 v.toNumber) (roundInt64 v.toNumber).toNat).Performs
      (w (roundInt64 v.toNumber).toNat) (t.countLog b w (roundInt64 v.toNumber).toNat) .done t' := by
  generalize hn : (roundInt64 v.toNumber).toNat = n
  obtain ⟨r, r₀, resumed, hstands, hasks, hcounts, -⟩ := h.counts htimes n
  have htarget : (t.counting b (roundInt64 v.toNumber) n).target = t.target := by cases n <;> rfl
  exact hstands.ends (htarget ▸ hw n) hasks (hcounts.done (by omega) _)

end Thread

/-! ### Loops inside warp calls -/

namespace Machine

variable {b : Block} {hasBody : Bool} {r : Routine} {rest : List Routine} {resumed : Option Value}
  {c d : Nat → Context} {v : Nat → Value} {times : Int} {n : Nat}

/-- The turns of a counted loop follow one another, each in the context that the last one has left. -/
theorem asks_turns (hr : r.Counts resumed b times) (hwarp : 0 < (c 0).calls.warpDepth)
    (hcalls : (c 0).calls.Mirrors rest) (hn : n ≤ times)
    (hbody : ∀ k < n, ∃ u, (c k).Completes (b.input "SUBSTACK") u (c (k + 1))) :
    ∃ r' resumed', r'.Counts resumed' b (times - n) ∧ (c n).calls = (c 0).calls ∧
      Asks (rest.length + 1) ⟨⟨r :: rest, resumed⟩, c 0⟩
        ((List.range n).map fun k => (b.input "SUBSTACK", c k)) ⟨⟨r' :: rest, resumed'⟩, c n⟩ := by
  induction n with
  | zero =>
    refine ⟨r, resumed, ?_, rfl, .refl _⟩
    rw [show times - ((0 : Nat) : Int) = times from Int.sub_zero _]
    exact hr
  | succ n ih =>
    obtain ⟨r', resumed', hr', hcn, hasks⟩ :=
      ih (by omega) fun k hk => hbody k (Nat.lt_succ_of_lt hk)
    obtain ⟨u, hturn⟩ := hbody n (Nat.lt_succ_self n)
    have hmirrors : (c n).calls.Mirrors (.relay :: rest) := (hcn ▸ hcalls).cons rfl
    have hnext := hturn.calls_eq hmirrors
    refine ⟨.repeatTimes b (.body (times - n - 1)), none, fun cx => ?_, hnext.trans hcn, ?_⟩
    · rw [show times - ((n + 1 : Nat) : Int) = times - n - 1 by omega]
      rfl
    · rw [List.range_succ, List.map_append]
      have hwarp' : 0 < (c (n + 1)).calls.warpDepth := by
        rw [hnext, hcn]
        exact hwarp
      exact hasks.trans ((asks_turn rest hr' (by omega) hturn).trans (asks_pause rest rfl hwarp'))

/-- The passes of a loop with a test follow one another as long as the test fails. -/
theorem asks_passes (hwarp : 0 < (c 0).calls.warpDepth) (hcalls : (c 0).calls.Mirrors rest)
    (htest : ∀ k < n, (c k).Completes (b.input "CONDITION") (v k) (d k))
    (hpass : ∀ k < n, (v k).toBool = false ∧ b.Pass hasBody (d k) (c (k + 1))) :
    (c n).calls = (c 0).calls ∧
      Asks (rest.length + 1) ⟨⟨.repeatUntil b hasBody .test :: rest, none⟩, c 0⟩
        ((List.range n).flatMap fun k => (b.input "CONDITION", c k) :: b.passLog hasBody (d k))
        ⟨⟨.repeatUntil b hasBody .test :: rest, none⟩, c n⟩ := by
  induction n with
  | zero => exact ⟨rfl, .refl _⟩
  | succ n ih =>
    obtain ⟨hcn, hasks⟩ := ih (fun k hk => htest k (Nat.lt_succ_of_lt hk))
      fun k hk => hpass k (Nat.lt_succ_of_lt hk)
    obtain ⟨hfails, hdone⟩ := hpass n (Nat.lt_succ_self n)
    have htested := htest n (Nat.lt_succ_self n)
    have hmirrors : (c n).calls.Mirrors (.relay :: rest) := (hcn ▸ hcalls).cons rfl
    have hnext : (c (n + 1)).calls = (c 0).calls :=
      (hdone.calls_eq (htested.calls_eq hmirrors ▸ hmirrors)).trans
        ((htested.calls_eq hmirrors).trans hcn)
    obtain ⟨r', resumed', hturn, hres⟩ := asks_pass rest none htested hfails hdone
    refine ⟨hnext, ?_⟩
    rw [List.range_succ, List.flatMap_append]
    have hround := hturn.trans (asks_pause rest hres (hnext ▸ hwarp))
    rw [List.append_nil] at hround
    have hlast : [n].flatMap (fun k => (b.input "CONDITION", c k) :: b.passLog hasBody (d k)) =
        (b.input "CONDITION", c n) :: b.passLog hasBody (d n) := List.flatMap_singleton ..
    rw [hlast]
    exact hasks.trans hround

section

variable {cx : Context} {top : Routine} {x : Value}

/-- Inside a warp call, a counted loop takes all its turns and is done without giving way. -/
theorem asks_repeat (hop : b.operation = .repeatTimes) (hwarp : 0 < cx.calls.warpDepth)
    (hcalls : cx.calls.Mirrors (top :: rest)) (htimes : cx.Completes (b.input "TIMES") x (c 0))
    (hbody : ∀ k < (roundInt64 x.toNumber).toNat,
      ∃ u, (c k).Completes (b.input "SUBSTACK") u (c (k + 1))) :
    ∃ m, evaluate (top :: rest) (.block b) cx = .next m ∧
      m.Asks (rest.length + 2)
        ((b.input "TIMES", cx) ::
          (List.range (roundInt64 x.toNumber).toNat).map fun k => (b.input "SUBSTACK", c k))
        ⟨⟨top :: rest, some .null⟩, c (roundInt64 x.toNumber).toNat⟩ := by
  refine ⟨⟨⟨.repeatTimes b .start :: top :: rest, none⟩, cx⟩, ?_, ?_⟩
  · rw [evaluate, Block.start, hop]
  have hc : (c 0).calls = cx.calls := htimes.calls_eq hcalls
  have hcount : Asks (rest.length + 2) ⟨⟨.repeatTimes b .start :: top :: rest, none⟩, cx⟩
      [(b.input "TIMES", cx)] ⟨⟨.repeatTimes b .count :: top :: rest, some x⟩, c 0⟩ :=
    asks_evaluate (top :: rest) rfl htimes
  have hcounts : (Routine.repeatTimes b .count).Counts (some x) b (roundInt64 x.toNumber) :=
    fun _ => rfl
  rcases Int.le_total (roundInt64 x.toNumber) 0 with hnone | hsome
  · -- no turn at all
    rw [Int.toNat_of_nonpos hnone]
    exact hcount.trans (asks_done (hcounts.done hnone (c 0)))
  · obtain ⟨r', resumed', hr', -, hturns⟩ := asks_turns hcounts (hc ▸ hwarp) (hc ▸ hcalls)
      (Int.toNat_of_nonneg hsome).le hbody
    rw [Int.toNat_of_nonneg hsome, Int.sub_self] at hr'
    have hdone := hturns.trans (asks_done (hr'.done (Int.le_refl 0) _))
    rw [List.append_nil] at hdone
    exact hcount.trans hdone

/-- Inside a warp call, a loop with a test passes until the test holds, without giving way. -/
theorem asks_until (hop : b.operation = .repeatUntil hasBody) (hwarp : 0 < (c 0).calls.warpDepth)
    (hcalls : (c 0).calls.Mirrors (top :: rest))
    (htest : ∀ k ≤ n, (c k).Completes (b.input "CONDITION") (v k) (d k))
    (hpass : ∀ k < n, (v k).toBool = false ∧ b.Pass hasBody (d k) (c (k + 1)))
    (hholds : (v n).toBool = true) :
    ∃ m, evaluate (top :: rest) (.block b) (c 0) = .next m ∧
      m.Asks (rest.length + 2)
        ((List.range n).flatMap (fun k =>
          (b.input "CONDITION", c k) :: b.passLog hasBody (d k)) ++ [(b.input "CONDITION", c n)])
        ⟨⟨top :: rest, some .null⟩, d n⟩ := by
  refine ⟨⟨⟨.repeatUntil b hasBody .test :: top :: rest, none⟩, c 0⟩, ?_, ?_⟩
  · rw [evaluate, Block.start, hop]
  obtain ⟨-, hpasses⟩ := asks_passes hwarp hcalls (fun k hk => htest k (Nat.le_of_lt hk)) hpass
  obtain ⟨r', resumed', hlast, hres⟩ :=
    @asks_hold b hasBody _ _ _ (top :: rest) none (htest n (Nat.le_refl n)) hholds
  have hdone := hlast.trans (asks_done hres)
  rw [List.append_nil] at hdone
  exact hpasses.trans hdone

end

end Machine

/-! ### The loops of the standard library -/

/-- A block of the standard library that drives its own evaluation is no hat, and starts as its operation
says. -/
theorem Block.of_require {b : Block} {opcode : String} {inputs : Table Shape} {operation : Operation}
    (hcontrol : Library.registry.require opcode = .ok (Library.control opcode inputs operation))
    (h : Library.registry.require opcode = .ok b.prototype) :
    b.hat = none ∧ b.operation = operation := by
  have hproto : b.prototype = Library.control opcode inputs operation :=
    Except.ok.inj (h.symm.trans hcontrol)
  rw [Block.hat, Block.operation, hproto]
  exact ⟨rfl, rfl⟩

/-- The opcode of a loop with a test. -/
def untilOpcode (hasBody : Bool) : String :=
  if hasBody then "control_repeat_until" else "control_wait_until"

theorem Script.body_of_blocks {script : Script} {b : Block} (h : script.blocks = [b])
    (hb : b.hat = none) : script.body = [b] := by
  obtain ⟨htop, hrest⟩ : script.top = b ∧ script.rest = [] := by simpa [Script.blocks] using h
  rw [Script.body, Script.hat, htop, hrest, hb]
  rfl

/-- Loops keep to their slices.  Let a thread outside of calls stand at the top of a script that is a
single loop, and let the evaluations that the loop asks for complete in one go, on whatever worlds its
steps run.  A counted loop evaluates its count in the first step and its body once in each of as many
steps as the count says, and the step after these ends the thread.  A loop with a test makes it once in
each step, then runs its body, if it has one, if the test has failed, and ends the thread in the step
in which it holds.  An endless loop runs its body once in each step.  Inside a warp call, above any
frames, the loops that end ask for the same evaluations in the same order without giving way. -/
theorem loops_keep_to_slices {b : Block} {t : Thread} {payload : Option Value} (ht : t.AtTop payload)
    (hscript : t.script.blocks = [b]) {w : Nat → World}
    (hw : ∀ k, ((w k).scene.target? t.target).isSome) :
    (Library.registry.require "control_repeat" = .ok b.prototype → ∀ v cx,
      (t.context (w 0)).Completes (b.input "TIMES") v cx →
      (∀ k < (roundInt64 v.toNumber).toNat,
        ∃ u cx', (t.bodyContext w cx k).Completes (b.input "SUBSTACK") u cx') →
      ∃ ts : Nat → Thread, ts 0 = t ∧
        (∀ k < (roundInt64 v.toNumber).toNat, (ts k).Performs (w k)
          (t.countLog b w k ++ [(b.input "SUBSTACK", t.bodyContext w cx k)]) .running (ts (k + 1))) ∧
        ∃ t', (ts (roundInt64 v.toNumber).toNat).Performs (w (roundInt64 v.toNumber).toNat)
          (t.countLog b w (roundInt64 v.toNumber).toNat) .done t') ∧
    (∀ hasBody, Library.registry.require (untilOpcode hasBody) = .ok b.prototype →
      ∀ (n : Nat) (v : Nat → Value) (cx : Nat → Context),
      (∀ k < n, (t.context (w k)).Completes (b.input "CONDITION") (v k) (cx k) ∧
        (v k).toBool = false ∧ ∃ cx', b.Pass hasBody (cx k) cx') →
      ∃ ts : Nat → Thread, ts 0 = t ∧
        (∀ k < n, (ts k).Performs (w k)
          ((b.input "CONDITION", t.context (w k)) :: b.passLog hasBody (cx k)) .running
          (ts (k + 1))) ∧
        ((t.context (w n)).Completes (b.input "CONDITION") (v n) (cx n) → (v n).toBool = true →
          ∃ t', (ts n).Performs (w n) [(b.input "CONDITION", t.context (w n))] .done t')) ∧
    (Library.registry.require "control_forever" = .ok b.prototype → ∀ n : Nat,
      (∀ k < n, ∃ u cx', (t.context (w k)).Completes (b.input "SUBSTACK") u cx') →
      ∃ ts : Nat → Thread, ts 0 = t ∧
        ∀ k < n, (ts k).Performs (w k) [(b.input "SUBSTACK", t.context (w k))] .running
          (ts (k + 1))) ∧
    ∀ (top : Routine) (rest : List Routine) (c : Nat → Context),
      0 < (c 0).calls.warpDepth → (c 0).calls.Mirrors (top :: rest) →
      (Library.registry.require "control_repeat" = .ok b.prototype → ∀ v,
        (c 0).Completes (b.input "TIMES") v (c 1) →
        (∀ k < (roundInt64 v.toNumber).toNat,
          ∃ u, (c (k + 1)).Completes (b.input "SUBSTACK") u (c (k + 2))) →
        ∃ m, Machine.evaluate (top :: rest) (.block b) (c 0) = .next m ∧
          m.Asks (rest.length + 2)
            ((b.input "TIMES", c 0) :: (List.range (roundInt64 v.toNumber).toNat).map fun k =>
              (b.input "SUBSTACK", c (k + 1)))
            ⟨⟨top :: rest, some .null⟩, c ((roundInt64 v.toNumber).toNat + 1)⟩) ∧
      ∀ hasBody, Library.registry.require (untilOpcode hasBody) = .ok b.prototype →
        ∀ (n : Nat) (v : Nat → Value) (d : Nat → Context),
        (∀ k ≤ n, (c k).Completes (b.input "CONDITION") (v k) (d k)) →
        (∀ k < n, (v k).toBool = false ∧ b.Pass hasBody (d k) (c (k + 1))) →
        (v n).toBool = true →
        ∃ m, Machine.evaluate (top :: rest) (.block b) (c 0) = .next m ∧
          m.Asks (rest.length + 2)
            ((List.range n).flatMap (fun k =>
              (b.input "CONDITION", c k) :: b.passLog hasBody (d k)) ++
                [(b.input "CONDITION", c n)])
            ⟨⟨top :: rest, some .null⟩, d n⟩ := by
  have hrepeat : Library.registry.require "control_repeat" = .ok b.prototype →
      b.hat = none ∧ b.operation = .repeatTimes := Block.of_require rfl
  have huntil : ∀ hasBody, Library.registry.require (untilOpcode hasBody) = .ok b.prototype →
      b.hat = none ∧ b.operation = .repeatUntil hasBody := by
    intro hasBody h
    cases hasBody with
    | false => exact @Block.of_require _ "control_wait_until" _ _ rfl h
    | true => exact @Block.of_require _ "control_repeat_until" _ _ rfl h
  refine ⟨fun hb v cx htimes hbody => ?_, fun hasBody hb n v cx hpass => ?_, fun hb n hbody => ?_,
    fun top rest c hwarp hcalls => ⟨fun hb v htimes hbody => ?_, fun hasBody hb n v d => ?_⟩⟩
  · obtain ⟨hhat, hop⟩ := hrepeat hb
    have hstands := ht.standsAt (Script.body_of_blocks hscript hhat)
      (show b.start = .ok (.repeatTimes b .start) by rw [Block.start, hop])
    refine ⟨t.counting b (roundInt64 v.toNumber), rfl, fun k hk => ?_, hstands.runsOut htimes hw⟩
    obtain ⟨u, cx', hturn⟩ := hbody k hk
    exact hstands.turns htimes (hw k) hk hturn
  · obtain ⟨hhat, hop⟩ := huntil hasBody hb
    have hstands := ht.standsAt (Script.body_of_blocks hscript hhat)
      (show b.start = .ok (.repeatUntil b hasBody .test) by rw [Block.start, hop])
    refine ⟨t.looping (.repeatUntil b hasBody .test), rfl, fun k hk => ?_, fun htest hholds => ?_⟩
    · obtain ⟨hk', htarget, hcontext, hnext⟩ := hstands.looping k
      obtain ⟨htest, hfails, cx', hdone⟩ := hpass k hk
      rw [← hnext, ← hcontext]
      exact hk'.fails (htarget ▸ hw k) (hcontext _ ▸ htest) hfails hdone
    · obtain ⟨hn', htarget, hcontext, -⟩ := hstands.looping n
      rw [← hcontext]
      exact hn'.holds (htarget ▸ hw n) (hcontext _ ▸ htest) hholds
  · obtain ⟨hhat, hop⟩ : b.hat = none ∧ b.operation = .forever :=
      Block.of_require rfl hb
    have hstands := ht.standsAt (Script.body_of_blocks hscript hhat)
      (show b.start = .ok (.forever b false) by rw [Block.start, hop])
    refine ⟨t.looping (.forever b false), rfl, fun k hk => ?_⟩
    obtain ⟨hk', htarget, hcontext, hnext⟩ := hstands.looping k
    obtain ⟨u, cx', hdone⟩ := hbody k hk
    rw [← hnext, ← hcontext]
    exact hk'.forever (htarget ▸ hw k) (hcontext _ ▸ hdone)
  · exact Machine.asks_repeat (c := fun k => c (k + 1)) (hrepeat hb).2 hwarp hcalls htimes hbody
  · exact Machine.asks_until (huntil hasBody hb).2 hwarp hcalls

/-- A loop that sets the variable until it is set. -/
def Block.settlesOnce : Block :=
  .mk (Library.control "control_repeat_until" [("CONDITION", .condition), ("SUBSTACK", .substack)]
    (.repeatUntil true)) "loop" 3 [("CONDITION", .block .settled), ("SUBSTACK", .stack [.settle])]

/-- Whether the variable is set in a world. -/
def World.settling (settled : Bool) : World :=
  { scene := { Scene.settling with
      targets := [{ Target.stage with vars := [("settled", .bool settled)] }] } }

/-- A test and a pass in the first step, and only a test in the second one, which ends the thread. -/
theorem loops_keep_to_slices_settling : ∃ log t₁ t₂,
    (Thread.launch 0 ⟨.settlesOnce, []⟩ 0 none).Performs (.settling false) log .running t₁ ∧
    log.map Prod.fst = [.block .settled, .stack [.settle]] ∧
    t₁.Performs (.settling true) [(.block .settled,
      (Thread.launch 0 ⟨.settlesOnce, []⟩ 0 none).context (.settling true))] .done t₂ := by
  have hread : ∀ settled, ((Thread.launch 0 ⟨.settlesOnce, []⟩ 0 none).context
      (.settling settled)).Completes (.block .settled) (.bool settled)
      ((Thread.launch 0 ⟨.settlesOnce, []⟩ 0 none).context (.settling settled)) :=
    fun settled => ⟨4, _, rfl, rfl⟩
  have hpass : ∃ cx', Block.settlesOnce.Pass true
      ((Thread.launch 0 ⟨.settlesOnce, []⟩ 0 none).context (.settling false)) cx' :=
    ⟨_, _, 8, _, rfl, rfl⟩
  obtain ⟨-, huntil, -, -⟩ := loops_keep_to_slices (b := .settlesOnce)
    (Thread.atTop_launch 0 ⟨.settlesOnce, []⟩ 0 none) rfl
    (w := fun k => .settling (k != 0)) fun _ => rfl
  obtain ⟨ts, hts, hsteps, hend⟩ := huntil true rfl 1 (fun k => .bool (k != 0))
    (fun k => (Thread.launch 0 ⟨.settlesOnce, []⟩ 0 none).context (.settling (k != 0)))
    fun k hk => by
      obtain rfl : k = 0 := Nat.lt_one_iff.mp hk
      exact ⟨hread false, rfl, hpass⟩
  obtain ⟨t₂, hlast⟩ := hend (hread true) rfl
  exact ⟨_, ts 1, t₂, hts ▸ hsteps 0 Nat.one_pos, rfl, hlast⟩

end Blockwork
