import Blockwork.Proofs.Faults
import Blockwork.Proofs.Meaning

/-!
Evaluations at once.

A thread runs a block above the frame of its stack, and an evaluation at once runs it inside a fence.
What the block does depends on neither: a computation behaves the same on top of any frames
(`Machine.step_above`), up to the point where it has finished and hands down its value, or where it
suspends.  So both comparisons are made with the computation on its own.  The only difference is what
becomes of a suspension, which a fence turns into a violation that names the block.
-/

namespace Blockwork

variable {ds : List Declaration}

/-! ### Fuel -/

namespace Machine

theorem drive_succ {fuel : Nat} {m : Machine} {x : Except ExecError Slice × Machine}
    (h : drive fuel m = some x) : drive (fuel + 1) m = some x := by
  induction fuel generalizing m with
  | zero => cases h
  | succ fuel ih =>
    rw [drive] at h ⊢
    split at h
    · exact ih h
    · exact h

/-- More fuel does not change what a drive comes to. -/
theorem drive_mono {fuel fuel' : Nat} {m : Machine} {x : Except ExecError Slice × Machine}
    (hle : fuel ≤ fuel') (h : drive fuel m = some x) : drive fuel' m = some x := by
  induction hle with
  | refl => exact h
  | step _ ih => exact drive_succ ih

theorem drive_unique {fuel fuel' : Nat} {m : Machine} {x y : Except ExecError Slice × Machine}
    (hx : drive fuel m = some x) (hy : drive fuel' m = some y) : x = y := by
  rcases Nat.le_total fuel fuel' with hle | hle
  · exact Option.some.inj ((drive_mono hle hx).symm.trans hy)
  · exact Option.some.inj (hx.symm.trans (drive_mono hle hy))

end Machine

/-! ### Suspensions -/

/-- What is said of a slice that ends before its computation does. -/
def Slice.reason : Slice → String
  | .finished _ => "finished"
  | .yielded => "yielded"
  | .awaiting _ => "awaited"
  | .exited => "stopped its script"

/-- The violation of a block that would suspend while it is evaluated at once. -/
def ExecError.suspended (opcode reason : String) : ExecError :=
  .protocolViolation opcode (reason ++ " during a non-suspending evaluation")

/-- What a slice comes to on top of other frames: inside a fence it must not suspend. -/
def Slice.within (fence : Option String) : Slice → Except ExecError Slice
  | .finished v => .ok (.finished v)
  | slice =>
    match fence with
    | some opcode => .error (.suspended opcode slice.reason)
    | none => .ok slice

/-- What a slice comes to as an evaluation at once. -/
def Slice.atOnce (opcode : String) : Slice → Except ExecError Value
  | .finished v => .ok v
  | slice => .error (.suspended opcode slice.reason)

theorem ExecError.suspended_inj {opcode reason reason' : String} :
    suspended opcode reason = suspended opcode reason' ↔ reason = reason' := by
  simp [suspended]

theorem ExecError.ne_suspended {e : ExecError} (he : e.isProtocolViolation = false)
    (opcode reason : String) : e ≠ suspended opcode reason := by
  rintro rfl
  cases he

theorem Slice.within_none (slice : Slice) : slice.within none = .ok slice := by
  cases slice <;> rfl

/-! ### Computations on top of others -/

/-- The machine with more frames below its own. -/
def Machine.above (below : List Routine) (m : Machine) : Machine :=
  { m with stack := { m.stack with frames := m.stack.frames ++ below } }

/-- The opcode at the innermost fence among the frames. -/
def innermostFence? (frames : List Routine) : Option String := (FrameStack.mk frames none).fence?

/-- What a step is with more frames below: a value that a computation finishes with is handed to them,
and they may be fenced off. -/
def Step.above (below : List Routine) : Step → Step
  | .next m => .next (m.above below)
  | .halt (.ok (.finished v)) m => .next ⟨⟨below, some v⟩, m.cx⟩
  | .halt result m => .halt (result.bind (Slice.within (innermostFence? below))) (m.above below)

namespace Machine

variable {below : List Routine}

theorem fence?_above (m : Machine) :
    (m.above below).stack.fence? = m.stack.fence?.or (innermostFence? below) :=
  List.findSome?_append

theorem suspend_above (m : Machine) (slice : Slice) (hslice : ∀ v, slice ≠ .finished v) :
    (m.above below).suspend slice slice.reason = (m.suspend slice slice.reason).above below := by
  rw [suspend, suspend, fence?_above]
  cases m.stack.fence? with
  | some opcode => rfl
  | none =>
    cases slice with
    | finished v => exact absurd rfl (hslice v)
    | yielded | awaiting | exited =>
      simp only [Option.none_or, Step.above, Except.bind, Slice.within]
      cases innermostFence? below <;> rfl

theorem evaluate_above (frames : List Routine) (i : Input) (cx : Context) :
    evaluate (frames ++ below) i cx = (evaluate frames i cx).above below := by
  cases i with
  | literal v => rfl
  | block b =>
    rw [evaluate, evaluate]
    cases b.start <;> rfl
  | stack bs => cases bs <;> rfl

theorem evaluateAtOnce_above (frames : List Routine) (i : Input) (cx : Context) :
    evaluateAtOnce (frames ++ below) i cx = (evaluateAtOnce frames i cx).above below := by
  cases i with
  | literal v => rfl
  | block b => exact evaluate_above (.fence b.opcode :: frames) (.block b) cx
  | stack bs =>
    cases bs with
    | nil => rfl
    | cons b bs => exact evaluate_above (.fence b.opcode :: frames) (.stack (b :: bs)) cx

theorem follow_above (hbelow : below ≠ []) (flow : Flow) (top : Routine) (rest : List Routine)
    (cx : Context) : follow flow top (rest ++ below) cx = (follow flow top rest cx).above below := by
  cases flow with
  | done v =>
    cases rest with
    | nil =>
      obtain ⟨bottom, more, rfl⟩ := List.exists_cons_of_ne_nil hbelow
      rfl
    | cons r rest => rfl
  | evaluate i => exact evaluate_above (top :: rest) i cx
  | evaluateAtOnce i => exact evaluateAtOnce_above (top :: rest) i cx
  | pause =>
    rw [follow, follow]
    split
    · rfl
    · exact suspend_above ⟨⟨top :: rest, none⟩, cx⟩ .yielded (by simp)
  | await a => exact suspend_above ⟨⟨top :: rest, none⟩, cx⟩ (.awaiting a) (by simp)
  | quit => exact suspend_above ⟨⟨top :: rest, none⟩, cx⟩ .exited (by simp)

/-- A computation behaves the same on top of any frames. -/
theorem step_above (hbelow : below ≠ []) {m : Machine} (hm : m.stack.frames ≠ []) :
    (m.above below).step = m.step.above below := by
  obtain ⟨top, rest, hframes⟩ := List.exists_cons_of_ne_nil hm
  have habove : (m.above below).stack.frames = top :: (rest ++ below) := by
    rw [above, hframes]
    rfl
  cases hres : top.resume m.stack.resumed m.cx with
  | mk reply cx =>
    cases reply with
    | error e =>
      rw [step_of_error hframes hres, step_of_error habove hres]
      rfl
    | ok x =>
      rw [step_of_ok hframes hres, step_of_ok habove hres]
      exact follow_above hbelow x.1 x.2 rest cx

/-- A step that goes on leaves something to run. -/
theorem frames_of_next {m m' : Machine} (h : m.step = .next m') : m'.stack.frames ≠ [] := by
  cases hframes : m.stack.frames with
  | nil =>
    rw [step, hframes] at h
    cases h
  | cons top rest =>
    cases hres : top.resume m.stack.resumed m.cx with
    | mk reply cx =>
      cases reply with
      | error e =>
        rw [step_of_error hframes hres] at h
        cases h
      | ok x =>
        obtain ⟨flow, top'⟩ := x
        rw [step_of_ok hframes hres] at h
        have hne : top' :: rest ≠ [] := List.cons_ne_nil _ _
        cases flow with
        | done v =>
          cases rest <;> cases h
          exact List.cons_ne_nil _ _
        | evaluate i =>
          have hsuffix := suffix_evaluate (top' :: rest) i cx
          rw [show evaluate (top' :: rest) i cx = .next m' from h] at hsuffix
          exact hsuffix.ne_nil hne
        | evaluateAtOnce i =>
          have hsuffix := suffix_evaluateAtOnce (top' :: rest) i cx
          rw [show evaluateAtOnce (top' :: rest) i cx = .next m' from h] at hsuffix
          exact hsuffix.ne_nil hne
        | pause =>
          rw [follow] at h
          split at h
          · cases h
            exact hne
          · rw [suspend_eq_halt] at h
            cases h
        | await a =>
          rw [follow, suspend_eq_halt] at h
          cases h
        | quit =>
          rw [follow, suspend_eq_halt] at h
          cases h

/-! ### Drives on top of a frame -/

end Machine

/-- The frame reports what it is resumed with. -/
def Routine.HandsOn (r : Routine) : Prop :=
  ∀ v cx, ∃ r', r.resume (some v) cx = (.ok (.done v, r'), cx)

namespace Machine

variable {bottom : Routine}

/-- A drive on top of a frame that hands values on ends as the drive on its own does, unless the frame
is a fence and the computation suspends. -/
theorem drive_above (hbottom : bottom.HandsOn) {fuel : Nat} {m m' : Machine}
    {result : Except ExecError Slice} (hm : m.stack.frames ≠ [])
    (h : drive fuel m = some (result, m')) :
    ∃ m'', drive (fuel + 1) (m.above [bottom]) =
        some (result.bind (Slice.within (innermostFence? [bottom])), m'') ∧ m''.cx = m'.cx := by
  have hbelow : [bottom] ≠ [] := List.cons_ne_nil _ _
  induction fuel generalizing m with
  | zero => cases h
  | succ fuel ih =>
    cases hstep : m.step with
    | next m₁ =>
      have habove : (m.above [bottom]).step = .next (m₁.above [bottom]) := by
        rw [step_above hbelow hm, hstep]
        rfl
      rw [drive_of_next hstep] at h
      rw [drive_of_next habove]
      exact ih (frames_of_next hstep) h
    | halt r m₁ =>
      rw [drive_of_halt hstep] at h
      cases h
      have habove := step_above hbelow hm
      rw [hstep] at habove
      rcases result with e | slice
      · exact ⟨_, drive_of_halt habove _, rfl⟩
      · cases slice with
        | finished v =>
          -- the value goes through the frame below, which takes one more step
          obtain ⟨r', hres⟩ := hbottom v m'.cx
          have hlast : Machine.step ⟨⟨[bottom], some v⟩, m'.cx⟩ =
              .halt (.ok (.finished v)) ⟨{}, m'.cx⟩ := by
            rw [step_of_ok rfl hres]
            rfl
          rw [drive_of_next habove, drive_of_halt hlast]
          exact ⟨_, rfl, rfl⟩
        | yielded | awaiting | exited => exact ⟨_, drive_of_halt habove _, rfl⟩

/-- A computation that comes to an end on top of other frames does so on its own. -/
theorem isSome_of_drive_above {below : List Routine} (hbelow : below ≠ []) {fuel : Nat} {m : Machine}
    (hm : m.stack.frames ≠ []) (h : (drive fuel (m.above below)).isSome) :
    (drive fuel m).isSome := by
  induction fuel generalizing m with
  | zero => cases h
  | succ fuel ih =>
    cases hstep : m.step with
    | next m₁ =>
      have habove : (m.above below).step = .next (m₁.above below) := by
        rw [step_above hbelow hm, hstep]
        rfl
      rw [drive_of_next habove] at h
      rw [drive_of_next hstep]
      exact ih (frames_of_next hstep) h
    | halt r m₁ =>
      rw [drive_of_halt hstep]
      rfl

end Machine

/-! ### Blocks -/

/-- The computation of a block, from its start, on its own. -/
def Routine.alone (r : Routine) (cx : Context) : Machine := ⟨⟨[r], none⟩, cx⟩

section

variable {b : Block} {r : Routine} {cx : Context}

theorem Machine.drive_ofBlocks (hstart : b.start = .ok r) (fuel : Nat) :
    drive (fuel + 1) ⟨.ofBlocks [b], cx⟩ = drive fuel ((r.alone cx).above [.stack []]) := by
  refine drive_of_next ?_ fuel
  rw [step_of_ok rfl rfl, follow, evaluate, hstart]
  rfl

/-- The reply that a drive inside a fence gives. -/
def Machine.reply : Except ExecError Slice × Machine → Reply Value
  | (.ok (.finished v), m) => (.ok v, m.cx)
  | (.ok _, m) => (.ok .null, m.cx)
  | (.error e, m) => (.error e, m.cx)

theorem Context.evaluateAtOnce_block (hstart : b.start = .ok r) (fuel : Nat) :
    cx.evaluateAtOnce fuel (.block b) =
      (Machine.drive fuel ((r.alone cx).above [.fence b.opcode])).map Machine.reply := by
  rw [evaluateAtOnce, Machine.evaluateAtOnce, Machine.evaluate, hstart]
  rfl

theorem Routine.frames_alone (r : Routine) (cx : Context) : (r.alone cx).stack.frames ≠ [] :=
  List.cons_ne_nil _ _

/-- Evaluated at once, a block comes to what its computation comes to on its own. -/
theorem Context.evaluateAtOnce_of_alone (hstart : b.start = .ok r) {fuel : Nat} {m : Machine}
    {result : Except ExecError Slice} (h : Machine.drive fuel (r.alone cx) = some (result, m)) :
    cx.evaluateAtOnce (fuel + 1) (.block b) = some (result.bind (Slice.atOnce b.opcode), m.cx) := by
  have hfence : (Routine.fence b.opcode).HandsOn := fun _ _ => ⟨_, rfl⟩
  obtain ⟨m', habove, hcx⟩ := Machine.drive_above hfence (r.frames_alone cx) h
  rw [evaluateAtOnce_block hstart, habove, ← hcx]
  rcases result with e | slice
  · rfl
  · cases slice <;> rfl

/-- As a script of its own, it comes to the same. -/
theorem Machine.drive_ofBlocks_of_alone (hstart : b.start = .ok r) {fuel : Nat} {m : Machine}
    {result : Except ExecError Slice} (h : Machine.drive fuel (r.alone cx) = some (result, m)) :
    ∃ m', drive (fuel + 2) ⟨.ofBlocks [b], cx⟩ = some (result, m') ∧ m'.cx = m.cx := by
  have hstack : (Routine.stack []).HandsOn := fun _ _ => ⟨_, rfl⟩
  obtain ⟨m', habove, hcx⟩ := drive_above hstack (r.frames_alone cx) h
  have hsame : result.bind (Slice.within none) = result := by
    rcases result with e | slice
    · rfl
    · exact slice.within_none
  rw [show innermostFence? [Routine.stack []] = none from rfl, hsame] at habove
  rw [drive_ofBlocks hstart]
  exact ⟨m', habove, hcx⟩

/-- What comes to an end inside the fence or in the script comes to an end on its own. -/
theorem Routine.alone_of_evaluateAtOnce (hstart : b.start = .ok r) {fuel : Nat}
    (h : (cx.evaluateAtOnce fuel (.block b)).isSome) :
    ∃ result m, Machine.drive fuel (r.alone cx) = some (result, m) := by
  rw [Context.evaluateAtOnce_block hstart, Option.isSome_map] at h
  obtain ⟨⟨result, m⟩, hdrive⟩ := Option.isSome_iff_exists.mp
    (Machine.isSome_of_drive_above (List.cons_ne_nil _ _) (r.frames_alone cx) h)
  exact ⟨result, m, hdrive⟩

theorem Routine.alone_of_drive (hstart : b.start = .ok r) {fuel : Nat}
    (h : (Machine.drive fuel ⟨.ofBlocks [b], cx⟩).isSome) :
    ∃ fuel result m, Machine.drive fuel (r.alone cx) = some (result, m) := by
  cases fuel with
  | zero => cases h
  | succ fuel =>
    rw [Machine.drive_ofBlocks hstart] at h
    obtain ⟨⟨result, m⟩, hdrive⟩ := Option.isSome_iff_exists.mp
      (Machine.isSome_of_drive_above (List.cons_ne_nil _ _) (r.frames_alone cx) h)
    exact ⟨fuel, result, m, hdrive⟩

theorem Context.evaluateAtOnce_unique (hstart : b.start = .ok r) {fuel fuel' : Nat}
    {x y : Reply Value} (hx : cx.evaluateAtOnce fuel (.block b) = some x)
    (hy : cx.evaluateAtOnce fuel' (.block b) = some y) : x = y := by
  rw [evaluateAtOnce_block hstart] at hx hy
  obtain ⟨u, hu, rfl⟩ := Option.map_eq_some_iff.mp hx
  obtain ⟨v, hv, rfl⟩ := Option.map_eq_some_iff.mp hy
  rw [Machine.drive_unique hu hv]

end

/-! ### Outside of fences -/

/-- No frame is a fence, or can push one. -/
structure Machine.Unfenced (ds : List Declaration) (m : Machine) : Prop where
  frames : ∀ r ∈ m.stack.frames, r.Over ds
  bodies : m.cx.scene.BodiesOver ds

/-- A step that goes on outside of fences, or halts without a violation. -/
def Step.Unfenced (ds : List Declaration) : Step → Prop
  | .next m => m.Unfenced ds
  | .halt (.error e) _ => e.isProtocolViolation = false
  | .halt (.ok _) _ => True

namespace Machine

variable {m m' : Machine}

theorem Unfenced.fence? (hm : m.Unfenced ds) : m.stack.fence? = none := by
  rw [FrameStack.fence?, List.findSome?_eq_none_iff]
  intro r hr
  have hover := hm.frames r hr
  cases r with
  | fence opcode => exact hover.elim
  | _ => rfl

/-- The top frame may be resumed. -/
theorem Unfenced.resume (hm : m.Unfenced ds) {top top' : Routine} {rest : List Routine}
    {flow : Flow} {cx : Context} (hframes : m.stack.frames = top :: rest)
    (hres : top.resume m.stack.resumed m.cx = (.ok (flow, top'), cx)) :
    flow.Over ds ∧ Machine.Unfenced ds ⟨⟨top' :: rest, none⟩, cx⟩ := by
  have hall := hm.frames
  rw [hframes] at hall
  obtain ⟨hflow, htop'⟩ := Routine.resume_over (hall top (List.mem_cons_self ..)) hm.bodies hres
  have houtline := top.resume_outline m.stack.resumed m.cx
  rw [hres] at houtline
  have hprocedures : cx.scene.procedures = m.cx.scene.procedures :=
    congrArg Scene.Outline.procedures houtline
  refine ⟨hflow, fun r hr => ?_, ?_⟩
  · rcases List.mem_cons.mp hr with rfl | hr
    · exact htop'
    · exact hall r (List.mem_cons_of_mem _ hr)
  · rw [Scene.BodiesOver, hprocedures]
    exact hm.bodies

/-- A step outside of fences stays outside, and is no violation. -/
theorem Unfenced.step (hm : m.Unfenced ds) : m.step.Unfenced ds := by
  cases hframes : m.stack.frames with
  | nil =>
    rw [Machine.step, hframes]
    trivial
  | cons top rest =>
    cases hres : top.resume m.stack.resumed m.cx with
    | mk reply cx =>
      cases reply with
      | error e =>
        rw [step_of_error hframes hres]
        have htop := hm.frames top (by rw [hframes]; exact List.mem_cons_self ..)
        show e.isProtocolViolation = false
        rcases Routine.resume_error htop hres with ⟨body, _, _, hb, hrun⟩ | ⟨d, -, -, rfl⟩
        · cases Body.fault_of_run hb hrun <;> rfl
        · rfl
      | ok x =>
        obtain ⟨flow, top'⟩ := x
        obtain ⟨hflow, hm'⟩ := hm.resume hframes hres
        have hsuspend : ∀ slice reason,
            (suspend ⟨⟨top' :: rest, none⟩, cx⟩ slice reason).Unfenced ds := by
          intro slice reason
          rw [suspend, hm'.fence?]
          trivial
        rw [step_of_ok hframes hres]
        cases flow with
        | done v =>
          cases rest with
          | nil => trivial
          | cons r rest => exact ⟨fun r hr => hm'.frames r (List.mem_cons_of_mem _ hr), hm'.bodies⟩
        | evaluate i =>
          obtain ⟨new, v, heq, hnew⟩ := evaluate_over hflow (top' :: rest) cx
          rw [follow, heq]
          refine ⟨fun r hr => ?_, hm'.bodies⟩
          rcases List.mem_append.mp hr with hr | hr
          · exact hnew r hr
          · exact hm'.frames r hr
        | evaluateAtOnce i => cases hflow
        | pause =>
          rw [follow]
          split
          · exact hm'
          · exact hsuspend _ _
        | await a => exact hsuspend _ _
        | quit => exact hsuspend _ _

/-- Outside of fences nothing is a violation. -/
theorem Unfenced.drive_error (hm : m.Unfenced ds) {fuel : Nat} {e : ExecError}
    (h : drive fuel m = some (.error e, m')) : e.isProtocolViolation = false := by
  have hnext : ∀ x x' : Machine, x.Unfenced ds → x.step = .next x' → x'.Unfenced ds :=
    fun _ _ hx hstep => by
      have hx' := hx.step
      rwa [hstep] at hx'
  obtain ⟨last, hlast, hhalt⟩ := drive_induction hnext hm h
  have hlast' := hlast.step
  rwa [hhalt] at hlast'

end Machine

/-- What an evaluation at once and a script of its own make of a block, side by side. -/
theorem Context.evaluateAtOnce_eq {b : Block} {r : Routine} {cx cx' : Context}
    (hstart : b.start = .ok r) {fuel fuel' : Nat} {reply : Except ExecError Value}
    {result : Except ExecError Slice} {m : Machine}
    (heval : cx.evaluateAtOnce fuel (.block b) = some (reply, cx'))
    (hdrive : Machine.drive fuel' ⟨.ofBlocks [b], cx⟩ = some (result, m)) :
    reply = result.bind (Slice.atOnce b.opcode) ∧ cx' = m.cx := by
  obtain ⟨n, result', m₁, halone⟩ := Routine.alone_of_drive hstart (by rw [hdrive]; rfl)
  have heval' := evaluateAtOnce_of_alone hstart halone
  obtain ⟨m₂, hdrive', hcx⟩ := Machine.drive_ofBlocks_of_alone hstart halone
  cases Machine.drive_unique hdrive hdrive'
  cases evaluateAtOnce_unique hstart heval heval'
  exact ⟨rfl, hcx.symm⟩

/-- Evaluated at once, a block over a vocabulary does what a slice does that runs it as a script.  The
one comes to an end if and only if the other does, in the same context: the same scene, services and
calls.  The value is that of the finished slice; a suspension is reported as a violation that names the
block and says what it tried; and the other errors are those of the slice. -/
theorem evaluation_at_once_agrees_with_slice {b : Block} {cx : Context} (hb : b.Over ds)
    (hbodies : cx.scene.BodiesOver ds) :
    ((∃ fuel reply, cx.evaluateAtOnce fuel (.block b) = some reply) ↔
      ∃ fuel result, Machine.drive fuel ⟨.ofBlocks [b], cx⟩ = some result) ∧
    ∀ fuel fuel' reply cx' result m, cx.evaluateAtOnce fuel (.block b) = some (reply, cx') →
      Machine.drive fuel' ⟨.ofBlocks [b], cx⟩ = some (result, m) →
      cx' = m.cx ∧
      (∀ v, reply = .ok v ↔ result = .ok (.finished v)) ∧
      (reply = .error (.suspended b.opcode "yielded") ↔ result = .ok .yielded) ∧
      (reply = .error (.suspended b.opcode "awaited") ↔ ∃ a, result = .ok (.awaiting a)) ∧
      (reply = .error (.suspended b.opcode "stopped its script") ↔ result = .ok .exited) ∧
      ∀ e, result = .error e ↔ reply = .error e ∧
        ∀ reason ∈ ["yielded", "awaited", "stopped its script"],
          e ≠ .suspended b.opcode reason := by
  obtain ⟨r, hstart, hr⟩ := hb.start
  refine ⟨⟨?_, ?_⟩, fun fuel fuel' reply cx' result m heval hdrive => ?_⟩
  · rintro ⟨fuel, reply, heval⟩
    obtain ⟨result, m, halone⟩ := Routine.alone_of_evaluateAtOnce hstart (by rw [heval]; rfl)
    obtain ⟨m', hdrive, -⟩ := Machine.drive_ofBlocks_of_alone hstart halone
    exact ⟨_, _, hdrive⟩
  · rintro ⟨fuel, result, hdrive⟩
    obtain ⟨n, result, m, halone⟩ := Routine.alone_of_drive hstart (by rw [hdrive]; rfl)
    exact ⟨_, _, Context.evaluateAtOnce_of_alone hstart halone⟩
  · obtain ⟨rfl, hcx⟩ := Context.evaluateAtOnce_eq hstart heval hdrive
    have hunfenced : Machine.Unfenced ds ⟨.ofBlocks [b], cx⟩ := by
      refine ⟨List.forall_mem_singleton.mpr ?_, hbodies⟩
      exact List.forall_mem_singleton.mpr hb
    refine ⟨hcx, ?_⟩
    rcases result with e | slice
    · have hne := ExecError.ne_suspended (hunfenced.drive_error hdrive) b.opcode
      refine ⟨by simp [Except.bind], by simp [Except.bind, hne], by simp [Except.bind, hne],
        by simp [Except.bind, hne], fun e' => ⟨?_, fun h => by simpa [Except.bind] using h.1⟩⟩
      rintro ⟨⟩
      exact ⟨rfl, fun reason _ => hne reason⟩
    · cases slice <;>
        simp +contextual [Except.bind, Slice.atOnce, Slice.reason, ExecError.suspended_inj, eq_comm]

/-- A context outside of all calls, on a scene whose custom block loops and calls itself. -/
def Context.outermost : Context := { world := { scene := .settling }, target := 0 }

/-- The recursive call of the custom block gives way, so an evaluation at once of it is a violation; the
variable has been set by then, and stays set. -/
theorem evaluation_at_once_agrees_with_slice_settling :
    Block.settling.Over [.settling] ∧ Scene.settling.BodiesOver [.settling] ∧
    ∃ fuel cx' m, Machine.drive 20 ⟨.ofBlocks [.settling], Context.outermost⟩ =
        some (.ok .yielded, m) ∧
      Context.outermost.evaluateAtOnce fuel (.block .settling) =
        some (.error (.suspended "settling" "yielded"), cx') ∧
      cx' = m.cx ∧ m.cx.scene.getVariable? 0 "settled" = some (.bool true) := by
  have hover : Block.settling.Over [.settling] :=
    Block.settling_calls.over (List.mem_singleton_self _)
  have hbodies : Context.outermost.scene.BodiesOver [.settling] := Scene.settling_over.bodies
  have hdrive : Machine.drive 20 ⟨.ofBlocks [.settling], Context.outermost⟩ =
    some (.ok .yielded, _) := rfl
  obtain ⟨hends, hagrees⟩ := evaluation_at_once_agrees_with_slice hover hbodies
  obtain ⟨fuel, ⟨reply, cx'⟩, heval⟩ := hends.mpr ⟨20, _, hdrive⟩
  obtain ⟨hcx, -, hyielded, -⟩ := hagrees fuel 20 reply cx' _ _ heval hdrive
  rw [hyielded.mpr rfl] at heval
  exact ⟨hover, hbodies, fuel, cx', _, hdrive, heval, hcx, rfl⟩

end Blockwork
