import Blockwork.Proofs.SliceBound
import Mathlib.Logic.Relation

/-!
Calls and frames stay in step through the whole life of a thread.

The mirror of `Calls` holds at every iteration of a drive, so leaving a call always finds that call
on top and never takes back a warp call that was not counted.  An evaluation runs above the frames
that asked for it, over any number of slices; what it pushes it pops, since the calls below it belong
to frames below it (`Machine.Above`).  When it returns, the calls are those it started with, arguments
included.
-/

namespace Blockwork

open Relation

/-! ### Leaving calls -/

/-- Leaving the call of a custom block pops a call of that block, and a warp call that is popped has
been counted. -/
def CallStack.Leaves (s : CallStack) (d : Declaration) : Prop :=
  ∃ c rest, s.calls = c :: rest ∧ c.procedure = d.id ∧ c.warp = d.warp ∧
    (c.warp = true → 0 < s.warpDepth)

namespace CallStack

theorem Mirrors.leaves {s : CallStack} {b : Block} {d : Declaration} {frames : List Routine}
    (h : s.Mirrors (.call b d .leave :: frames)) : s.Leaves d := by
  have hcalls := h.calls
  have hopen : (Routine.call b d .leave).openCall? = some (d.id, d.warp) := rfl
  rw [List.filterMap_cons_some hopen, List.map_eq_cons_iff] at hcalls
  obtain ⟨c, rest, hs, hc, -⟩ := hcalls
  obtain ⟨hid, hwarp⟩ := Prod.mk.inj hc
  refine ⟨c, rest, hs, hid, hwarp, fun hcw => ?_⟩
  rw [h.warpDepth, hs, List.countP_cons_of_pos hcw]
  exact Nat.succ_pos _

theorem Mirrors.length_eq {s : CallStack} {frames : List Routine} (h : s.Mirrors frames) :
    s.calls.length = (frames.filterMap Routine.openCall?).length := by
  rw [← h.calls, List.length_map]

/-- A call stack is determined by its calls. -/
theorem Mirrors.eq_of_calls {s s' : CallStack} {frames frames' : List Routine}
    (h : s.Mirrors frames) (h' : s'.Mirrors frames') (hcalls : s.calls = s'.calls) : s = s' := by
  have hdepth : s.warpDepth = s'.warpDepth := by rw [h.warpDepth, h'.warpDepth, hcalls]
  cases s
  cases s'
  simp only at hcalls hdepth
  rw [hcalls, hdepth]

end CallStack

/-! ### What a step does to calls and frames -/

/-- The arguments with which the routine enters the body of a custom block when it is resumed, unless it
gives way first. -/
def Routine.entering? (r : Routine) (v : Option Value) : Option Args :=
  match r with
  | .call b _ (.arguments waiting rest args) =>
    match passArguments b rest (takeResumed waiting v args) with
    | .complete args => some args
    | .wants .. => none
  | .call _ _ (.enter args) => some args
  | _ => none

/-- Resuming a routine leaves the calls alone, pushes the one that it enters, or pops the call that it
leaves. -/
theorem Routine.resume_calls (r : Routine) (v : Option Value) (cx : Context) :
    (r.resume v cx).2.calls = cx.calls ∨
      (∃ c, r.entering? v = some c.args ∧ (r.resume v cx).2.calls = cx.calls.push c) ∨
      ∃ b d, r = .call b d .leave ∧ (r.resume v cx).2.calls = cx.calls.pop.2 := by
  have henter : ∀ b d args, (enterBody b d args cx).2.calls = cx.calls ∨
      ∃ c, some args = some c.args ∧ (enterBody b d args cx).2.calls = cx.calls.push c := by
    intro b d args
    rw [enterBody]
    split
    · exact .inl rfl
    · exact .inr ⟨⟨d.id, args, d.warp⟩, rfl, rfl⟩
  cases r with
  | gather b body waiting more args =>
    refine .inl ?_
    simp only [resume]
    split
    · rfl
    · rename_i args' _
      have hkeeps := Body.run_keeps body b.opcode args' cx
      split
      · rename_i hrun
        rw [hrun] at hkeeps
        exact hkeeps.calls
      · rename_i hrun
        rw [hrun] at hkeeps
        exact hkeeps.calls
  | call b d phase =>
    cases phase with
    | arguments waiting more args =>
      simp only [resume, entering?]
      cases passArguments b more (takeResumed waiting v args) with
      | wants name i rest args => exact .inl rfl
      | complete args =>
        simp only [guardCall]
        split
        · exact .inl rfl
        · exact (henter b d args).imp_right .inl
    | enter args => exact (henter b d args).imp_right .inl
    | leave => exact .inr (.inr ⟨b, d, rfl, rfl⟩)
  | stack more => cases more <;> exact .inl rfl
  | repeatTimes b phase => cases phase <;> exact .inl rfl
  | forever b inBody => cases inBody <;> exact .inl rfl
  | branch b hasElse phase =>
    refine .inl ?_
    simp only [resume]
    repeat' split
    all_goals rfl
  | repeatUntil b hasBody phase =>
    refine .inl ?_
    simp only [resume]
    repeat' split
    all_goals rfl
  | relay | ask | askAtOnce | fence => exact .inl rfl

namespace Machine

theorem suffix_evaluate (frames : List Routine) (i : Input) (cx : Context) :
    frames <:+ (evaluate frames i cx).machine.stack.frames := by
  cases i with
  | literal v => exact List.suffix_refl _
  | block b =>
    rw [evaluate]
    split
    · exact List.suffix_cons _ _
    · exact List.suffix_refl _
  | stack bs =>
    cases bs with
    | nil => exact List.suffix_refl _
    | cons b bs => exact List.suffix_cons _ _

theorem suffix_evaluateAtOnce (frames : List Routine) (i : Input) (cx : Context) :
    frames <:+ (evaluateAtOnce frames i cx).machine.stack.frames := by
  have hfence : ∀ opcode, frames <:+ .fence opcode :: frames := fun _ => List.suffix_cons _ _
  cases i with
  | literal v => exact List.suffix_refl _
  | block b => exact (hfence _).trans (suffix_evaluate _ (.block b) cx)
  | stack bs =>
    cases bs with
    | nil => exact List.suffix_refl _
    | cons b bs => exact (hfence _).trans (suffix_evaluate _ (.stack (b :: bs)) cx)

/-- Nothing below the top frame is touched by what that asks for. -/
theorem suffix_follow (flow : Flow) (top : Routine) (rest : List Routine) (cx : Context) :
    rest <:+ (follow flow top rest cx).machine.stack.frames := by
  have hrest : rest <:+ top :: rest := List.suffix_cons _ _
  cases flow with
  | done v => cases rest <;> exact List.suffix_refl _
  | evaluate i => exact hrest.trans (suffix_evaluate _ i cx)
  | evaluateAtOnce i => exact hrest.trans (suffix_evaluateAtOnce _ i cx)
  | pause =>
    rw [follow]
    split
    · exact hrest
    · rw [suspend_machine]
      exact hrest
  | await a =>
    rw [follow, suspend_machine]
    exact hrest
  | quit =>
    rw [follow, suspend_machine]
    exact hrest

theorem suffix_step {m : Machine} {top : Routine} {rest : List Routine}
    (hframes : m.stack.frames = top :: rest) : rest <:+ m.step.machine.stack.frames := by
  cases hres : top.resume m.stack.resumed m.cx with
  | mk reply cx =>
    cases reply with
    | error e =>
      rw [step_of_error hframes hres]
      exact List.suffix_cons _ _
    | ok x =>
      rw [step_of_ok hframes hres]
      exact suffix_follow x.1 x.2 rest cx

theorem step_cx {m : Machine} {top : Routine} {rest : List Routine}
    (hframes : m.stack.frames = top :: rest) :
    m.step.machine.cx = (top.resume m.stack.resumed m.cx).2 := by
  cases hres : top.resume m.stack.resumed m.cx with
  | mk reply cx =>
    cases reply with
    | error e => rw [step_of_error hframes hres]; rfl
    | ok x => rw [step_of_ok hframes hres, follow_cx]

/-- The drive gets from one machine to the other without returning. -/
def Reaches : Machine → Machine → Prop := ReflTransGen fun m m' => m.step = .next m'

theorem Reaches.mirrored {m m' : Machine} (h : m.Reaches m') (hm : m.Mirrored) : m'.Mirrored := by
  induction h with
  | refl => exact hm
  | tail _ hstep ih => exact ih.next hstep

/-- Evaluating an input suspends nothing. -/
theorem not_ok_of_evaluate {frames : List Routine} {i : Input} {cx : Context} {slice : Slice}
    {m : Machine} (h : evaluate frames i cx = .halt (.ok slice) m) : False := by
  cases i with
  | literal v => cases h
  | block b =>
    rw [evaluate] at h
    split at h <;> cases h
  | stack bs => cases bs <;> cases h

theorem not_ok_of_evaluateAtOnce {frames : List Routine} {i : Input} {cx : Context} {slice : Slice}
    {m : Machine} (h : evaluateAtOnce frames i cx = .halt (.ok slice) m) : False := by
  cases i with
  | literal v => cases h
  | block b => exact @not_ok_of_evaluate (.fence b.opcode :: frames) (.block b) _ _ _ h
  | stack bs =>
    cases bs with
    | nil => cases h
    | cons b bs => exact @not_ok_of_evaluate (.fence b.opcode :: frames) (.stack (b :: bs)) _ _ _ h

theorem eq_of_suspend_ok {x m : Machine} {slice slice' : Slice} {reason : String}
    (h : x.suspend slice reason = .halt (.ok slice') m) : slice' = slice ∧ m = x := by
  rw [suspend] at h
  split at h <;> cases h
  exact ⟨rfl, rfl⟩

/-- How a slice ends without a failure: nothing is left to run, or the top frame has asked for a
suspension and stays.  A script gives way only outside of warp calls. -/
theorem halt_cases {m m' : Machine} {slice : Slice} (h : m.step = .halt (.ok slice) m') :
    (∃ v, slice = .finished v ∧ m'.stack = {}) ∨
    ∃ top rest flow top', m.stack.frames = top :: rest ∧
      top.resume m.stack.resumed m.cx = (.ok (flow, top'), m'.cx) ∧
      m'.stack = ⟨top' :: rest, none⟩ ∧
      (flow = .pause ∧ slice = .yielded ∧ m'.cx.calls.warpDepth = 0 ∨
        (∃ a, flow = .await a ∧ slice = .awaiting a) ∨ flow = .quit ∧ slice = .exited) := by
  cases hframes : m.stack.frames with
  | nil =>
    rw [step, hframes] at h
    cases h
    exact .inl ⟨_, rfl, rfl⟩
  | cons top rest =>
    cases hres : top.resume m.stack.resumed m.cx with
    | mk reply cx =>
      cases reply with
      | error e =>
        rw [step_of_error hframes hres] at h
        cases h
      | ok x =>
        obtain ⟨flow, top'⟩ := x
        rw [step_of_ok hframes hres] at h
        cases flow with
        | done v =>
          cases rest <;> cases h
          exact .inl ⟨v, rfl, rfl⟩
        | evaluate i => exact (not_ok_of_evaluate h).elim
        | evaluateAtOnce i => exact (not_ok_of_evaluateAtOnce h).elim
        | pause =>
          rw [follow] at h
          split at h
          · cases h
          · rename_i hdepth
            obtain ⟨rfl, rfl⟩ := eq_of_suspend_ok h
            exact .inr ⟨top, rest, .pause, top', rfl, hres, rfl,
              .inl ⟨rfl, rfl, Nat.eq_zero_of_not_pos hdepth⟩⟩
        | await a =>
          obtain ⟨rfl, rfl⟩ := eq_of_suspend_ok h
          exact .inr ⟨top, rest, .await a, top', rfl, hres, rfl, .inr (.inl ⟨a, rfl, rfl⟩)⟩
        | quit =>
          obtain ⟨rfl, rfl⟩ := eq_of_suspend_ok h
          exact .inr ⟨top, rest, .quit, top', rfl, hres, rfl, .inr (.inr ⟨rfl, rfl⟩)⟩

theorem warpDepth_of_yielded {m m' : Machine} (h : m.step = .halt (.ok .yielded) m') :
    m'.cx.calls.warpDepth = 0 := by
  rcases halt_cases h with ⟨v, hv, -⟩ | ⟨_, _, _, _, -, -, -, ⟨-, -, hdepth⟩ | ⟨a, -, ha⟩ | ⟨-, hq⟩⟩
  · cases hv
  · exact hdepth
  · cases ha
  · cases hq

end Machine

/-! ### From slice to slice -/

/-- What becomes of a thread between two slices: it is polled, or handed a value. -/
inductive Thread.Idles (t : Thread) : Thread → Prop
  | rests : Idles t t
  | polled {u : Thread} (s : Signals) : Idles t u → Idles t (u.poll s).2
  | resolved {u : Thread} (generation : Nat) (v : Value) :
      Idles t u → Idles t (u.resolve generation v).2

namespace Thread

theorem Idles.sameFrames {t u : Thread} (h : t.Idles u) : t.SameFrames u := by
  induction h with
  | rests => exact ⟨rfl, rfl, rfl⟩
  | @polled u s _ ih =>
    have hp := sameFrames_poll s u
    exact ⟨hp.script.trans ih.script, hp.frames.trans ih.frames, hp.calls.trans ih.calls⟩
  | @resolved u generation v _ ih =>
    have hr := sameFrames_resolve generation v u
    exact ⟨hr.script.trans ih.script, hr.frames.trans ih.frames, hr.calls.trans ih.calls⟩

/-- A thread that is done is beyond polls and values. -/
theorem Idles.eq_of_done {t u : Thread} (h : t.Idles u) (hd : t.status = .done)
    (hp : t.pending = none) : u = t := by
  induction h with
  | rests => rfl
  | polled s _ ih =>
    rw [ih, poll, hp]
  | resolved generation v _ ih =>
    rw [ih, resolve, if_pos]
    refine .inr ?_
    rw [hd]
    exact Status.noConfusion

end Thread

namespace Machine

/-- How the computation of a thread goes on: by an iteration of its drive, or from the end of a slice
to the beginning of its next one, on whatever world that runs. -/
inductive Proceeds : Machine → Machine → Prop
  | next {m m' : Machine} : m.step = .next m' → Proceeds m m'
  | slice {m m₁ : Machine} {slice : Slice} {t u : Thread} (w : World) :
      m.step = .halt (.ok slice) m₁ → (t.absorb (.ok slice) m₁).Idles u → u.status = .running →
      Proceeds m (u.machine w)

/-- Between two slices frames and calls stay as they are. -/
theorem Proceeds.kept {m m' : Machine} (h : m.Proceeds m') :
    m'.stack.frames = m.step.machine.stack.frames ∧ m'.cx.calls = m.step.machine.cx.calls := by
  cases h with
  | next hstep =>
    rw [hstep]
    exact ⟨rfl, rfl⟩
  | @slice m₁ slice t u w hhalt hidles hrun =>
    rw [hhalt]
    have hfinished : ∀ result, (t.absorb (.ok slice) m₁) =
        ({ t with stack := m₁.stack, calls := m₁.cx.calls } : Thread).finish result → False := by
      intro result heq
      rw [heq] at hidles
      rw [hidles.eq_of_done rfl rfl] at hrun
      cases hrun
    have hsame := hidles.sameFrames
    cases slice with
    | finished v => exact (hfinished (some v) rfl).elim
    | exited => exact (hfinished none rfl).elim
    | yielded => exact ⟨hsame.frames, hsame.calls⟩
    | awaiting a =>
      have hpoll := Thread.sameFrames_poll m₁.cx.world.signals
        ({ t with stack := m₁.stack, calls := m₁.cx.calls, status := .parked,
                  pending := some ⟨t.generation, a⟩ } : Thread)
      exact ⟨hsame.frames.trans hpoll.frames, hsame.calls.trans hpoll.calls⟩

/-- A run of a thread's computation that stays above a number of frames until its last machine. -/
def RunsAbove (depth : Nat) : Machine → Machine → Prop :=
  ReflTransGen fun m m' => depth < m.stack.depth ∧ m.Proceeds m'

/-- The machine stands on the frames, and its calls on the calls. -/
structure Above (frames : List Routine) (calls : CallStack) (m : Machine) : Prop where
  frames : frames <:+ m.stack.frames
  calls : calls.calls <:+ m.cx.calls.calls
  mirrored : m.Mirrored

variable {frames : List Routine} {calls : CallStack}

/-- The calls below belong to the frames below, so a call that is popped above them is another
one. -/
theorem Above.proceeds {m m' : Machine} (h : m.Above frames calls) (hcalls : calls.Mirrors frames)
    (hdepth : frames.length < m.stack.depth) (hm : m.Proceeds m') : m'.Above frames calls := by
  obtain ⟨hf, hc⟩ := hm.kept
  have hmirrored : m'.Mirrored := by
    rw [Mirrored, hf, hc]
    exact h.mirrored.step
  cases hframes : m.stack.frames with
  | nil =>
    rw [FrameStack.depth, hframes] at hdepth
    exact absurd hdepth (Nat.not_lt_zero _)
  | cons top rest =>
    have hsuffix := h.frames
    rw [FrameStack.depth] at hdepth
    rw [hframes] at hsuffix hdepth
    have hrest : frames <:+ rest := by
      rcases List.suffix_cons_iff.mp hsuffix with rfl | hrest
      · exact absurd hdepth (Nat.lt_irrefl _)
      · exact hrest
    refine ⟨?_, ?_, hmirrored⟩
    · rw [hf]
      exact hrest.trans (suffix_step hframes)
    · rw [hc, step_cx hframes]
      rcases top.resume_calls m.stack.resumed m.cx with heq | ⟨c, -, heq⟩ | ⟨b, d, rfl, heq⟩
      · rw [heq]
        exact h.calls
      · rw [heq]
        exact h.calls.trans (List.suffix_cons _ _)
      · rw [heq]
        have hm := h.mirrored
        rw [Mirrored, hframes] at hm
        have hle := (hrest.filterMap Routine.openCall?).length_le
        have hpop := (hm.pop (x := (d.id, d.warp)) rfl).length_eq
        rw [← hcalls.length_eq, ← hpop] at hle
        obtain ⟨c, more, hs, -⟩ := hm.leaves
        have htail : m.cx.calls.pop.2.calls = more := by rw [CallStack.pop, hs]
        have hsub := h.calls
        rw [hs] at hsub
        rw [htail] at hle ⊢
        rcases List.suffix_cons_iff.mp hsub with heq | hsub
        · rw [heq] at hle
          exact absurd hle (Nat.not_succ_le_self _)
        · exact hsub

theorem Above.runsAbove {m m' : Machine} (h : m.Above frames calls) (hcalls : calls.Mirrors frames)
    (hrun : RunsAbove frames.length m m') : m'.Above frames calls := by
  induction hrun with
  | refl => exact h
  | tail _ hstep ih => exact ih.proceeds hcalls hstep.1 hstep.2

/-- A run that is back at the frames is back at the calls, arguments included. -/
theorem Above.returned {m : Machine} (h : m.Above frames calls) (hcalls : calls.Mirrors frames)
    (hdepth : m.stack.depth = frames.length) : m.stack.frames = frames ∧ m.cx.calls = calls := by
  have hframes : m.stack.frames = frames := (h.frames.eq_of_length hdepth.symm).symm
  have hm := h.mirrored
  rw [Mirrored, hframes] at hm
  have hlength : calls.calls.length = m.cx.calls.calls.length := by
    rw [hm.length_eq, hcalls.length_eq]
  exact ⟨hframes, hm.eq_of_calls hcalls (h.calls.eq_of_length hlength).symm⟩

/-- An evaluation that returns leaves the calls as it found them. -/
theorem evaluation_keeps_calls {top : Routine} {rest : List Routine} {x : Input} {cx : Context}
    {m m' : Machine} (hcx : cx.calls.Mirrors (top :: rest))
    (hstart : evaluate (top :: rest) x cx = .next m) (hrun : RunsAbove (rest.length + 1) m m')
    (hreturn : m'.stack.depth = rest.length + 1) :
    m'.stack.frames = top :: rest ∧ m'.cx.calls = cx.calls := by
  have hm : m.Above (top :: rest) cx.calls := by
    have hframes := suffix_evaluate (top :: rest) x cx
    have hcalls := evaluate_cx (top :: rest) x cx
    have hmirrored := mirrored_evaluate hcx x
    rw [hstart] at hframes hcalls hmirrored
    refine ⟨hframes, ?_, hmirrored⟩
    have hcx' : m.cx = cx := hcalls
    rw [hcx']
  exact (hm.runsAbove hcx hrun).returned hcx hreturn

end Machine

/-! ### Threads -/

namespace Thread

variable {ds : List Declaration}

theorem status_of_resolve_done {t : Thread} {generation : Nat} {v : Value}
    (h : (t.resolve generation v).2.status = .done) : t.status = .done := by
  rw [resolve] at h
  split at h
  · exact h
  · cases h

theorem status_of_poll_done {t : Thread} {s : Signals} (h : (t.poll s).2.status = .done) :
    t.status = .done := by
  rw [poll] at h
  split at h
  · exact h
  · split at h
    · exact status_of_resolve_done (t := { t with pending := none }) h
    · exact h

theorem calls_of_absorb_done {t : Thread} {result : Except ExecError Slice} {m : Machine}
    (hr : t.status = .running) (h : (t.absorb result m).status = .done) :
    (t.absorb result m).calls = {} := by
  rcases result with e | slice
  · rfl
  · cases slice with
    | finished v => rfl
    | exited => rfl
    | yielded =>
      have hd : t.status = .done := h
      rw [hr] at hd
      cases hd
    | awaiting a => cases status_of_poll_done h

/-- A thread that is done is in no call. -/
theorem Arises.calls_of_done {t : Thread} (h : t.Arises ds) (hd : t.status = .done) :
    t.calls = {} := by
  induction h with
  | launch => cases hd
  | @step t t' w w' fuel outcome _ _ hstep ih =>
    by_cases hr : t.status = .running
    · cases hknown : (w.scene.target? t.target).isNone with
      | true =>
        rw [step_of_unknown hr hknown] at hstep
        cases hstep
        rfl
      | false =>
        rw [step_of_running hr hknown] at hstep
        obtain ⟨⟨result, m⟩, -, heq⟩ := Option.map_eq_some_iff.mp hstep
        cases heq
        exact calls_of_absorb_done hr hd
    · rw [step_of_resting hr] at hstep
      cases hstep
      exact ih hd
  | @poll t s _ ih =>
    rw [(sameFrames_poll s t).calls]
    exact ih (status_of_poll_done hd)
  | @resolve t generation v _ ih =>
    rw [(sameFrames_resolve generation v t).calls]
    exact ih (status_of_resolve_done hd)
  | restart => cases hd
  | retire => rfl

/-- A step that leaves its thread running has given way outside of warp calls. -/
theorem warpDepth_of_step_running {t t' : Thread} (ht : t.Over ds) {fuel : Nat} {w w' : World}
    (hw : w.scene.Over ds) (h : t.step fuel w = some (.ok .running, t', w')) :
    t'.calls.warpDepth = 0 := by
  by_cases hr : t.status = .running
  · cases hknown : (w.scene.target? t.target).isNone with
    | true =>
      rw [step_of_unknown hr hknown] at h
      cases h
    | false =>
      rw [step_of_running hr hknown] at h
      obtain ⟨⟨result, m⟩, hdrive, heq⟩ := Option.map_eq_some_iff.mp h
      simp only [Prod.mk.injEq] at heq
      obtain ⟨houtcome, rfl, -⟩ := heq
      have hm : (t.machine w).Over ds False := ⟨fun r hr => .inl (ht.frames r hr), hw⟩
      rcases result with e | slice
      · cases houtcome
      · cases slice with
        | finished v => cases houtcome
        | exited => cases houtcome
        | yielded =>
          obtain ⟨last, -, hhalt⟩ :=
            Machine.drive_induction (I := fun _ => True) (fun _ _ _ _ => trivial) trivial hdrive
          exact Machine.warpDepth_of_yielded hhalt
        | awaiting a =>
          -- a standard body waits for a signal it has just begun, so the thread is parked
          obtain ⟨-, ⟨-, hna⟩ | ⟨token, hissues, hres | ⟨hf, -⟩⟩⟩ := Machine.drive_ended hm hdrive
          · exact absurd rfl (hna a)
          · cases hres
            rw [absorb_awaiting t hissues] at houtcome
            cases houtcome
          · exact hf.elim
  · rw [step_of_resting hr, Option.some.injEq, Prod.mk.injEq, Except.ok.injEq] at h
    exact absurd h.1 hr

end Thread

/-- The calls of a thread mirror its frames, whatever is done with it: between operations and at every
iteration of a drive they are the calls whose bodies the frames are running, in the same order, and the
warp ones are counted.  So no call is left that was not entered; every evaluation that returns, after
whatever slices, leaves the calls as it found them; a thread that is done is in no call; and a step
that gives way does so outside of warp calls. -/
theorem calls_mirror_frames (ds : List Declaration) {t : Thread} (ht : t.Arises ds) :
    (t.calls.Mirrors t.stack.frames ∧ (t.status = .done → t.calls = {})) ∧
    (∀ w m, (t.machine w).Reaches m → m.cx.calls.Mirrors m.stack.frames ∧
      ∀ b d rest, m.stack.frames = .call b d .leave :: rest → m.cx.calls.Leaves d) ∧
    (∀ w m top rest top' x cx m₁ m', (t.machine w).Reaches m → m.stack.frames = top :: rest →
      top.resume m.stack.resumed m.cx = (.ok (.evaluate x, top'), cx) → m.step = .next m₁ →
      m₁.RunsAbove (rest.length + 1) m' → m'.stack.depth = rest.length + 1 →
      m'.stack.frames = top' :: rest ∧ m'.cx.calls = cx.calls) ∧
    ∀ fuel w t' w', w.scene.Over ds → t.step fuel w = some (.ok .running, t', w') →
      t'.calls.warpDepth = 0 := by
  obtain ⟨hover, hmirrored⟩ := ht.over_mirrored
  have hreached : ∀ {w m}, (t.machine w).Reaches m → m.Mirrored :=
    fun hreach => hreach.mirrored hmirrored
  refine ⟨⟨hmirrored, ht.calls_of_done⟩, fun w m hreach => ⟨hreached hreach, ?_⟩, ?_, ?_⟩
  · intro b d rest hframes
    have hm := hreached hreach
    rw [Machine.Mirrored, hframes] at hm
    exact hm.leaves
  · intro w m top rest top' x cx m₁ m' hreach hframes hres hstep hrun hreturn
    have hm := hreached hreach
    rw [Machine.Mirrored, hframes] at hm
    rw [Machine.step_of_ok hframes hres] at hstep
    exact Machine.evaluation_keeps_calls (Routine.resume_mirrors hm hres) hstep hrun hreturn
  · intro fuel w t' w' hw hstep
    exact Thread.warpDepth_of_step_running hover hw hstep

/-- A thread that has given way inside a call: the call is mirrored, and is no warp one. -/
theorem calls_mirror_frames_endless :
    ∃ t w, Thread.endless.step 20 { scene := .endless } = some (.ok .running, t, w) ∧
      t.calls.depth = 1 ∧ t.calls.Mirrors t.stack.frames ∧ t.calls.warpDepth = 0 := by
  have hlaunched : Thread.endless.Arises [.endless] :=
    .launch 0 0 none (List.forall_mem_singleton.mpr Block.endless_over)
  have hstep : Thread.endless.step 20 { scene := .endless } = some (.ok .running, _, _) := rfl
  have hgave : Thread.Arises [.endless] _ := .step hlaunched Scene.endless_over hstep
  exact ⟨_, _, hstep, rfl, (calls_mirror_frames [.endless] hgave).1.1,
    (calls_mirror_frames [.endless] hlaunched).2.2.2 20 _ _ _ Scene.endless_over hstep⟩

end Blockwork
