import Blockwork.Engine.Timers
import Mathlib.Data.List.Perm.Basic

/-!
Firing the timers.

The delays are looked at in place: one that is due is taken out, and the last one moves to where it was.
Taking one out leaves the delays before that position as they are, and the ones after it up to their
order (`take_swapRemove`, `drop_swapRemove`), so every delay gets its look.  What is fired are the delays
that are due, each once, and what stays are the others (`Timers.fireDue_spec`).
-/

namespace Blockwork

section

variable {α : Type} {xs : List α} {x : α} {i : Nat}

theorem swapRemove_concat_of_lt (h : i < xs.length) : swapRemove i (xs ++ [x]) = xs.set i x := by
  rw [swapRemove, List.getLast?_concat]
  simp only
  rw [List.set_append_left _ _ h, List.dropLast_concat]

theorem swapRemove_concat_length : swapRemove xs.length (xs ++ [x]) = xs := by
  rw [swapRemove, List.getLast?_concat]
  simp only
  rw [List.set_append_right _ _ (Nat.le_refl _), Nat.sub_self, List.set_cons_zero,
    List.dropLast_concat]

/-- What stands before the position stays. -/
theorem take_swapRemove (h : i < xs.length) : (swapRemove i xs).take i = xs.take i := by
  obtain rfl | ⟨init, last, rfl⟩ := List.eq_nil_or_concat xs
  · exact absurd h (Nat.not_lt_zero i)
  rw [List.concat_eq_append, List.length_append, List.length_singleton] at h
  rw [List.concat_eq_append, List.take_append_of_le_length (Nat.le_of_lt_succ h)]
  rcases Nat.lt_succ_iff_lt_or_eq.mp h with hlt | rfl
  · rw [swapRemove_concat_of_lt hlt, List.take_set_of_le (Nat.le_refl i)]
  · rw [swapRemove_concat_length]

/-- What stands after the position is left, in another order. -/
theorem drop_swapRemove (h : i < xs.length) :
    ((swapRemove i xs).drop i).Perm (xs.drop (i + 1)) := by
  obtain rfl | ⟨init, last, rfl⟩ := List.eq_nil_or_concat xs
  · exact absurd h (Nat.not_lt_zero i)
  rw [List.concat_eq_append, List.length_append, List.length_singleton] at h
  rw [List.concat_eq_append]
  rcases Nat.lt_succ_iff_lt_or_eq.mp h with hlt | rfl
  · rw [swapRemove_concat_of_lt hlt, List.drop_append_of_le_length hlt,
      List.drop_eq_getElem_cons (by rw [List.length_set]; exact hlt), List.getElem_set_self,
      List.drop_set_of_lt (Nat.lt_succ_self i)]
    exact (List.perm_append_singleton last _).symm
  · rw [swapRemove_concat_length, List.drop_length, List.drop_eq_nil_of_le (by simp)]

theorem length_swapRemove (h : i < xs.length) : (swapRemove i xs).length + 1 = xs.length := by
  obtain rfl | ⟨init, last, rfl⟩ := List.eq_nil_or_concat xs
  · exact absurd h (Nat.not_lt_zero i)
  rw [List.concat_eq_append, List.length_append, List.length_singleton] at h ⊢
  rcases Nat.lt_succ_iff_lt_or_eq.mp h with hlt | rfl
  · rw [swapRemove_concat_of_lt hlt, List.length_set]
  · rw [swapRemove_concat_length]

end

namespace Timers

/-- What has become of the delays from a position on: those that were due have been settled with null,
each once, and counted, and the others stay behind the ones before the position. -/
def FiredFrom (now : Nanos) (i : Nat) (pending : List Timer) (s : Signals)
    (r : Nat × List Timer × Signals) : Prop :=
  ∃ fired : List Timer, fired.Perm ((pending.drop i).filter (·.due ≤ now)) ∧ r.1 = fired.length ∧
    r.2.1.Perm (pending.take i ++ (pending.drop i).filter (now < ·.due)) ∧
    r.2.2 = fired.foldl (fun s t => s.settle t.token .null) s

variable {now : Nanos} {i : Nat} {pending : List Timer} {s : Signals}

theorem FiredFrom.end_of_list (h : pending.length ≤ i) : FiredFrom now i pending s (0, pending, s) := by
  refine ⟨[], ?_, rfl, ?_, rfl⟩
  · rw [List.drop_eq_nil_of_le h]
    exact List.Perm.refl _
  · rw [List.drop_eq_nil_of_le h, List.take_of_length_le h]
    exact .of_eq (List.append_nil pending).symm

/-- The rest of the list is fired if there are looks enough for it. -/
theorem firedFrom_fireFrom (now : Nanos) : ∀ (looks i : Nat) (pending : List Timer) (s : Signals),
    pending.length ≤ i + looks → FiredFrom now i pending s (fireFrom now looks i pending s) := by
  intro looks
  induction looks with
  | zero => exact fun i pending s hlen => .end_of_list hlen
  | succ looks ih =>
    intro i pending s hlen
    rw [fireFrom]
    cases hget : pending[i]? with
    | none => exact .end_of_list (List.getElem?_eq_none_iff.mp hget)
    | some t =>
      obtain ⟨hi, ht⟩ := List.getElem?_eq_some_iff.mp hget
      have hdrop : pending.drop i = t :: pending.drop (i + 1) := by
        rw [List.drop_eq_getElem_cons hi, ht]
      by_cases hdue : t.due ≤ now
      · -- the next look is at `i` again, and what stands there on has only changed its order
        have hshort := length_swapRemove hi
        obtain ⟨fired, hfired, hcount, hrest, hsignals⟩ :=
          ih i (swapRemove i pending) (s.settle t.token .null) (by omega)
        simp only [hdue, if_true]
        refine ⟨t :: fired, ?_, congrArg (· + 1) hcount, hrest.trans ?_, hsignals⟩
        · rw [hdrop, List.filter_cons_of_pos (by simpa using hdue)]
          exact (hfired.trans ((drop_swapRemove hi).filter _)).cons t
        · rw [hdrop, List.filter_cons_of_neg (by simpa using hdue), take_swapRemove hi]
          exact ((drop_swapRemove hi).filter _).append_left _
      · obtain ⟨fired, hfired, hcount, hrest, hsignals⟩ := ih (i + 1) pending s (by omega)
        simp only [hdue, if_false]
        refine ⟨fired, ?_, hcount, hrest.trans ?_, hsignals⟩
        · rw [hdrop, List.filter_cons_of_neg (by simpa using hdue)]
          exact hfired
        · rw [hdrop, List.filter_cons_of_pos (by simpa using hdue), List.take_add_one, hget]
          exact .of_eq (List.append_assoc ..)

/-- Firing settles the delays that are due with null, each once, counts them, and leaves the others. -/
theorem fireDue_spec (now : Nanos) (ts : Timers) (s : Signals) : ∃ fired : List Timer,
    fired.Perm (ts.pending.filter (·.due ≤ now)) ∧ (ts.fireDue now s).1 = fired.length ∧
    (ts.fireDue now s).2.1.pending.Perm (ts.pending.filter (now < ·.due)) ∧
    (ts.fireDue now s).2.2 = fired.foldl (fun s t => s.settle t.token .null) s :=
  firedFrom_fireFrom now ts.pending.length 0 ts.pending s (Nat.le_add_left ..)

end Timers

end Blockwork
