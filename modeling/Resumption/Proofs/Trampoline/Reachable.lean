import Resumption.Proofs.Queue.Halves
import Resumption.Proofs.Trampoline.Waiting

/-!
# The trampolines that there can be

* `Trampoline.due? cl t` : the code of the user that the next step of `t` runs;
* `Trampoline.Reachable cl t` : `t` is built, or left by forcing steps, where the user's code gives such
  trampolines;
* `resume_of_due` : what one step does with the trampoline that the user's code gives;
* `Reachable.obtained_queue` : the continuations of a trampoline wait in a queue that is made by pushes,
  concatenations and pops.
-/

namespace Resumption.Trampoline

variable {C : Codes} {α : Type}

def queue : Trampoline C α → Waiting C α
  | bound _ waiting _ => waiting
  | _ => .empty

/-- The code of the user that the next step runs: the thunk at the head, or the oldest continuation on the
value there. -/
def due? (cl : Closures C α (Trampoline C α)) (t : Trampoline C α) :
    Option (Action (Trampoline C α)) :=
  match t.head, t.waitingList with
  | .thunk th, _ => some (cl.force th)
  | .value a, k :: _ => some (k.run cl pure a)
  | .value _, [] => none

/-- The trampolines built from values and thunks by binds of any kind, or left by forcing what `resume` of
such a trampoline gives. A step that runs code of the user counts only where the trampoline which the code
gives is `Reachable` itself. -/
inductive Reachable (cl : Closures C α (Trampoline C α)) : Trampoline C α → Prop where
  | pure (a : α) : Reachable cl (pure a)
  | suspend (th : C.Thunk) : Reachable cl (suspend th)
  | bind {t : Trampoline C α} {k : Continuation C (Trampoline C α)} (h : Reachable cl t)
    (hk : ∀ next, k = .always next → Reachable cl next) : Reachable cl (t.bind k)
  | force {t s u : Trampoline C α} {x : Action (Trampoline C α)} {d : Deferred (Trampoline C α)}
    {count : Nat} (h : Reachable cl t) (hdue : t.due? cl = some x) (hx : x.EndsWith count s)
    (hs : Reachable cl s) (hd : t.resume cl = .left d) (hu : d.run.EndsWith count u) : Reachable cl u

theorem resume_of_due {cl : Closures C α (Trampoline C α)} {t : Trampoline C α}
    {x : Action (Trampoline C α)} {d : Deferred (Trampoline C α)} (hdue : t.due? cl = some x)
    (hd : t.resume cl = .left d) :
    d.run = x ∨ ∃ waiting last, t.queue.Leaves waiting ∧ d.run = attach waiting last <$> x := by
  cases t with
  | pure a => cases hd
  | suspend th =>
    cases hd
    exact .inl (Option.some.inj hdue)
  | bound head waiting last =>
    cases head with
    | thunk th =>
      cases hd
      obtain rfl : cl.force th = x := Option.some.inj hdue
      exact .inr ⟨waiting, last, .inl rfl, rfl⟩
    | value a =>
      obtain rfl : ⟨feed cl a waiting last⟩ = d := Either.left.inj hd
      cases hpop : waiting.pop? with
      | none =>
        have hlist : waiting.toList = [] := (ContinuationQueue.pop?_eq_none_iff waiting).1 hpop
        obtain rfl : last.run cl pure a = x := by
          simpa [due?, head, waitingList, hlist] using hdue
        exact .inl (by simp only [feed, hpop])
      | some popped =>
        obtain ⟨oldest, rest⟩ := popped
        have hlist := ContinuationQueue.toList_of_pop? hpop
        obtain rfl : oldest.run cl pure a = x := by
          simpa [due?, head, waitingList, hlist] using hdue
        exact .inr ⟨rest, last, .inr ⟨oldest, hpop⟩, by simp only [feed, hpop]⟩

theorem obtained_queue_bind {t : Trampoline C α} (h : t.queue.Obtained)
    (k : Continuation C (Trampoline C α)) : (t.bind k).queue.Obtained := by
  cases t with
  | pure a => exact .empty
  | suspend th => exact .empty
  | bound head waiting last => exact h.push last

theorem obtained_queue_attach {t : Trampoline C α} {waiting : Waiting C α} (h : t.queue.Obtained)
    (hwaiting : waiting.Obtained) (last : Continuation C (Trampoline C α)) :
    (t.attach waiting last).queue.Obtained := by
  cases t with
  | pure a => exact hwaiting
  | suspend th => exact hwaiting
  | bound head inner innerLast => exact (h.push innerLast).concat hwaiting

/-- The queue of a reachable trampoline is made by pushes, concatenations and pops. -/
theorem Reachable.obtained_queue {cl : Closures C α (Trampoline C α)} {t : Trampoline C α}
    (h : Reachable cl t) : t.queue.Obtained := by
  induction h with
  | pure a => exact .empty
  | suspend th => exact .empty
  | bind _ _ ih _ => exact obtained_queue_bind ih _
  | @force t s u x d count _ hdue hx _ hd hu ih ihs =>
    -- at one tick count the user's code gives one trampoline, and the step puts `s` where it puts that
    rcases resume_of_due hdue hd with hrun | ⟨waiting, last, hleaves, hrun⟩
    · rw [hrun] at hu
      obtain rfl : s = u := Ended.value.inj (hx.symm.trans hu)
      exact ihs
    · rw [hrun, Action.endsWith_map_iff] at hu
      obtain ⟨s', hs', rfl⟩ := hu
      obtain rfl : s = s' := Ended.value.inj (hx.symm.trans hs')
      exact obtained_queue_attach ihs (hleaves.obtained ih) last

end Resumption.Trampoline
